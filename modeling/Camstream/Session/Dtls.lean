import Mathlib.Logic.Function.Basic
import Camstream.Session.State

/-!
# The DTLS-SRTP engine

`src/webrtc/dtls_srtp.c` from the BIOs on. The engine is written over the session it belongs to and
over the callbacks it was created with, as in the source: what a callback does to the session, and
through it to the engine, is not known here.

OpenSSL is an arbitrary client of the two BIOs: it may read from the queue of received datagrams and
write datagrams in any order, and return anything.
-/

namespace Camstream

/-- `DtlsSrtpCallbacks`, without `on_rtcp`, which the engine never calls. The kind of a datagram is
for the log only. -/
structure DtlsSrtpCallbacks where
  sendUdp : UdpKind → RtcSession → List UInt8 → RtcSession
  onConnected : RtcSession → RtcSession
  onState : RtcSession → DtlsSrtpState → RtcSession

/-! ### The BIOs -/

/-- `bio_rx_read`: the datagram read, `none` for `-1`. A datagram that does not fit is dropped. -/
def bioRxRead (d : DtlsSrtp) (size : ℕ) : DtlsSrtp × Option (List UInt8) :=
  if d.rxCount = 0 then (d, none)
  else
    let pkt := d.rxq d.rxHead
    let d :=
      { d with
        rxq := Function.update d.rxq d.rxHead none
        rxCount := d.rxCount - 1
        rxHead := (d.rxHead + 1) % dtlsRxQueue }
    (d, pkt.filter fun data ↦ data.length ≤ size)

/-- `bio_tx_write` -/
def bioTxWrite (cb : DtlsSrtpCallbacks) (session : RtcSession) (buf : List UInt8) : RtcSession :=
  if buf.length = 0 then session else cb.sendUdp .dtls session buf

/-- One use of a BIO by OpenSSL. -/
def bioOp (cb : DtlsSrtpCallbacks) (session : RtcSession) : BioOp → RtcSession
  | .read size => { session with dtls := (bioRxRead session.dtls size).1 }
  | .write buf => bioTxWrite cb session buf

/-- An OpenSSL call, seen from the BIOs. -/
def sslIo (cb : DtlsSrtpCallbacks) (session : RtcSession) (ops : List BioOp) : RtcSession :=
  ops.foldl (bioOp cb) session

/-! ### Keys -/

/-- `dtls_set_state` -/
def dtlsSetState (cb : DtlsSrtpCallbacks) (session : RtcSession) (state : DtlsSrtpState) :
    RtcSession :=
  if session.dtls.state = state then session
  else cb.onState { session with dtls := { session.dtls with state := state } } state

/-- One digit of `"%02X"`. -/
def upperHexDigit (n : ℕ) : UInt8 :=
  if n < 10 then UInt8.ofNat (48 + n) else UInt8.ofNat (55 + n)

/-- `"%02X"` -/
def upperHex (b : UInt8) : List UInt8 :=
  [upperHexDigit (b.toNat / 16), upperHexDigit (b.toNat % 16)]

/-- `fingerprint_hex_equal`: the digest part of the SDP value, behind the first space if there is one,
without colons and in upper case, against the digest in hexadecimal. -/
def fingerprintHexEqual (sdpValue md : List UInt8) : Bool :=
  let p := if 32 ∈ sdpValue then (sdpValue.dropWhile (· ≠ 32)).tail else sdpValue
  let normalized :=
    ((p.filter (· ≠ 58)).map fun c ↦ if 97 ≤ c ∧ c ≤ 102 then c - 32 else c).take 127
  decide (normalized = md.flatMap upperHex)

/-- The check of `derive_srtp_keys` against the certificate of the peer. -/
def fingerprintCheck (lib : Libraries) (ans : Answers) (session : RtcSession) :
    RtcSession × Bool :=
  if session.dtls.expectedFingerprint = [] then (session, true)
  else
    match ans.peerCertificate with
    | none => (session, false)
    | some peer =>
      match lib.x509Digest peer with
      | none => (session, false)
      | some md =>
        let ok := fingerprintHexEqual session.dtls.expectedFingerprint md
        (session.emit (.fingerprintCompared peer md ok), ok)

/-- `derive_srtp_keys`; the flag is `true` for a return value of `0`. -/
def deriveSrtpKeys (lib : Libraries) (ans : Answers) (session : RtcSession) : RtcSession × Bool :=
  match ans.keyingMaterial with
  | none => (session, false)
  | some material =>
    let clientKey := material.take 16 ++ (material.drop 32).take 14
    let serverKey := (material.drop 16).take 16 ++ (material.drop 46).take 14
    if !ans.srtpCreateOut then (session, false)
    else
      let session := { session with dtls := { session.dtls with srtpOut := some ⟨serverKey, 0⟩ } }
      if !ans.srtpCreateIn then (session, false)
      else
        let session := { session with dtls := { session.dtls with srtpIn := some ⟨clientKey, 0⟩ } }
        match fingerprintCheck lib ans session with
        | (session, false) => (session, false)
        | (session, true) =>
          ({ session with dtls := { session.dtls with fingerprintOk := true, srtpReady := true } },
            true)

/-! ### Driving the handshake -/

/-- The call of OpenSSL in `pump_ssl`, with the failures that end the function there: `false`. -/
def pumpSslCall (cb : DtlsSrtpCallbacks) (ans : Answers) (session : RtcSession) :
    RtcSession × Bool :=
  if !session.dtls.handshakeStarted then
    let session := { session with dtls := { session.dtls with handshakeStarted := true } }
    let session := dtlsSetState cb session .handshaking
    let session := sslIo cb session ans.ssl.io
    if ans.ssl.rc = 1 then (session, true)
    else if ans.ssl.error ≠ .wantRead ∧ ans.ssl.error ≠ .wantWrite then
      (dtlsSetState cb session .failed, false)
    else (session, true)
  else
    let session := sslIo cb session ans.ssl.io
    if ans.ssl.rc < 0 then
      if ans.ssl.error ≠ .wantRead ∧ ans.ssl.error ≠ .wantWrite then
        (dtlsSetState cb session .failed, false)
      else (session, true)
    else if ans.ssl.rc = 0 then (dtlsSetState cb session .closed, false)
    else (session, true)

/-- The end of `pump_ssl`: when the handshake has finished, derive the keys. -/
def pumpSslKeys (lib : Libraries) (cb : DtlsSrtpCallbacks) (ans : Answers) (session : RtcSession) :
    RtcSession :=
  if !session.dtls.srtpReady ∧ ans.initFinished then
    match deriveSrtpKeys lib ans session with
    | (session, false) => dtlsSetState cb session .failed
    | (session, true) => cb.onConnected (dtlsSetState cb session .connected)
  else session

/-- `pump_ssl` -/
def pumpSsl (lib : Libraries) (cb : DtlsSrtpCallbacks) (ans : Answers) (session : RtcSession) :
    RtcSession :=
  if session.dtls.state = .closed ∨ session.dtls.state = .failed then session
  else
    match pumpSslCall cb ans session with
    | (session, false) => session
    | (session, true) => pumpSslKeys lib cb ans session

/-- The overflow branch of `dtls_srtp_on_udp`: drop the oldest datagram of a full queue. -/
def rxqMakeRoom (d : DtlsSrtp) : DtlsSrtp :=
  if dtlsRxQueue ≤ d.rxCount then
    { d with
      rxq := Function.update d.rxq d.rxHead none
      rxHead := (d.rxHead + 1) % dtlsRxQueue
      rxCount := d.rxCount - 1 }
  else d

/-- `dtls_srtp_on_udp` -/
def dtlsSrtpOnUdp (lib : Libraries) (cb : DtlsSrtpCallbacks) (ans : Answers) (session : RtcSession)
    (packet : List UInt8) : RtcSession :=
  if session.dtls.state = .failed then session
  else
    let d := rxqMakeRoom session.dtls
    let tail := d.rxTail
    if !ans.malloc then
      { session with dtls := { d with rxq := Function.update d.rxq tail none } }
    else
      pumpSsl lib cb ans
        { session with
          dtls :=
            { d with
              rxq := Function.update d.rxq tail (some packet)
              rxTail := (tail + 1) % dtlsRxQueue
              rxCount := d.rxCount + 1 } }

/-- `dtls_srtp_tick` -/
def dtlsSrtpTick (lib : Libraries) (cb : DtlsSrtpCallbacks) (ans : Answers) (session : RtcSession) :
    RtcSession :=
  if session.dtls.state ≠ .handshaking then session
  else
    let session :=
      if ans.dtlsTimeout = some (0, 0) then sslIo cb session ans.handleTimeout else session
    pumpSsl lib cb ans session

/-- `dtls_srtp_close` -/
def dtlsSrtpClose (cb : DtlsSrtpCallbacks) (ans : Answers) (session : RtcSession) : RtcSession :=
  let session :=
    if session.dtls.state = .connected then sslIo cb session ans.sslShutdown else session
  dtlsSetState cb session .closed

/-! ### Protected packets -/

/-- `dtls_srtp_send_rtp`: the protected packet, `none` for `-1`. -/
def dtlsSrtpSendRtp (lib : Libraries) (cb : DtlsSrtpCallbacks) (session : RtcSession)
    (pkt : List UInt8) : RtcSession × Option (List UInt8) :=
  if !session.dtls.srtpReady then (session, none)
  else
    match session.dtls.srtpOut with
    | none => (session, none)
    | some ctx =>
      let session :=
        { session with dtls := { session.dtls with srtpOut := some ⟨ctx.key, ctx.calls + 1⟩ } }
      match lib.srtpProtect ctx.key ctx.calls pkt with
      | none => (session, none)
      | some data => (cb.sendUdp .srtp (session.emit (.rtpProtected data)) data, some data)

/-- `dtls_srtp_send_rtcp` -/
def dtlsSrtpSendRtcp (lib : Libraries) (cb : DtlsSrtpCallbacks) (session : RtcSession)
    (pkt : List UInt8) : RtcSession × Option (List UInt8) :=
  if !session.dtls.srtpReady then (session, none)
  else
    match session.dtls.srtpOut with
    | none => (session, none)
    | some ctx =>
      let session :=
        { session with dtls := { session.dtls with srtpOut := some ⟨ctx.key, ctx.calls + 1⟩ } }
      match lib.srtpProtectRtcp ctx.key ctx.calls pkt with
      | none => (session, none)
      | some data => (cb.sendUdp .srtcp (session.emit (.rtcpProtected pkt)) data, some data)

/-- `dtls_srtp_unprotect_rtcp` -/
def dtlsSrtpUnprotectRtcp (lib : Libraries) (session : RtcSession) (pkt : List UInt8) :
    RtcSession × Option (List UInt8) :=
  if !session.dtls.srtpReady then (session, none)
  else
    match session.dtls.srtpIn with
    | none => (session, none)
    | some ctx =>
      ({ session with dtls := { session.dtls with srtpIn := some ⟨ctx.key, ctx.calls + 1⟩ } },
        lib.srtpUnprotectRtcp ctx.key ctx.calls pkt)

end Camstream
