import Camstream.Rtcp.Feedback
import Camstream.Session.Dtls

/-!
# The session

`src/webrtc/webrtc_session.c`. The session and its DTLS engine call each other: `rtc_session_close` closes
the engine, which reports its new state, which closes the session. The source cuts the recursion by
marking the session closed first; here the recursion is unrolled by depth (`rtcSessionCloseDepth`), and
`rtcSessionClose_eq` says that the result satisfies the equation of the source, where the callbacks call
`rtc_session_close` itself.

`rtcStep` is one operation of the public interface. Log output and the counters that only serve it are
left out.
-/

namespace Camstream

/-- `SESSION_IDLE_TIMEOUT_MS` -/
def sessionIdleTimeoutMs : ℕ := 15000

/-- `SESSION_DTLS_WATCHDOG_MS` -/
def sessionDtlsWatchdogMs : ℕ := 30000

/-- `IDR_MIN_INTERVAL_MS` -/
def idrMinIntervalMs : ℕ := 400

/-- `RTCP_SR_INTERVAL_MS` -/
def rtcpSrIntervalMs : ℕ := 1000

/-- `RETX_CACHE_SIZE` -/
def retxCacheSize : ℕ := 512

/-! ### Callbacks -/

/-- `set_state` -/
def setState (session : RtcSession) (state : RtcSessionState) : RtcSession :=
  { session with state := state }

/-- `dtls_send_udp` -/
def dtlsSendUdp (kind : UdpKind) (session : RtcSession) (packet : List UInt8) : RtcSession :=
  if session.udpFd < 0 ∨ !session.haveRemote then session
  else session.emit (.sendUdp kind packet session.remote)

/-- `rtc_session_request_idr`. The age of the last request is an unsigned difference. -/
def rtcSessionRequestIdr (ans : Answers) (session : RtcSession) : RtcSession :=
  if !session.config.onIdrRequest then session
  else
    let now := ans.idrMs
    if session.lastIdrMs ≠ 0 ∧ (now + 2 ^ 64 - session.lastIdrMs) % 2 ^ 64 < idrMinIntervalMs then
      session
    else { session with lastIdrMs := now, idrRequested := true }.emit .idrRequest

/-- `dtls_on_connected` -/
def dtlsOnConnected (ans : Answers) (session : RtcSession) : RtcSession :=
  { rtcSessionRequestIdr ans (setState session .streaming) with
    nextSrMs := ans.connectedMs + rtcpSrIntervalMs }

/-- `dtls_on_state`, with the function it calls to close the session. -/
def dtlsOnState (close : RtcSession → RtcSession) (session : RtcSession) (state : DtlsSrtpState) :
    RtcSession :=
  match state with
  | .handshaking => setState session .dtls
  | .failed => close session
  | .closed => close session
  | _ => session

/-- The callbacks `rtc_session_create` registers. -/
def dtlsCallbacks (close : RtcSession → RtcSession) (ans : Answers) : DtlsSrtpCallbacks where
  sendUdp := dtlsSendUdp
  onConnected := dtlsOnConnected ans
  onState := dtlsOnState close

/-! ### Closing -/

/-- The body of `rtc_session_close`, with the function the callbacks close the session with. -/
def rtcSessionCloseWith (close : RtcSession → RtcSession) (ans : Answers) (session : RtcSession) :
    RtcSession :=
  if session.state = .closed then session
  else
    let session := setState session .closed
    let session := dtlsSrtpClose (dtlsCallbacks close ans) ans session
    if session.config.onClosed then session.emit .closedHook else session

/-- `rtc_session_close` with at most `n` activations on the stack. -/
def rtcSessionCloseDepth (ans : Answers) : ℕ → RtcSession → RtcSession
  | 0, session => session
  | n + 1, session => rtcSessionCloseWith (rtcSessionCloseDepth ans n) ans session

/-- `rtc_session_close` -/
def rtcSessionClose (ans : Answers) (session : RtcSession) : RtcSession :=
  rtcSessionCloseDepth ans 2 session

/-- The callbacks of a session. -/
def rtcCallbacks (ans : Answers) : DtlsSrtpCallbacks :=
  dtlsCallbacks (rtcSessionClose ans) ans

/-! ### Feedback -/

/-- The body of the loop of `dtls_on_rtcp` over the sequence numbers of a NACK. -/
def retransmit (session : RtcSession) (seq : ℕ) : RtcSession :=
  let slot := seq % retxCacheSize
  if 0 < session.retxLen slot then
    let session :=
      dtlsSendUdp (.retransmission seq) session ((session.retxData slot).take (session.retxLen slot))
    { session with
      stats := { session.stats with retransmissions := session.stats.retransmissions + 1 } }
  else session

/-- The part of `dtls_on_rtcp` about picture loss. -/
def onPictureLoss (ans : Answers) (session : RtcSession) (feedback : RtcpFeedback) : RtcSession :=
  if 0 < feedback.pli ∨ 0 < feedback.fir then
    rtcSessionRequestIdr ans
      { session with
        stats :=
          { session.stats with
            pliReceived := session.stats.pliReceived + UInt32.ofNat feedback.pli
              + UInt32.ofNat feedback.fir } }
  else session

/-- The part of `dtls_on_rtcp` about lost packets. -/
def onNacks (session : RtcSession) (nackSeq : List ℕ) : RtcSession :=
  nackSeq.foldl retransmit
    { session with
      stats :=
        { session.stats with
          nacksReceived := session.stats.nacksReceived + UInt32.ofNat nackSeq.length } }

/-- `dtls_on_rtcp` -/
def dtlsOnRtcp (ans : Answers) (session : RtcSession) (packet : List UInt8) : RtcSession :=
  let feedback := rtcpParse packet packet.length
  if feedback.bye then rtcSessionClose ans session
  else onNacks (onPictureLoss ans session feedback) feedback.nackSeq

/-! ### Sending -/

/-- `rtp_packet_sink` -/
def rtpPacketSink (lib : Libraries) (ans : Answers) (session : RtcSession) (call : SinkCall) :
    RtcSession :=
  if rtpMaxPacket + 64 < call.packet.length then session
  else
    match dtlsSrtpSendRtp lib (rtcCallbacks ans) session call.packet with
    | (session, none) => session
    | (session, some buffer) =>
      let slot := call.sequence.toNat % retxCacheSize
      { session with
        retxData :=
          Function.update session.retxData slot (Bytes.writeAt (session.retxData slot) 0 buffer)
        retxLen := Function.update session.retxLen slot (buffer.length % 2 ^ 16)
        stats :=
          { session.stats with
            packetsSent := session.stats.packetsSent + 1
            bytesSent := session.stats.bytesSent + UInt64.ofNat call.packet.length } }

/-- `rtc_session_send_access_unit`: the session and the number of packets. -/
def rtcSessionSendAccessUnit (lib : Libraries) (ans : Answers) (session : RtcSession)
    (accessUnit : List UInt8) (ptsUs : UInt64) (isIdr : Bool) : RtcSession × ℤ :=
  let session :=
    if isIdr ∧ session.idrRequested then { session with idrRequested := false } else session
  if session.state ≠ .streaming then (session, 0)
  else
    let (rtp, calls, packets) := rtpH264Packetize session.rtp accessUnit ptsUs
    (calls.foldl (rtpPacketSink lib ans) { session with rtp := rtp }, packets)

/-! ### Datagrams -/

/-- `stun_send_error` -/
def stunSendError (ans : Answers) (session : RtcSession) (tid : List UInt8) (code : ℕ)
    (source : SockAddr) : RtcSession :=
  match stunBuildErrorResponse tid code ans.stack 64 with
  | some (err, errLen) => session.emit (.sendStun (err.take errLen) source)
  | none => session

/-- A rejected check: count it and answer 401. -/
def stunReject (ans : Answers) (session : RtcSession) (tid : List UInt8) (source : SockAddr) :
    RtcSession :=
  stunSendError ans
    { session with stats := { session.stats with stunBadUser := session.stats.stunBadUser + 1 } }
    tid 401 source

/-- The peer follows the latest valid check. The comparison reads both addresses as IPv4. -/
def followPeer (session : RtcSession) (source : SockAddr) : RtcSession :=
  if !session.haveRemote then { session with remote := source, haveRemote := true }
  else if source.sinAddr ≠ session.remote.sinAddr ∨ source.sinPort ≠ session.remote.sinPort then
    { session with
      remote := source
      stats := { session.stats with peerMoved := session.stats.peerMoved + 1 } }
  else session

/-- A valid check: record the peer and answer. -/
def stunAccept (lib : Libraries) (ans : Answers) (session : RtcSession) (buffer : List UInt8)
    (length : ℕ) (source : SockAddr) : RtcSession :=
  let session :=
    { session with stats := { session.stats with stunOk := session.stats.stunOk + 1 } }
  let session := followPeer session source
  let session := if session.state = .new then setState session .ice else session
  match stunBuildBindingResponse lib.hmac session.localPwd buffer length source ans.stack 128 with
  | some (response, responseLen) =>
    session.emit (.sendStun (response.take responseLen) source)
  | none => session

/-- The `RTC_PKT_STUN` case of `rtc_session_on_udp`. -/
def onUdpStun (lib : Libraries) (ans : Answers) (session : RtcSession) (buffer : List UInt8)
    (length : ℕ) (source : SockAddr) : RtcSession :=
  let session :=
    { session with stats := { session.stats with stunRx := session.stats.stunRx + 1 } }
  match stunIsBindingRequest buffer length with
  | none =>
    -- A binding indication is a keepalive and only counted.
    if Bytes.readBe16 buffer 0 = 0x0011 ∧ stunHeaderSize ≤ length then
      { session with stats := { session.stats with stunOk := session.stats.stunOk + 1 } }
    else session
  | some tid =>
    if !stunVerifyMi lib.hmac buffer length session.localPwd then stunReject ans session tid source
    else if !stunUsernameMatches buffer length session.localUfrag then
      stunReject ans session tid source
    else stunAccept lib ans session buffer length source

/-- The `RTC_PKT_DTLS` case. -/
def onUdpDtls (lib : Libraries) (ans : Answers) (session : RtcSession) (packet : List UInt8) :
    RtcSession :=
  if session.haveRemote then dtlsSrtpOnUdp lib (rtcCallbacks ans) ans session packet else session

/-- The `RTC_PKT_RTP` case: RTCP is processed while streaming, RTP is dropped. -/
def onUdpRtp (lib : Libraries) (ans : Answers) (session : RtcSession) (buffer : List UInt8)
    (length : ℕ) : RtcSession :=
  let pt := buffer.getD 1 0 &&& 0x7F
  if 64 ≤ pt ∧ pt ≤ 95 ∧ session.state = .streaming then
    match dtlsSrtpUnprotectRtcp lib session (buffer.take length) with
    | (session, none) => session
    | (session, some packet) => dtlsOnRtcp ans session packet
  else session

/-- `rtc_session_on_udp` -/
def rtcSessionOnUdp (lib : Libraries) (ans : Answers) (session : RtcSession) (buffer : List UInt8)
    (length : ℕ) (source : SockAddr) : RtcSession :=
  if session.state = .closed then session
  else
    let session := { session with lastRxMs := ans.rxMs }
    match rtcClassifyPacket buffer length with
    | .stun => onUdpStun lib ans session buffer length source
    | .dtls => onUdpDtls lib ans session (buffer.take length)
    | .rtp => onUdpRtp lib ans session buffer length
    | .other => session

/-! ### Periodic work -/

/-- The sender report of `rtc_session_tick`. -/
def senderReport (lib : Libraries) (ans : Answers) (session : RtcSession) (now : ℕ) : RtcSession :=
  let sr :=
    rtcpBuildSenderReport session.rtp.ssrc ans.wallUs session.rtp.lastTimestamp session.rtp.packets
      session.rtp.octets
  let session :=
    match dtlsSrtpSendRtcp lib (rtcCallbacks ans) session sr with
    | (session, none) => session
    | (session, some _) =>
      { session with stats := { session.stats with rtcpSent := session.stats.rtcpSent + 1 } }
  { session with nextSrMs := now + rtcpSrIntervalMs }

/-- `rtc_session_tick`. A timestamp in the future counts as an age of zero, which is what truncated
subtraction gives. -/
def rtcSessionTick (lib : Libraries) (ans : Answers) (session : RtcSession) (now : ℕ) : RtcSession :=
  if session.state = .closed then session
  else if sessionIdleTimeoutMs < now - session.lastRxMs then rtcSessionClose ans session
  else if session.state = .ice ∧ sessionDtlsWatchdogMs < now - session.createdMs then
    rtcSessionClose ans session
  else
    let session := dtlsSrtpTick lib (rtcCallbacks ans) ans session
    if session.state = .streaming ∧ session.nextSrMs ≤ now then senderReport lib ans session now
    else session

/-! ### Creation, destruction -/

/-- The answers to what `rtc_session_create` asks. -/
structure CreateAnswers where
  /-- The two allocations, and the creation of the DTLS engine. -/
  allocated : Bool
  engineCreated : Bool
  /-- `RAND_bytes` or its substitutes, for the credentials. -/
  raw : Vector UInt8 32
  /-- `udp_socket_create` -/
  udpFd : ℤ
  /-- `RAND_bytes` for the SSRC. -/
  ssrc : UInt32
  /-- `now_ms()` -/
  createdMs : ℕ
  /-- The length of the SDP answer, `0` when it does not fit. -/
  answerLength : ℕ

/-- The characters credentials are made of. -/
def credentialsAlphabet : List UInt8 :=
  CString.ascii "abcdefghijklmnopqrstuvwxyzABCDEFGHIJKLMNOPQRSTUVWXYZ0123456789"

/-- The second half of `generate_credentials`: user fragment and password. The remainder by 52 leaves
the digits unused. -/
def generateCredentials (raw : Vector UInt8 32) : List UInt8 × List UInt8 :=
  let letter (b : UInt8) : UInt8 := credentialsAlphabet.getD (b.toNat % 52) 0
  ((raw.toList.take 8).map letter, (raw.toList.drop 8).map letter)

/-- `dtls_srtp_session_create` and `dtls_srtp_set_expected_fingerprint`. -/
def dtlsSrtpCreate (fingerprint : List UInt8) : DtlsSrtp where
  state := .init
  rxq := fun _ ↦ none
  rxHead := 0
  rxTail := 0
  rxCount := 0
  srtpOut := none
  srtpIn := none
  srtpReady := false
  expectedFingerprint := fingerprint.take 127
  handshakeStarted := false
  fingerprintOk := false

/-- `rtc_session_create` -/
def rtcSessionCreate (env : CreateAnswers) (config : RtcSessionConfig) : Option RtcSession :=
  if !env.allocated ∨ env.udpFd < 0 ∨ !env.engineCreated ∨ env.answerLength = 0 then none
  else
    let (ufrag, pwd) := generateCredentials env.raw
    let ssrc := if env.ssrc = 0 then 0x1234ABCD else env.ssrc
    some
      { config := config
        state := .new
        udpFd := env.udpFd
        localUfrag := ufrag
        localPwd := pwd
        remote := .inet 0 0
        haveRemote := false
        dtls := dtlsSrtpCreate config.offer.fingerprint
        rtp := rtpH264Reset rtpH264Create ssrc (UInt32.ofInt config.offer.h264PayloadType)
        createdMs := env.createdMs
        lastRxMs := env.createdMs
        lastIdrMs := 0
        nextSrMs := 0
        idrRequested := false
        stats := ⟨0, 0, 0, 0, 0, 0, 0, 0, 0, 0⟩
        retxData := fun _ ↦ []
        retxLen := fun _ ↦ 0
        destroyed := false
        log := [] }

/-- `rtc_session_destroy` -/
def rtcSessionDestroy (ans : Answers) (session : RtcSession) : RtcSession :=
  let session := if session.state ≠ .closed then rtcSessionClose ans session else session
  { session with destroyed := true }

/-! ### The machine -/

/-- A call of the public interface. -/
inductive RtcCall
  | onUdp (buffer : List UInt8) (length : ℕ) (source : SockAddr)
  | tick (now : ℕ)
  | sendAccessUnit (accessUnit : List UInt8) (ptsUs : UInt64) (isIdr : Bool)
  | close
  | destroy

/-- A call, with what its environment answers while it runs. -/
structure RtcEvent where
  answers : Answers
  call : RtcCall

/-- A call on a session that exists. -/
def rtcCall (lib : Libraries) (session : RtcSession) (e : RtcEvent) : RtcSession :=
  match e.call with
  | .onUdp buffer length source => rtcSessionOnUdp lib e.answers session buffer length source
  | .tick now => rtcSessionTick lib e.answers session now
  | .sendAccessUnit accessUnit ptsUs isIdr =>
    (rtcSessionSendAccessUnit lib e.answers session accessUnit ptsUs isIdr).1
  | .close => rtcSessionClose e.answers session
  | .destroy => rtcSessionDestroy e.answers session

/-- One operation; none is possible on a destroyed session. -/
def rtcStep (lib : Libraries) (session : RtcSession) (e : RtcEvent) : Option RtcSession :=
  if session.destroyed then none else some (rtcCall lib session e)

end Camstream
