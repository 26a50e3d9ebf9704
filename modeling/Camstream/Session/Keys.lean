import Camstream.Session.DtlsQueue
import Camstream.Session.Retransmission

/-!
# The keys of a session

Where the keys of the two libsrtp contexts come from, and that they stay. Everything but `derive_srtp_keys`
leaves them alone, and everything but the sending of an access unit sends no media (`secured` and the lemmas
about it); `derive_srtp_keys` runs only as long as the session has none. So a session that streams has both
contexts, keyed with the two halves of one export of keying material, and has them to its end: `keys_of_run`.
-/

namespace Camstream

variable {lib : Libraries} {ans : Answers} {s t : RtcSession} {env : CreateAnswers}
  {config : RtcSessionConfig} {s₀ : RtcSession} {es es' : List RtcEvent}

/-- Key and salt of the server's direction, as the exporter lays them out. -/
def serverWriteKey (material : List UInt8) : List UInt8 :=
  (material.drop 16).take 16 ++ (material.drop 46).take 14

/-- Key and salt of the client's direction. -/
def clientWriteKey (material : List UInt8) : List UInt8 :=
  material.take 16 ++ (material.drop 32).take 14

/-- Whether media can flow, and the keys of the two directions. -/
def RtcSession.keys (s : RtcSession) : Bool × Option (List UInt8) × Option (List UInt8) :=
  (s.dtls.srtpReady, s.dtls.srtpOut.map SrtpContext.key, s.dtls.srtpIn.map SrtpContext.key)

/-- The keys after the handshake. -/
def derivedKeys (material : List UInt8) : Bool × Option (List UInt8) × Option (List UInt8) :=
  (true, some (serverWriteKey material), some (clientWriteKey material))

/-- Either the keys are as before; or there were none, and now there are those of an export, or the
session cannot send. -/
def Rekeys (ans : Answers) (s t : RtcSession) : Prop :=
  t.keys = s.keys ∨ s.dtls.srtpReady = false ∧
    (t.dtls.srtpReady = false ∨ ∃ material, ans.keyingMaterial = some material ∧
      t.keys = derivedKeys material)

/-- Only the keys of the two sessions matter. -/
theorem Rekeys.congr {s' t' : RtcSession} (h : Rekeys ans s t) (hs : s'.keys = s.keys)
    (ht : t'.keys = t.keys) : Rekeys ans s' t' := by
  rcases h with h | ⟨hready, h⟩
  · exact Or.inl (ht.trans (h.trans hs.symm))
  · refine Or.inr ⟨(congrArg Prod.fst hs).trans hready, ?_⟩
    rcases h with h | ⟨material, hmaterial, h⟩
    · exact Or.inl ((congrArg Prod.fst ht).trans h)
    · exact Or.inr ⟨material, hmaterial, ht.trans h⟩

/-- The media packet that an effect sends. -/
def Effect.media? : Effect → Option (List UInt8)
  | .sendUdp .srtp data _ => some data
  | _ => none

/-- The media packets that a session has sent, the last one first. Those that it sends again are not among
them. -/
def RtcSession.media (s : RtcSession) : List (List UInt8) :=
  s.log.filterMap Effect.media?

/-- The RTCP packet that an effect protects. -/
def Effect.rtcp? : Effect → Option (List UInt8)
  | .rtcpProtected packet => some packet
  | _ => none

/-- The RTCP packets that a session has protected, the last one first. -/
def RtcSession.rtcp (s : RtcSession) : List (List UInt8) :=
  s.log.filterMap Effect.rtcp?

/-- What was sent with the keys. -/
def RtcSession.sent (s : RtcSession) : List (List UInt8) × List (List UInt8) :=
  (s.media, s.rtcp)

/-- The keys, and what was sent with them. -/
def RtcSession.secured (s : RtcSession) :
    (Bool × Option (List UInt8) × Option (List UInt8)) × List (List UInt8) × List (List UInt8) :=
  (s.keys, s.sent)

/-- The keys, and the RTCP packets. -/
def RtcSession.reportKeys (s : RtcSession) :
    (Bool × Option (List UInt8) × Option (List UInt8)) × List (List UInt8) :=
  (s.keys, s.rtcp)

/-- No media is sent, and keys are derived at most. -/
structure Attends (ans : Answers) (s t : RtcSession) : Prop where
  rekeys : Rekeys ans s t
  media : t.media = s.media

/-- And no RTCP packet is protected. -/
structure Listens (ans : Answers) (s t : RtcSession) : Prop extends Attends ans s t where
  rtcp : t.rtcp = s.rtcp

/-- A call that sends neither media nor reports listens, if its keys are accounted for. -/
theorem Listens.of_sent (hrekeys : Rekeys ans s t) (hsent : t.sent = s.sent) : Listens ans s t :=
  ⟨⟨hrekeys, congrArg Prod.fst hsent⟩, congrArg Prod.snd hsent⟩

theorem Listens.sent (h : Listens ans s t) : t.sent = s.sent :=
  Prod.ext h.media h.rtcp

/-- So does one that leaves keys and media as they are. -/
theorem Listens.of_secured (h : t.secured = s.secured) : Listens ans s t :=
  of_sent (Or.inl (congrArg Prod.fst h)) (congrArg Prod.snd h)

theorem Listens.congr {s' t' : RtcSession} (h : Listens ans s t) (hs : s'.secured = s.secured)
    (ht : t'.secured = t.secured) : Listens ans s' t' :=
  of_sent (h.rekeys.congr (congrArg Prod.fst hs) (congrArg Prod.fst ht))
    ((congrArg Prod.snd ht).trans (h.sent.trans (congrArg Prod.snd hs).symm))

/-! ### What leaves the keys alone -/

theorem reportKeys_dtlsSendUdp (kind : UdpKind) (s : RtcSession) (packet : List UInt8) :
    (dtlsSendUdp kind s packet).reportKeys = s.reportKeys := by
  rw [dtlsSendUdp]
  split_ifs <;> rfl

/-- Datagrams other than SRTP are not media. -/
theorem secured_dtlsSendUdp {kind : UdpKind} (hkind : kind ≠ .srtp) (s : RtcSession) (packet : List UInt8) :
    (dtlsSendUdp kind s packet).secured = s.secured := by
  rw [dtlsSendUdp]
  split_ifs
  · rfl
  · cases kind with
    | srtp => exact absurd rfl hkind
    | dtls | srtcp | retransmission => rfl

/-- Nor is anything that OpenSSL writes. -/
theorem secured_sslIo (close : RtcSession → RtcSession) (ops : List BioOp) (s : RtcSession) :
    (sslIo (dtlsCallbacks close ans) s ops).secured = s.secured := by
  induction ops generalizing s with
  | nil => rfl
  | cons op ops ih =>
    refine (ih _).trans ?_
    cases op with
    | read size =>
      show RtcSession.secured { s with dtls := (bioRxRead s.dtls size).1 } = s.secured
      rw [bioRxRead]
      split_ifs <;> rfl
    | write buf =>
      show (bioTxWrite (dtlsCallbacks close ans) s buf).secured = s.secured
      rw [bioTxWrite]
      split_ifs
      · rfl
      · exact secured_dtlsSendUdp UdpKind.noConfusion s buf

theorem secured_rtcSessionRequestIdr (s : RtcSession) : (rtcSessionRequestIdr ans s).secured = s.secured := by
  rw [rtcSessionRequestIdr]
  dsimp only
  split_ifs <;> rfl

/-- By way of the hooks a state may close the session, which touches neither keys nor media. -/
theorem secured_dtlsSetStateWith {close : RtcSession → RtcSession} (hclose : ∀ u, (close u).secured = u.secured)
    (s : RtcSession) (state : DtlsSrtpState) :
    (dtlsSetState (dtlsCallbacks close ans) s state).secured = s.secured := by
  rw [dtlsSetState]
  split_ifs
  · rfl
  · cases state with
    | failed | closed => exact hclose _
    | init | handshaking | connected => rfl

/-- Closing goes through OpenSSL and the callbacks, and none of them sees the keys. -/
theorem secured_rtcSessionCloseDepth (n : ℕ) (s : RtcSession) :
    (rtcSessionCloseDepth ans n s).secured = s.secured := by
  induction n generalizing s with
  | zero => rfl
  | succ n ih =>
    show (rtcSessionCloseWith (rtcSessionCloseDepth ans n) ans s).secured = s.secured
    have hclose : (dtlsSrtpClose (dtlsCallbacks (rtcSessionCloseDepth ans n) ans) ans
        (setState s .closed)).secured = s.secured := by
      rw [dtlsSrtpClose]
      refine (secured_dtlsSetStateWith ih _ _).trans ?_
      split_ifs
      · exact secured_sslIo _ _ _
      · rfl
    rw [rtcSessionCloseWith]
    split_ifs
    · rfl
    · dsimp only
      split_ifs <;> exact hclose

theorem secured_rtcSessionClose (s : RtcSession) : (rtcSessionClose ans s).secured = s.secured :=
  secured_rtcSessionCloseDepth 2 s

theorem secured_dtlsSetState (s : RtcSession) (state : DtlsSrtpState) :
    (dtlsSetState (rtcCallbacks ans) s state).secured = s.secured :=
  secured_dtlsSetStateWith secured_rtcSessionClose s state

/-- The handshake itself derives no keys. -/
theorem secured_pumpSslCall (s : RtcSession) :
    (pumpSslCall (rtcCallbacks ans) ans s).1.secured = s.secured := by
  have hio (u : RtcSession) : (sslIo (rtcCallbacks ans) u ans.ssl.io).secured = u.secured :=
    secured_sslIo _ _ u
  have hstarted : (sslIo (rtcCallbacks ans) (dtlsSetState (rtcCallbacks ans)
      { s with dtls := { s.dtls with handshakeStarted := true } } .handshaking)
        ans.ssl.io).secured = s.secured :=
    (hio _).trans (secured_dtlsSetState _ _)
  rw [pumpSslCall]
  dsimp only
  split_ifs
  · exact hstarted
  · exact (secured_dtlsSetState _ .failed).trans hstarted
  · exact hstarted
  · exact (secured_dtlsSetState _ .failed).trans (hio s)
  · exact hio s
  · exact (secured_dtlsSetState _ .closed).trans (hio s)
  · exact hio s

/-- A context that is used keeps its key. -/
theorem secured_useOut {ctx : SrtpContext} (hctx : s.dtls.srtpOut = some ctx) :
    RtcSession.secured { s with dtls := { s.dtls with srtpOut := some ⟨ctx.key, ctx.calls + 1⟩ } } =
      s.secured := by
  rw [RtcSession.secured, RtcSession.secured, RtcSession.keys, RtcSession.keys, hctx]
  rfl

/-- To unprotect a packet is to use the incoming context once more. -/
theorem secured_useIn {ctx : SrtpContext} (hctx : s.dtls.srtpIn = some ctx) :
    RtcSession.secured { s with dtls := { s.dtls with srtpIn := some ⟨ctx.key, ctx.calls + 1⟩ } } =
      s.secured := by
  rw [RtcSession.secured, RtcSession.secured, RtcSession.keys, RtcSession.keys, hctx]
  rfl

theorem reportKeys_dtlsSrtpSendRtp (s : RtcSession) (pkt : List UInt8) :
    (dtlsSrtpSendRtp lib (rtcCallbacks ans) s pkt).1.reportKeys = s.reportKeys := by
  rw [dtlsSrtpSendRtp]
  split_ifs
  · rfl
  rcases hctx : s.dtls.srtpOut with - | ctx
  · rfl
  have hused := congrArg (fun x ↦ (x.1, x.2.2)) (secured_useOut hctx)
  dsimp only
  rcases lib.srtpProtect ctx.key ctx.calls pkt with - | data
  · exact hused
  · exact (reportKeys_dtlsSendUdp .srtp _ data).trans hused

/-- An RTCP packet is the only one that is protected, if it is. -/
theorem secured_dtlsSrtpSendRtcp (s : RtcSession) (pkt : List UInt8) :
    (dtlsSrtpSendRtcp lib (rtcCallbacks ans) s pkt).1.secured = s.secured ∨
      (dtlsSrtpSendRtcp lib (rtcCallbacks ans) s pkt).1.secured = (s.keys, s.media, pkt :: s.rtcp) := by
  rw [dtlsSrtpSendRtcp]
  split_ifs
  · exact Or.inl rfl
  rcases hctx : s.dtls.srtpOut with - | ctx
  · exact Or.inl rfl
  have hused := secured_useOut hctx
  dsimp only
  rcases lib.srtpProtectRtcp ctx.key ctx.calls pkt with - | data
  · exact Or.inl hused
  · exact Or.inr ((secured_dtlsSendUdp UdpKind.noConfusion _ data).trans
      (congrArg (fun x ↦ (x.1, x.2.1, pkt :: x.2.2)) hused))

theorem secured_dtlsSrtpUnprotectRtcp (s : RtcSession) (pkt : List UInt8) :
    (dtlsSrtpUnprotectRtcp lib s pkt).1.secured = s.secured := by
  rw [dtlsSrtpUnprotectRtcp]
  split_ifs
  · rfl
  rcases hctx : s.dtls.srtpIn with - | ctx
  · rfl
  · exact secured_useIn hctx

/-- What the peer reports or asks for sends no new media. -/
theorem secured_dtlsOnRtcp (s : RtcSession) (packet : List UInt8) :
    (dtlsOnRtcp ans s packet).secured = s.secured := by
  have hresend (seqs : List ℕ) (u : RtcSession) : (seqs.foldl retransmit u).secured = u.secured := by
    induction seqs generalizing u with
    | nil => rfl
    | cons seq seqs ih =>
      refine (ih _).trans ?_
      rw [retransmit]
      dsimp only
      split_ifs
      · exact secured_dtlsSendUdp UdpKind.noConfusion u _
      · rfl
  rw [dtlsOnRtcp]
  split_ifs
  · exact secured_rtcSessionClose s
  · refine (hresend _ _).trans ?_
    show (onPictureLoss ans s _).secured = s.secured
    rw [onPictureLoss]
    split_ifs
    · exact secured_rtcSessionRequestIdr _
    · rfl

/-- Media does not touch the keys, nor what is reported. -/
theorem reportKeys_foldl_rtpPacketSink (calls : List SinkCall) (s : RtcSession) :
    (calls.foldl (rtpPacketSink lib ans) s).reportKeys = s.reportKeys := by
  induction calls generalizing s with
  | nil => rfl
  | cons call calls ih =>
    refine (ih _).trans ?_
    have hsend := @reportKeys_dtlsSrtpSendRtp lib ans s call.packet
    rw [rtpPacketSink]
    split_ifs
    · rfl
    · rcases hr : dtlsSrtpSendRtp lib (rtcCallbacks ans) s call.packet with ⟨t, - | data⟩ <;>
        rw [hr] at hsend <;> exact hsend

/-- Sending an access unit keeps the keys and protects no RTCP packet. -/
theorem reportKeys_rtcSessionSendAccessUnit (s : RtcSession) (accessUnit : List UInt8) (ptsUs : UInt64)
    (isIdr : Bool) :
    (rtcSessionSendAccessUnit lib ans s accessUnit ptsUs isIdr).1.reportKeys = s.reportKeys := by
  rw [rtcSessionSendAccessUnit]
  set t : RtcSession := if isIdr ∧ s.idrRequested then { s with idrRequested := false } else s with ht
  have hkeys : t.reportKeys = s.reportKeys := by
    rw [ht]
    split_ifs <;> rfl
  dsimp only
  split_ifs
  · exact hkeys
  · exact (reportKeys_foldl_rtpPacketSink _ _).trans hkeys

/-- **A sender report** is built from the clock and the packetizer. -/
theorem secured_senderReport (s : RtcSession) (now : ℕ) :
    (senderReport lib ans s now).secured = s.secured ∨
      (senderReport lib ans s now).secured =
        (s.keys, s.media, rtcpBuildSenderReport s.rtp.ssrc ans.wallUs s.rtp.lastTimestamp s.rtp.packets
          s.rtp.octets :: s.rtcp) := by
  have hsend := @secured_dtlsSrtpSendRtcp lib ans s
    (rtcpBuildSenderReport s.rtp.ssrc ans.wallUs s.rtp.lastTimestamp s.rtp.packets s.rtp.octets)
  rw [senderReport]
  dsimp only
  rcases hr : dtlsSrtpSendRtcp lib (rtcCallbacks ans) s
    (rtcpBuildSenderReport s.rtp.ssrc ans.wallUs s.rtp.lastTimestamp s.rtp.packets s.rtp.octets)
    with ⟨t, - | data⟩ <;> rw [hr] at hsend <;> exact hsend

/-- A report leaves the keys and the media alone. -/
theorem Listens.senderReport (h : Listens ans s t) (now : ℕ) :
    Attends ans s (senderReport lib ans t now) := by
  rcases @secured_senderReport lib ans t now with hsame | hreport
  · exact (h.congr rfl hsame).toAttends
  · exact ⟨h.rekeys.congr rfl (congrArg Prod.fst hreport),
      (congrArg (fun x ↦ x.2.1) hreport).trans h.media⟩

/-- STUN has nothing to do with the keys. -/
theorem secured_onUdpStun (s : RtcSession) (buffer : List UInt8) (length : ℕ) (source : SockAddr) :
    (onUdpStun lib ans s buffer length source).secured = s.secured := by
  have hfollow (u : RtcSession) : (followPeer u source).secured = u.secured := by
    rw [followPeer]
    split_ifs <;> rfl
  rw [onUdpStun]
  dsimp only
  split
  · split_ifs <;> rfl
  · split_ifs
    · rw [stunReject, stunSendError]
      split <;> rfl
    · rw [stunReject, stunSendError]
      split <;> rfl
    · rw [stunAccept]
      dsimp only
      split <;> split_ifs <;> exact hfollow _

/-! ### What derives them -/

/-- **`derive_srtp_keys`** takes the two directions from the export. -/
theorem deriveSrtpKeys_spec (lib : Libraries) (ans : Answers) (s : RtcSession) :
    ((deriveSrtpKeys lib ans s).2 = true → ∃ material, ans.keyingMaterial = some material ∧
      (deriveSrtpKeys lib ans s).1.keys = derivedKeys material) ∧
    ((deriveSrtpKeys lib ans s).2 = false →
      (deriveSrtpKeys lib ans s).1.dtls.srtpReady = s.dtls.srtpReady) := by
  have hcheck (u : RtcSession) : (fingerprintCheck lib ans u).1.dtls = u.dtls := by
    rw [fingerprintCheck]
    split_ifs
    · rfl
    · split
      · rfl
      · split <;> rfl
  rw [deriveSrtpKeys]
  split
  · exact ⟨fun h ↦ absurd h Bool.false_ne_true, fun _ ↦ rfl⟩
  rename_i material hmaterial
  dsimp only
  split_ifs
  · exact ⟨False.elim, fun _ ↦ rfl⟩
  · exact ⟨False.elim, fun _ ↦ rfl⟩
  split <;> rename_i heq
  all_goals
    have hdtls := congrArg (fun x ↦ x.1.dtls) heq
    dsimp only at hdtls
    rw [hcheck] at hdtls
  · exact ⟨fun h ↦ absurd h Bool.false_ne_true, fun _ ↦ by rw [← hdtls]⟩
  · refine ⟨fun _ ↦ ⟨material, hmaterial, ?_⟩, fun h ↦ absurd h.symm Bool.false_ne_true⟩
    rw [RtcSession.keys, ← hdtls]
    rfl

/-- Nothing is sent while the keys are derived. -/
theorem sent_deriveSrtpKeys (lib : Libraries) (ans : Answers) (s : RtcSession) :
    (deriveSrtpKeys lib ans s).1.sent = s.sent := by
  have hcheck (u : RtcSession) : (fingerprintCheck lib ans u).1.sent = u.sent := by
    rw [fingerprintCheck]
    split_ifs
    · rfl
    · split
      · rfl
      · split <;> rfl
  rw [deriveSrtpKeys]
  split
  · rfl
  dsimp only
  split_ifs
  · rfl
  · rfl
  split <;> rename_i heq
  all_goals
    have hsent := congrArg (fun x ↦ x.1.sent) heq
    dsimp only at hsent
    rw [hcheck] at hsent
    exact hsent.symm

/-- The one step that may derive keys: it does so only if there are none. -/
theorem listens_pumpSsl (s : RtcSession) : Listens ans s (pumpSsl lib (rtcCallbacks ans) ans s) := by
  rw [pumpSsl]
  split_ifs
  · exact Listens.of_secured rfl
  have hcall := @secured_pumpSslCall ans s
  rcases hr : pumpSslCall (rtcCallbacks ans) ans s with ⟨t, - | -⟩ <;> rw [hr] at hcall
  · exact Listens.of_secured hcall
  refine Listens.congr (s := t) (t := pumpSslKeys lib (rtcCallbacks ans) ans t) ?_ hcall.symm rfl
  rw [pumpSslKeys]
  split_ifs with hrun
  swap
  · exact Listens.of_secured rfl
  have hnone : t.dtls.srtpReady = false := by simpa using hrun.1
  obtain ⟨htrue, hfalse⟩ := deriveSrtpKeys_spec lib ans t
  have hsent := sent_deriveSrtpKeys lib ans t
  rcases hd : deriveSrtpKeys lib ans t with ⟨u, - | -⟩ <;> rw [hd] at htrue hfalse hsent
  · have hfailed := @secured_dtlsSetState ans u .failed
    refine Listens.of_sent (Or.inr ⟨hnone, Or.inl ?_⟩) ((congrArg Prod.snd hfailed).trans hsent)
    exact (congrArg (fun k ↦ k.1.1) hfailed).trans ((hfalse rfl).trans hnone)
  · obtain ⟨material, hmaterial, hkeys⟩ := htrue rfl
    have hconnected : (dtlsOnConnected ans (dtlsSetState (rtcCallbacks ans) u .connected)).secured =
        u.secured := (secured_rtcSessionRequestIdr _).trans (secured_dtlsSetState u .connected)
    exact Listens.of_sent
      (Or.inr ⟨hnone, Or.inr ⟨material, hmaterial, (congrArg Prod.fst hconnected).trans hkeys⟩⟩)
      ((congrArg Prod.snd hconnected).trans hsent)

theorem listens_dtlsSrtpOnUdp (s : RtcSession) (packet : List UInt8) :
    Listens ans s (dtlsSrtpOnUdp lib (rtcCallbacks ans) ans s packet) := by
  have hroom (rxq : ℕ → Option (List UInt8)) (tail count : ℕ) : RtcSession.secured { s with
      dtls := { rxqMakeRoom s.dtls with rxq := rxq, rxTail := tail, rxCount := count } } = s.secured := by
    rw [rxqMakeRoom]
    split_ifs <;> rfl
  rw [dtlsSrtpOnUdp]
  split_ifs
  · exact Listens.of_secured rfl
  · exact Listens.of_secured (hroom _ _ _)
  · exact Listens.congr (listens_pumpSsl _) (hroom _ _ _).symm rfl

/-- A retransmission of the handshake may finish it. -/
theorem listens_dtlsSrtpTick (s : RtcSession) :
    Listens ans s (dtlsSrtpTick lib (rtcCallbacks ans) ans s) := by
  rw [dtlsSrtpTick]
  split_ifs
  · exact Listens.of_secured rfl
  · exact Listens.congr (listens_pumpSsl _) (secured_sslIo _ _ s).symm rfl
  · exact listens_pumpSsl s

/-- A tick protects nothing but a report, and that is its last step. -/
theorem rtcSessionTick_cases (lib : Libraries) (ans : Answers) (s : RtcSession) (now : ℕ) :
    Listens ans s (rtcSessionTick lib ans s now) ∨
      Listens ans s (dtlsSrtpTick lib (rtcCallbacks ans) ans s) ∧ rtcSessionTick lib ans s now =
        senderReport lib ans (dtlsSrtpTick lib (rtcCallbacks ans) ans s) now := by
  have htick := @listens_dtlsSrtpTick lib ans s
  rw [rtcSessionTick]
  split_ifs
  · exact Or.inl (Listens.of_secured rfl)
  · exact Or.inl (Listens.of_secured (secured_rtcSessionClose s))
  · exact Or.inl (Listens.of_secured (secured_rtcSessionClose s))
  · dsimp only
    split_ifs
    · exact Or.inr ⟨htick, rfl⟩
    · exact Or.inl htick

/-- **Every operation but the sending of an access unit and the tick** protects nothing, and keeps the keys
or derives them. -/
theorem listens_rtcCall (lib : Libraries) (s : RtcSession) {e : RtcEvent}
    (he : ∀ accessUnit ptsUs isIdr, e.call ≠ .sendAccessUnit accessUnit ptsUs isIdr)
    (htick : ∀ now, e.call ≠ .tick now) : Listens e.answers s (rtcCall lib s e) := by
  obtain ⟨ans, call⟩ := e
  cases call with
  | onUdp buffer length source =>
    show Listens ans s (rtcSessionOnUdp lib ans s buffer length source)
    rw [rtcSessionOnUdp]
    -- A closed session takes nothing; an open one by the class of the datagram.
    split_ifs
    · exact Listens.of_secured rfl
    dsimp only
    split
    · exact Listens.of_secured (secured_onUdpStun _ buffer length source)
    · rw [onUdpDtls]
      split_ifs
      · exact (listens_dtlsSrtpOnUdp { s with lastRxMs := ans.rxMs } (buffer.take length)).congr rfl rfl
      · exact Listens.of_secured rfl
    · refine Listens.of_secured ?_
      rw [onUdpRtp]
      dsimp only
      split_ifs
      swap
      · rfl
      have hkeys := @secured_dtlsSrtpUnprotectRtcp lib { s with lastRxMs := ans.rxMs }
        (buffer.take length)
      split <;> rename_i heq <;> rw [heq] at hkeys
      · exact hkeys
      · exact (secured_dtlsOnRtcp _ _).trans hkeys
    · exact Listens.of_secured rfl
  | tick now => exact absurd rfl (htick now)
  | sendAccessUnit accessUnit ptsUs isIdr => exact absurd rfl (he accessUnit ptsUs isIdr)
  | close => exact Listens.of_secured (secured_rtcSessionClose s)
  | destroy =>
    refine Listens.of_secured ?_
    show (rtcSessionDestroy ans s).secured = s.secured
    rw [rtcSessionDestroy]
    split_ifs
    · exact secured_rtcSessionClose s
    · rfl

/-- **Every operation but the sending of an access unit** sends no media, and keeps the keys or derives
them. -/
theorem attends_rtcCall (lib : Libraries) (s : RtcSession) {e : RtcEvent}
    (he : ∀ accessUnit ptsUs isIdr, e.call ≠ .sendAccessUnit accessUnit ptsUs isIdr) :
    Attends e.answers s (rtcCall lib s e) := by
  obtain ⟨ans, call⟩ := e
  cases call with
  | tick now =>
    show Attends ans s (rtcSessionTick lib ans s now)
    rcases rtcSessionTick_cases lib ans s now with hlistens | ⟨hlistens, hreport⟩
    · exact hlistens.toAttends
    · rw [hreport]
      exact hlistens.senderReport now
  | sendAccessUnit accessUnit ptsUs isIdr => exact absurd rfl (he accessUnit ptsUs isIdr)
  | onUdp | close | destroy =>
    exact (listens_rtcCall lib s (fun _ _ _ ↦ RtcCall.noConfusion) fun _ ↦ RtcCall.noConfusion).toAttends

/-- **An operation keeps the keys, or derives them.** -/
theorem rekeys_rtcCall (lib : Libraries) (s : RtcSession) (e : RtcEvent) :
    Rekeys e.answers s (rtcCall lib s e) := by
  obtain ⟨ans, call⟩ := e
  cases call with
  | sendAccessUnit accessUnit ptsUs isIdr =>
    exact Or.inl (congrArg Prod.fst (reportKeys_rtcSessionSendAccessUnit s accessUnit ptsUs isIdr))
  | onUdp | tick | close | destroy => exact (attends_rtcCall lib s fun _ _ _ ↦ RtcCall.noConfusion).rekeys

/-! ### Runs -/

/-- The keys of a session are those of an export that one of these events brought. -/
def KeysFrom (es : List RtcEvent) (s : RtcSession) : Prop :=
  s.dtls.srtpReady = true → ∃ e ∈ es, ∃ material, e.answers.keyingMaterial = some material ∧
    s.keys = derivedKeys material

/-- By induction on the run: the keys are those of one export, made by one of its calls. -/
theorem keysFrom_of_run (hcreate : rtcSessionCreate env config = some s₀)
    (hrun : Run.exec (rtcStep lib) s₀ es = some s) : KeysFrom es s := by
  induction es using List.reverseRecOn generalizing s with
  | nil =>
    obtain rfl := Option.some.inj hrun
    obtain ⟨-, -, -, -, -, hdtls, -⟩ := rtcSessionCreate_spec hcreate
    intro hready
    rw [hdtls] at hready
    exact absurd hready Bool.false_ne_true
  | append_singleton es e ih =>
    obtain ⟨t, ht, hstep⟩ := Run.exists_of_exec_snoc hrun
    obtain ⟨-, rfl⟩ := rtcStep_eq_some.1 hstep
    intro hready
    rcases rekeys_rtcCall lib t e with hsame | ⟨-, hnone | ⟨material, hmaterial, hkeys⟩⟩
    · obtain ⟨e', he', material, hmaterial, hkeys⟩ := ih ht ((congrArg Prod.fst hsame).symm.trans hready)
      exact ⟨e', List.mem_append_left _ he', material, hmaterial, hsame.trans hkeys⟩
    · exact absurd (hnone.symm.trans hready) Bool.false_ne_true
    · exact ⟨e, List.mem_append_right _ (List.mem_singleton_self e), material, hmaterial, hkeys⟩

/-- **The keys of a session.** In every run of a created session: a session that streams has both libsrtp
contexts, the outgoing one keyed with the server's half and the incoming one with the client's half of
keying material that was exported while it ran; and from then on the keys never change, whatever happens to
the session. -/
theorem keys_of_run (hcreate : rtcSessionCreate env config = some s₀)
    (hrun : Run.exec (rtcStep lib) s₀ es = some s) (hstreaming : s.state = .streaming)
    (hrun' : Run.exec (rtcStep lib) s es' = some t) :
    (∃ e ∈ es, ∃ material, e.answers.keyingMaterial = some material ∧ s.keys = derivedKeys material) ∧
      t.keys = s.keys := by
  have hready : s.dtls.srtpReady = true := by
    have hphase := (lifecycle_of_run hcreate hrun).inPhase
    simp only [SessionView.InPhase, RtcSession.view, hstreaming] at hphase
    exact hphase.2.2.1
  refine ⟨keysFrom_of_run hcreate hrun hready, ?_⟩
  refine Run.exec_invariant (P := fun u ↦ u.keys = s.keys) (fun u e u' hu hstep ↦ ?_) rfl hrun'
  obtain ⟨-, rfl⟩ := rtcStep_eq_some.1 hstep
  rcases rekeys_rtcCall lib u e with hsame | ⟨hnone, -⟩
  · exact hsame.trans hu
  · exact absurd (hnone.symm.trans ((congrArg Prod.fst hu).trans hready)) Bool.false_ne_true

/-- The sample run, and the session is closed afterwards. -/
theorem keys_of_run_sample : ∃ s₀ s t,
    rtcSessionCreate sampleCreate (sampleConfig sampleFingerprint) = some s₀ ∧
    Run.exec (rtcStep sampleLibraries) s [⟨sampleAnswers 5, .close⟩] = some t ∧
    (∃ e ∈ sampleRun.take 3, ∃ material, e.answers.keyingMaterial = some material ∧
      s.keys = derivedKeys material) ∧ t.keys = s.keys := by
  have hrun : ((rtcSessionCreate sampleCreate (sampleConfig sampleFingerprint)).bind fun s₀ ↦
      (Run.exec (rtcStep sampleLibraries) s₀ (sampleRun.take 3)).bind fun s ↦
        (Run.exec (rtcStep sampleLibraries) s [⟨sampleAnswers 5, .close⟩]).map fun _ ↦ s.state) =
      some .streaming := by decide +kernel
  obtain ⟨s₀, hcreate, hrun⟩ := Option.bind_eq_some_iff.1 hrun
  obtain ⟨s, hs, hrun⟩ := Option.bind_eq_some_iff.1 hrun
  obtain ⟨t, ht, hstreaming⟩ := Option.map_eq_some_iff.1 hrun
  exact ⟨s₀, s, t, hcreate, ht, keys_of_run hcreate hs hstreaming ht⟩

end Camstream
