import Camstream.Rtp.Bookkeeping
import Camstream.Session.Lifecycle

/-!
# The payload type of a session

The packetizer of a session gets its payload type when the session is created, and only
`rtc_session_send_access_unit` touches the packetizer afterwards, which keeps the payload type. So every
RTP packet of every run carries the low seven bits of the number in the offer: `payloadType_of_run`.
-/

namespace Camstream

variable {lib : Libraries} {env : CreateAnswers} {config : RtcSessionConfig} {s₀ s : RtcSession}
  {es : List RtcEvent}

/-! ### The engine and the callbacks leave the packetizer alone -/

section Engine

variable (lib : Libraries) (ans : Answers) (s : RtcSession)

/-- Sending a datagram does not touch the packetizer. Nor does anything below, up to the hand-over of an
access unit. -/
@[simp]
theorem rtp_dtlsSendUdp (kind : UdpKind) (packet : List UInt8) :
    (dtlsSendUdp kind s packet).rtp = s.rtp := by
  rw [dtlsSendUdp]
  split_ifs <;> rfl

@[simp]
theorem rtp_rtcSessionRequestIdr : (rtcSessionRequestIdr ans s).rtp = s.rtp := by
  rw [rtcSessionRequestIdr]
  split_ifs
  · rfl
  · dsimp only
    split_ifs <;> rfl

@[simp]
theorem rtp_sslIo (close : RtcSession → RtcSession) (ops : List BioOp) :
    (sslIo (dtlsCallbacks close ans) s ops).rtp = s.rtp := by
  induction ops generalizing s with
  | nil => rfl
  | cons op ops ih =>
    refine (ih (bioOp (dtlsCallbacks close ans) s op)).trans ?_
    cases op with
    | read size => rfl
    | write buf =>
      show (bioTxWrite (dtlsCallbacks close ans) s buf).rtp = s.rtp
      rw [bioTxWrite]
      split_ifs
      · rfl
      · exact rtp_dtlsSendUdp s .dtls buf

theorem rtp_dtlsSetState_of_close {close : RtcSession → RtcSession}
    (hclose : ∀ t, (close t).rtp = t.rtp) (state : DtlsSrtpState) :
    (dtlsSetState (dtlsCallbacks close ans) s state).rtp = s.rtp := by
  rw [dtlsSetState]
  split_ifs
  · rfl
  · cases state with
    | failed | closed => exact hclose _
    | init | handshaking | connected => rfl

/-- Closing, at any depth of the recursion. -/
theorem rtp_rtcSessionCloseDepth (n : ℕ) : (rtcSessionCloseDepth ans n s).rtp = s.rtp := by
  induction n generalizing s with
  | zero => rfl
  | succ n ih =>
    show (rtcSessionCloseWith (rtcSessionCloseDepth ans n) ans s).rtp = s.rtp
    have hclose : (dtlsSrtpClose (dtlsCallbacks (rtcSessionCloseDepth ans n) ans) ans
        (setState s .closed)).rtp = s.rtp := by
      rw [dtlsSrtpClose]
      refine (rtp_dtlsSetState_of_close ans _ ih _).trans ?_
      split_ifs
      · exact rtp_sslIo ans _ _ _
      · rfl
    rw [rtcSessionCloseWith]
    split_ifs
    · rfl
    · dsimp only
      split_ifs <;> exact hclose

/-- A closed session keeps its packetizer. -/
@[simp]
theorem rtp_rtcSessionClose : (rtcSessionClose ans s).rtp = s.rtp :=
  rtp_rtcSessionCloseDepth ans s 2

theorem rtp_rtcSessionDestroy : (rtcSessionDestroy ans s).rtp = s.rtp := by
  show (if s.state ≠ .closed then rtcSessionClose ans s else s).rtp = s.rtp
  split_ifs
  · exact rtp_rtcSessionClose ans s
  · rfl

@[simp]
theorem rtp_dtlsSetState (state : DtlsSrtpState) :
    (dtlsSetState (rtcCallbacks ans) s state).rtp = s.rtp :=
  rtp_dtlsSetState_of_close ans s (rtp_rtcSessionClose ans) state

theorem rtp_pumpSslCall : (pumpSslCall (rtcCallbacks ans) ans s).1.rtp = s.rtp := by
  have hio (t : RtcSession) (ops : List BioOp) : (sslIo (rtcCallbacks ans) t ops).rtp = t.rtp :=
    rtp_sslIo ans t _ ops
  rw [pumpSslCall]
  dsimp only
  split_ifs <;> simp [hio]

theorem rtp_deriveSrtpKeys : (deriveSrtpKeys lib ans s).1.rtp = s.rtp := by
  have hcheck (t : RtcSession) : (fingerprintCheck lib ans t).1.rtp = t.rtp := by
    rw [fingerprintCheck]
    split_ifs
    · rfl
    · split
      · rfl
      · split <;> rfl
  rw [deriveSrtpKeys]
  split
  · rfl
  dsimp only
  split_ifs
  · rfl
  · rfl
  split <;> rename_i heq
  all_goals
    have h := congrArg (fun x ↦ x.1.rtp) heq
    rw [hcheck] at h
    exact h.symm

@[simp]
theorem rtp_pumpSsl : (pumpSsl lib (rtcCallbacks ans) ans s).rtp = s.rtp := by
  have hkeys (t : RtcSession) : (pumpSslKeys lib (rtcCallbacks ans) ans t).rtp = t.rtp := by
    have hderive := rtp_deriveSrtpKeys lib ans t
    rw [pumpSslKeys]
    split_ifs
    · rcases hu : deriveSrtpKeys lib ans t with ⟨u, - | -⟩ <;> rw [hu] at hderive
      · exact (rtp_dtlsSetState ans u .failed).trans hderive
      · exact (rtp_rtcSessionRequestIdr ans
          (setState (dtlsSetState (rtcCallbacks ans) u .connected) .streaming)).trans
            ((rtp_dtlsSetState ans u .connected).trans hderive)
    · rfl
  have hcall := rtp_pumpSslCall ans s
  rw [pumpSsl]
  split_ifs
  · rfl
  · rcases ht : pumpSslCall (rtcCallbacks ans) ans s with ⟨t, - | -⟩ <;> rw [ht] at hcall
    · exact hcall
    · exact (hkeys t).trans hcall

@[simp]
theorem rtp_dtlsSrtpSendRtp (pkt : List UInt8) :
    (dtlsSrtpSendRtp lib (rtcCallbacks ans) s pkt).1.rtp = s.rtp := by
  rw [dtlsSrtpSendRtp]
  split_ifs
  · rfl
  split
  · rfl
  · dsimp only
    split
    · rfl
    · exact rtp_dtlsSendUdp _ .srtp _

@[simp]
theorem rtp_dtlsSrtpSendRtcp (pkt : List UInt8) :
    (dtlsSrtpSendRtcp lib (rtcCallbacks ans) s pkt).1.rtp = s.rtp := by
  rw [dtlsSrtpSendRtcp]
  split_ifs
  · rfl
  split
  · rfl
  · dsimp only
    split
    · rfl
    · exact rtp_dtlsSendUdp _ .srtcp _

/-! ### So do the datagrams and the periodic work -/

theorem rtp_onUdpDtls (packet : List UInt8) : (onUdpDtls lib ans s packet).rtp = s.rtp := by
  rw [onUdpDtls]
  split_ifs
  · rw [dtlsSrtpOnUdp]
    split_ifs
    · rfl
    · rfl
    · exact rtp_pumpSsl lib ans _
  · rfl

theorem rtp_onNacks (seqs : List ℕ) : (onNacks s seqs).rtp = s.rtp := by
  have hresend (t : RtcSession) (seq : ℕ) : (retransmit t seq).rtp = t.rtp := by
    rw [retransmit]
    dsimp only
    split_ifs
    · exact rtp_dtlsSendUdp t _ _
    · rfl
  exact List.foldlRecOn (motive := fun t : RtcSession ↦ t.rtp = s.rtp) seqs retransmit rfl
    fun t ht seq _ ↦ (hresend t seq).trans ht

/-- A picture that is lost is asked for again, which does not restart the packetizer. -/
theorem rtp_dtlsOnRtcp (packet : List UInt8) : (dtlsOnRtcp ans s packet).rtp = s.rtp := by
  have hloss (feedback : RtcpFeedback) : (onPictureLoss ans s feedback).rtp = s.rtp := by
    rw [onPictureLoss]
    split_ifs
    · exact rtp_rtcSessionRequestIdr ans _
    · rfl
  rw [dtlsOnRtcp]
  split_ifs
  · exact rtp_rtcSessionClose ans s
  · exact (rtp_onNacks _ _).trans (hloss _)

theorem rtp_onUdpRtp (buffer : List UInt8) (length : ℕ) :
    (onUdpRtp lib ans s buffer length).rtp = s.rtp := by
  have hunprotect (pkt : List UInt8) : (dtlsSrtpUnprotectRtcp lib s pkt).1.rtp = s.rtp := by
    rw [dtlsSrtpUnprotectRtcp]
    split_ifs
    · rfl
    · split <;> rfl
  have h := hunprotect (buffer.take length)
  rw [onUdpRtp]
  split_ifs
  · rcases ht : dtlsSrtpUnprotectRtcp lib s (buffer.take length) with ⟨t, - | packet⟩ <;> rw [ht] at h
    · exact h
    · exact (rtp_dtlsOnRtcp ans t packet).trans h
  · rfl

theorem rtp_onUdpStun (buffer : List UInt8) (length : ℕ) (source : SockAddr) :
    (onUdpStun lib ans s buffer length source).rtp = s.rtp := by
  have hreject (t : RtcSession) (tid : List UInt8) : (stunReject ans t tid source).rtp = t.rtp := by
    rw [stunReject, stunSendError]
    split <;> rfl
  have haccept (t : RtcSession) : (stunAccept lib ans t buffer length source).rtp = t.rtp := by
    have hfollow (t : RtcSession) : (followPeer t source).rtp = t.rtp := by
      rw [followPeer]
      split_ifs <;> rfl
    rw [stunAccept]
    dsimp only
    split
    all_goals
      split_ifs <;> exact hfollow _
  rw [onUdpStun]
  dsimp only
  split
  · split_ifs <;> rfl
  · split_ifs
    · exact hreject _ _
    · exact hreject _ _
    · exact haccept _

theorem rtp_rtcSessionOnUdp (buffer : List UInt8) (length : ℕ) (source : SockAddr) :
    (rtcSessionOnUdp lib ans s buffer length source).rtp = s.rtp := by
  rw [rtcSessionOnUdp]
  split_ifs
  · rfl
  dsimp only
  split
  · exact rtp_onUdpStun lib ans _ buffer length source
  · exact rtp_onUdpDtls lib ans _ _
  · exact rtp_onUdpRtp lib ans _ buffer length
  · rfl

theorem rtp_dtlsSrtpTick : (dtlsSrtpTick lib (rtcCallbacks ans) ans s).rtp = s.rtp := by
  rw [dtlsSrtpTick]
  split_ifs
  · rfl
  · exact (rtp_pumpSsl lib ans _).trans (rtp_sslIo ans s _ _)
  · exact rtp_pumpSsl lib ans s

/-- The sender report reads the packetizer only. -/
theorem rtp_rtcSessionTick (now : ℕ) : (rtcSessionTick lib ans s now).rtp = s.rtp := by
  have hreport (t : RtcSession) : (senderReport lib ans t now).rtp = t.rtp := by
    have h := rtp_dtlsSrtpSendRtcp lib ans t (rtcpBuildSenderReport t.rtp.ssrc ans.wallUs
      t.rtp.lastTimestamp t.rtp.packets t.rtp.octets)
    rw [senderReport]
    dsimp only
    rcases ht : dtlsSrtpSendRtcp lib (rtcCallbacks ans) t (rtcpBuildSenderReport t.rtp.ssrc ans.wallUs
      t.rtp.lastTimestamp t.rtp.packets t.rtp.octets) with ⟨u, - | data⟩ <;> rw [ht] at h <;> exact h
  rw [rtcSessionTick]
  split_ifs
  · rfl
  · exact rtp_rtcSessionClose ans s
  · exact rtp_rtcSessionClose ans s
  · dsimp only
    split_ifs
    · exact (hreport _).trans (rtp_dtlsSrtpTick lib ans s)
    · exact rtp_dtlsSrtpTick lib ans s

/-! ### Sending -/

theorem rtp_rtpPacketSink (call : SinkCall) : (rtpPacketSink lib ans s call).rtp = s.rtp := by
  have h := rtp_dtlsSrtpSendRtp lib ans s call.packet
  rw [rtpPacketSink]
  split_ifs
  · rfl
  · rcases ht : dtlsSrtpSendRtp lib (rtcCallbacks ans) s call.packet with ⟨t, - | buffer⟩ <;>
      rw [ht] at h <;> exact h

/-- The packetizer keeps the payload type. -/
theorem payloadType_rtpH264Packetize (p : RtpH264) (accessUnit : List UInt8) (ptsUs : UInt64) :
    (rtpH264Packetize p accessUnit ptsUs).1.payloadType = p.payloadType := by
  by_cases hau : accessUnit = []
  · rw [hau]
    rfl
  · exact (rtpH264Packetize_delivers p hau ptsUs).payloadType_eq.trans
      (beginAccessUnit_payloadType p ptsUs)

/-- While streaming an access unit goes through the packetizer. -/
theorem rtp_rtcSessionSendAccessUnit (accessUnit : List UInt8) (ptsUs : UInt64) (isIdr : Bool) :
    (rtcSessionSendAccessUnit lib ans s accessUnit ptsUs isIdr).1.rtp =
      if s.state = .streaming then (rtpH264Packetize s.rtp accessUnit ptsUs).1 else s.rtp := by
  have hclear : (if isIdr ∧ s.idrRequested then { s with idrRequested := false } else s).rtp = s.rtp ∧
      (if isIdr ∧ s.idrRequested then { s with idrRequested := false } else s).state = s.state := by
    split_ifs <;> exact ⟨rfl, rfl⟩
  rw [rtcSessionSendAccessUnit]
  set t := if isIdr ∧ s.idrRequested then { s with idrRequested := false } else s
  rw [← hclear.1, ← hclear.2]
  dsimp only
  by_cases hstate : t.state = .streaming
  · rw [if_neg (not_not_intro hstate), if_pos hstate]
    exact List.foldlRecOn
      (motive := fun w : RtcSession ↦ w.rtp = (rtpH264Packetize t.rtp accessUnit ptsUs).1)
      (rtpH264Packetize t.rtp accessUnit ptsUs).2.1 _ rfl
      fun w hw call _ ↦ (rtp_rtpPacketSink lib ans w call).trans hw
  · rw [if_pos hstate, if_neg hstate]

/-- Packets are numbered; the payload type stays. -/
theorem payloadType_sendAccessUnit (accessUnit : List UInt8) (ptsUs : UInt64) (isIdr : Bool) :
    (rtcSessionSendAccessUnit lib ans s accessUnit ptsUs isIdr).1.rtp.payloadType =
      s.rtp.payloadType := by
  rw [rtp_rtcSessionSendAccessUnit]
  split_ifs
  · exact payloadType_rtpH264Packetize s.rtp accessUnit ptsUs
  · rfl

end Engine

/-! ### Runs -/

/-- **One operation** keeps the payload type. -/
theorem payloadType_rtcCall (lib : Libraries) (s : RtcSession) (e : RtcEvent) :
    (rtcCall lib s e).rtp.payloadType = s.rtp.payloadType := by
  obtain ⟨ans, call⟩ := e
  cases call with
  | onUdp buffer length source =>
    exact congrArg RtpH264.payloadType (rtp_rtcSessionOnUdp lib ans s buffer length source)
  | tick now => exact congrArg RtpH264.payloadType (rtp_rtcSessionTick lib ans s now)
  | sendAccessUnit accessUnit ptsUs isIdr =>
    exact payloadType_sendAccessUnit lib ans s accessUnit ptsUs isIdr
  | close => exact congrArg RtpH264.payloadType (rtp_rtcSessionClose ans s)
  | destroy => exact congrArg RtpH264.payloadType (rtp_rtcSessionDestroy ans s)

/-- The packetizer of a created session. -/
theorem rtp_rtcSessionCreate (h : rtcSessionCreate env config = some s₀) :
    s₀.rtp = rtpH264Reset rtpH264Create (if env.ssrc = 0 then 0x1234ABCD else env.ssrc)
      (UInt32.ofInt config.offer.h264PayloadType) := by
  rw [rtcSessionCreate] at h
  split at h
  · exact absurd h (by simp)
  · obtain rfl := Option.some.inj h
    rfl

/-- **A run** keeps the payload type the session was created with. -/
theorem payloadType_of_run (hcreate : rtcSessionCreate env config = some s₀)
    (hrun : Run.exec (rtcStep lib) s₀ es = some s) :
    s.rtp.payloadType = UInt32.ofInt config.offer.h264PayloadType := by
  have hstart : s₀.rtp.payloadType = UInt32.ofInt config.offer.h264PayloadType := by
    rw [rtp_rtcSessionCreate hcreate]
    rfl
  refine Run.exec_invariant (P := fun t ↦ t.rtp.payloadType =
    UInt32.ofInt config.offer.h264PayloadType) ?_ hstart hrun
  intro t e t' ht hstep
  obtain ⟨-, rfl⟩ := rtcStep_eq_some.1 hstep
  exact (payloadType_rtcCall lib t e).trans ht

/-- **Every packet of a session** carries the low seven bits of the number in the offer. -/
theorem payloadType_of_mem_sinkCalls (hcreate : rtcSessionCreate env config = some s₀)
    (hrun : Run.exec (rtcStep lib) s₀ es = some s) {accessUnit : List UInt8} {ptsUs : UInt64}
    {call : SinkCall} (h : call ∈ sinkCalls s.rtp accessUnit ptsUs) :
    call.packet.getD 1 0 &&& 0x7F =
      (UInt32.ofInt config.offer.h264PayloadType &&& 0x7F).toUInt8 := by
  by_cases hau : accessUnit = []
  · rw [hau] at h
    exact absurd h List.not_mem_nil
  · rw [(rtpH264Packetize_delivers s.rtp hau ptsUs).typed call h, beginAccessUnit_payloadType,
      payloadType_of_run hcreate hrun]

end Camstream
