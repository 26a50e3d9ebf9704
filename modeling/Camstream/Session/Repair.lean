import Camstream.Rtcp.Nacks
import Camstream.Rtp.Bookkeeping
import Camstream.Rtp.Depacketizer
import Camstream.Session.Retransmission

/-!
# Recent packets can be repaired

The number a packet is stored under is its place in one progression modulo 2^16, and the cache has 512
slots, a divisor of it. So the last 512 packets of a session stand in different slots, also where the
numbers wrap, and a NACK finds each of them: `recent_packets_repairable`. It starts from any streaming
session, whatever its cache holds and whatever its sequence counter is.

Two guards of the receiving side bound what a NACK can ask for: the parser keeps the first 128 numbers a
compound packet mentions, and a compound with a BYE closes the session instead.
-/

namespace Camstream

open DirectMapped

variable {lib : Libraries} {s s' : RtcSession}

/-! ### The packets of a run -/

/-- Number and protected packet of each sink call; `none` once `dtls_srtp_send_rtp` fails. -/
def sinkSends (lib : Libraries) (ans : Answers) :
    RtcSession → List SinkCall → Option (List (UInt16 × List UInt8))
  | _, [] => some []
  | session, call :: calls =>
    match (dtlsSrtpSendRtp lib (rtcCallbacks ans) session call.packet).2 with
    | none => none
    | some data =>
      (sinkSends lib ans (rtpPacketSink lib ans session call) calls).map
        ((call.sequence, data) :: ·)

/-- An access unit handed to `rtc_session_send_access_unit`. -/
structure MediaSend where
  answers : Answers
  accessUnit : List UInt8
  ptsUs : UInt64
  isIdr : Bool

/-- The operation. -/
def MediaSend.event (a : MediaSend) : RtcEvent :=
  ⟨a.answers, .sendAccessUnit a.accessUnit a.ptsUs a.isIdr⟩

/-- What `rtc_session_send_access_unit` sends. -/
def MediaSend.sends (lib : Libraries) (session : RtcSession) (a : MediaSend) :
    Option (List (UInt16 × List UInt8)) :=
  let session :=
    if a.isIdr ∧ session.idrRequested then { session with idrRequested := false } else session
  if session.state ≠ .streaming then some []
  else
    let (rtp, calls, _) := rtpH264Packetize session.rtp a.accessUnit a.ptsUs
    sinkSends lib a.answers { session with rtp := rtp } calls

/-- What a run of access units sends, oldest first; `none` if any `dtls_srtp_send_rtp` fails. -/
def mediaSends (lib : Libraries) : RtcSession → List MediaSend → Option (List (UInt16 × List UInt8))
  | _, [] => some []
  | session, a :: as =>
    match a.sends lib session with
    | none => none
    | some sent => (mediaSends lib (rtcCall lib session a.event) as).map (sent ++ ·)

/-- libsrtp appends at most 64 bytes. -/
def Libraries.ShortTrailer (lib : Libraries) : Prop :=
  ∀ key calls pkt data, lib.srtpProtect key calls pkt = some data →
    pkt.length ≤ data.length ∧ data.length ≤ pkt.length + 64

/-- The entry of the cache a packet is stored as. -/
def slotEntry (x : UInt16 × List UInt8) : ℕ × List UInt8 :=
  (x.1.toNat % retxCacheSize, x.2)

/-- `s'` is `s` after sending the packets `sent`: still streaming to the same peer, and the cache has
taken them in. -/
structure Sent (s : RtcSession) (sent : List (UInt16 × List UInt8)) (s' : RtcSession) : Prop where
  frame : s'.view.toSessionFrame = s.view.toSessionFrame
  state : s'.state = s.state
  inPhase : s.view.InPhase → s'.view.InPhase
  cache : s'.view.cache = storeAll s.view.cache (sent.map slotEntry)

theorem Sent.refl (s : RtcSession) : Sent s [] s :=
  ⟨rfl, rfl, id, rfl⟩

/-- Packets sent in two stretches. -/
theorem Sent.trans {s'' : RtcSession} {sent sent' : List (UInt16 × List UInt8)} (h : Sent s sent s')
    (h' : Sent s' sent' s'') : Sent s (sent ++ sent') s'' := by
  refine ⟨h'.frame.trans h.frame, h'.state.trans h.state, h'.inPhase ∘ h.inPhase, ?_⟩
  rw [h'.cache, h.cache, List.map_append, storeAll_append]

/-- One packet. -/
theorem sent_rtpPacketSink (hlib : lib.ShortTrailer) (ans : Answers) {call : SinkCall}
    (hcall : call.WellFormed) (hfits : call.packet.length ≤ rtpMaxPacket) {data : List UInt8}
    (hdata : (dtlsSrtpSendRtp lib (rtcCallbacks ans) s call.packet).2 = some data) :
    Sent s [(call.sequence, data)] (rtpPacketSink lib ans s call) := by
  have htalk := (talk_rtpPacketSink lib ans s (Nat.le_add_right_of_le hfits) hdata).1
  have hentry : cacheEntry data (data.length % 2 ^ 16) = some data := by
    rcases dtlsSrtpSendRtp_cases lib s (rtcCallbacks ans) call.packet with
      ⟨t, ht, -, -⟩ | ⟨t, key, calls, data', hprotect, -, -, -, -, ht⟩
    all_goals rw [ht] at hdata
    · exact absurd hdata.symm (Option.some_ne_none _)
    obtain rfl : data' = data := Option.some.inj hdata
    obtain ⟨hlong, hshort⟩ := hlib key calls call.packet data' hprotect
    have hheader := hcall.length_eq
    rw [rtpHeaderSize] at hheader
    rw [rtpMaxPacket] at hfits
    rw [Nat.mod_eq_of_lt (by omega), cacheEntry, if_pos (by omega), List.take_length]
  have hstate : (rtpPacketSink lib ans s call).state = s.state := htalk.state_eq
  have hphase : s.view.InPhase → (rtpPacketSink lib ans s call).view.InPhase :=
    fun hphase ↦ htalk.inPhase hphase
  obtain ⟨new, -, hview⟩ := htalk
  refine ⟨?_, hstate, hphase, ?_⟩
  · rw [hview]
    rfl
  · rw [hview]
    show Function.update s.view.cache _ (cacheEntry data _) = _
    rw [hentry]
    rfl

/-- The packets of an access unit. -/
theorem sent_foldl_rtpPacketSink (hlib : lib.ShortTrailer) (ans : Answers) {calls : List SinkCall}
    (hcalls : ∀ c ∈ calls, c.WellFormed ∧ c.packet.length ≤ rtpMaxPacket)
    {sent : List (UInt16 × List UInt8)} (h : sinkSends lib ans s calls = some sent) :
    Sent s sent (calls.foldl (rtpPacketSink lib ans) s) ∧
      (calls.foldl (rtpPacketSink lib ans) s).rtp = s.rtp ∧
      sent.map Prod.fst = calls.map SinkCall.sequence := by
  induction calls generalizing s sent with
  | nil =>
    obtain rfl := Option.some.inj h
    exact ⟨Sent.refl s, rfl, rfl⟩
  | cons call calls ih =>
    rw [List.forall_mem_cons] at hcalls
    rw [sinkSends] at h
    rcases hdata : (dtlsSrtpSendRtp lib (rtcCallbacks ans) s call.packet).2 with - | data
    all_goals rw [hdata] at h
    · exact absurd h.symm (Option.some_ne_none _)
    obtain ⟨rest, hrest, rfl⟩ := Option.map_eq_some_iff.1 h
    obtain ⟨hsent, hrtp, hseqs⟩ := ih hcalls.2 hrest
    have hone := sent_rtpPacketSink hlib ans hcalls.1.1 hcalls.1.2 hdata
    refine ⟨hone.trans hsent, ?_, ?_⟩
    · exact hrtp.trans
        (talk_rtpPacketSink lib ans s (Nat.le_add_right_of_le hcalls.1.2) hdata).2
    · rw [List.map_cons, List.map_cons, hseqs]

/-- The numbers continue `start`. -/
def Numbered (start : UInt16) (sent : List (UInt16 × List UInt8)) : Prop :=
  ∀ i (h : i < sent.length), sent[i].1 = start + UInt16.ofNat (i + 1)

/-- **One access unit.** -/
theorem sent_mediaSend (hlib : lib.ShortTrailer) (hstate : s.state = .streaming) {a : MediaSend}
    {sent : List (UInt16 × List UInt8)} (h : a.sends lib s = some sent) :
    Sent s sent (rtcCall lib s a.event) ∧ Numbered s.rtp.sequence sent ∧
      (rtcCall lib s a.event).rtp.sequence = s.rtp.sequence + UInt16.ofNat sent.length := by
  show Sent s sent (rtcSessionSendAccessUnit lib a.answers s a.accessUnit a.ptsUs a.isIdr).1 ∧ _ ∧
    (rtcSessionSendAccessUnit lib a.answers s a.accessUnit a.ptsUs a.isIdr).1.rtp.sequence = _
  rw [MediaSend.sends] at h
  rw [rtcSessionSendAccessUnit]
  -- `idr_requested` may be cleared first, which nothing below can see.
  set t : RtcSession := if a.isIdr ∧ s.idrRequested then { s with idrRequested := false } else s
    with ht
  have hview : t.view = s.view := view_idrRequested s _ _
  have hsame : t.state = s.state ∧ t.rtp = s.rtp := by
    rw [ht]
    split_ifs <;> exact ⟨rfl, rfl⟩
  have hopen : ¬ t.state ≠ .streaming := not_not_intro (hsame.1.trans hstate)
  dsimp only at h ⊢
  rw [if_neg hopen] at h ⊢
  obtain ⟨hsent, hrtp, hseqs⟩ := sent_foldl_rtpPacketSink hlib a.answers
    (fun c hc ↦ ⟨sinkCalls_wellFormed t.rtp a.accessUnit a.ptsUs c hc,
      (length_of_mem_sinkCalls hc).2⟩) h
  obtain ⟨hnumbered, hnext⟩ := sinkCalls_numbered t.rtp a.accessUnit a.ptsUs
  replace hseqs : sent.map Prod.fst =
      (sinkCalls t.rtp a.accessUnit a.ptsUs).map SinkCall.sequence := hseqs
  have hlen : sent.length = (sinkCalls t.rtp a.accessUnit a.ptsUs).length := by
    simpa using congrArg List.length hseqs
  refine ⟨⟨hsent.frame.trans (congrArg SessionView.toSessionFrame hview), hsent.state.trans hsame.1,
    fun hphase ↦ hsent.inPhase ?_, ?_⟩, fun i hi ↦ ?_, ?_⟩
  · exact hview.symm ▸ hphase
  · refine hsent.cache.trans ?_
    rw [← hview]
    rfl
  · have hi' : i < (sinkCalls t.rtp a.accessUnit a.ptsUs).length := hlen ▸ hi
    have hget := congrArg (fun l ↦ l[i]?) hseqs
    simp only [List.getElem?_map, List.getElem?_eq_getElem hi, List.getElem?_eq_getElem hi',
      Option.map_some] at hget
    rw [Option.some.inj hget, hnumbered i hi', hsame.2]
  · rw [hlen, ← hsame.2, ← hnext]
    exact congrArg RtpH264.sequence hrtp

/-- Two stretches of consecutive numbers, the second from where the first has stopped. -/
theorem Numbered.append {start : UInt16} {sent later : List (UInt16 × List UInt8)}
    (h : Numbered start sent) (h' : Numbered (start + UInt16.ofNat sent.length) later) :
    Numbered start (sent ++ later) := by
  intro i hi
  by_cases hlt : i < sent.length
  · rw [List.getElem_append_left hlt]
    exact h i hlt
  · rw [List.getElem_append_right (Nat.le_of_not_lt hlt), h', UInt16.add_assoc, ← UInt16.ofNat_add]
    congr 2
    omega

/-- **A run of access units**: the cache takes in everything that was sent, and the numbers are one
progression. -/
theorem sent_mediaSends (hlib : lib.ShortTrailer) (hstate : s.state = .streaming) {as : List MediaSend}
    {sent : List (UInt16 × List UInt8)} (h : mediaSends lib s as = some sent)
    (hrun : Run.exec (rtcStep lib) s (as.map MediaSend.event) = some s') :
    Sent s sent s' ∧ Numbered s.rtp.sequence sent := by
  induction as generalizing s sent with
  | nil =>
    obtain rfl := Option.some.inj h
    obtain rfl := Option.some.inj hrun
    exact ⟨Sent.refl s, fun i hi ↦ absurd hi (Nat.not_lt_zero i)⟩
  | cons a as ih =>
    rw [mediaSends] at h
    rcases hone : a.sends lib s with - | now
    all_goals rw [hone] at h
    · exact absurd h.symm (Option.some_ne_none _)
    obtain ⟨later, hlater, rfl⟩ := Option.map_eq_some_iff.1 h
    rw [List.map_cons, Run.exec_cons] at hrun
    obtain ⟨t, ht, hrun⟩ := Option.bind_eq_some_iff.1 hrun
    obtain ⟨-, rfl⟩ := rtcStep_eq_some.1 ht
    obtain ⟨hsent, hnumbered, hnext⟩ := sent_mediaSend hlib hstate hone
    obtain ⟨hrest, hnumbered'⟩ := ih (hsent.state.trans hstate) hlater hrun
    rw [hnext] at hnumbered'
    exact ⟨hsent.trans hrest, hnumbered.append hnumbered'⟩

/-! ### The last 512 packets -/

/-- **Recent packets keep their slots.** The slots of 512 consecutive numbers are different, across the
wrap too. -/
theorem storeAll_recent {start : UInt16} {sent : List (UInt16 × List UInt8)} (h : Numbered start sent)
    (cache : ℕ → Option (List UInt8)) {i : ℕ} (hi : i < sent.length)
    (hrecent : sent.length ≤ i + retxCacheSize) :
    storeAll cache (sent.map slotEntry) (sent[i].1.toNat % retxCacheSize) = some sent[i].2 := by
  have hsplit : sent.map slotEntry = (sent.take i).map slotEntry ++
      slotEntry sent[i] :: (sent.drop (i + 1)).map slotEntry := by
    rw [← List.map_cons, ← List.map_append, List.getElem_cons_drop, List.take_append_drop]
  rw [hsplit]
  refine storeAll_of_last cache _ _ fun e he ↦ ?_
  obtain ⟨x, hx, rfl⟩ := List.mem_map.1 he
  obtain ⟨j, hj, rfl⟩ := List.mem_drop_iff_getElem.1 hx
  show sent[i + 1 + j].1.toNat % retxCacheSize ≠ sent[i].1.toNat % retxCacheSize
  rw [h i hi, h (i + 1 + j) (by omega), UInt16.toNat_add, UInt16.toNat_add, UInt16.toNat_ofNat',
    UInt16.toNat_ofNat']
  rw [retxCacheSize] at hrecent ⊢
  omega

/-- A datagram that delivers the compound packet `packet` to a session: SRTCP that can be unprotected. -/
def DeliversRtcp (lib : Libraries) (session : RtcSession) (e : RtcEvent) (packet : List UInt8) : Prop :=
  ∃ buffer length source, e.call = .onUdp buffer length source ∧
    rtcClassifyPacket buffer length = .rtp ∧ 64 ≤ buffer.getD 1 0 &&& 0x7F ∧
    buffer.getD 1 0 &&& 0x7F ≤ 95 ∧
    (dtlsSrtpUnprotectRtcp lib session (buffer.take length)).2 = some packet

/-- What a compound packet asks a streaming session for. -/
theorem nackSeqs_of_deliversRtcp {e : RtcEvent} {packet : List UInt8} (hstate : s.state = .streaming)
    (h : DeliversRtcp lib s e packet) :
    nackSeqs lib s e = if hasBye packet then [] else (nackMentions packet).take rtcpMaxNacks := by
  obtain ⟨buffer, length, source, hcall, hclass, hlow, hhigh, hpacket⟩ := h
  rw [nackSeqs, hcall]
  dsimp only
  rw [if_pos ⟨hclass, hlow, hhigh, hstate⟩, hpacket]
  dsimp only
  rw [bye_rtcpParse, nackSeq_rtcpParse]

/-- A datagram sent again for the number `seq`. -/
def Effect.isRetransmission (seq : ℕ) : Effect → Bool
  | .sendUdp (.retransmission seq') _ _ => decide (seq' = seq)
  | _ => false

/-- For the number `seq`, the operation sends `data` to the peer exactly `count` times, and nothing
else. -/
def ResentTimes (s s' : RtcSession) (seq : ℕ) (data : List UInt8) (count : ℕ) : Prop :=
  (sentDuring s s').filter (Effect.isRetransmission seq) =
    List.replicate count (.sendUdp (.retransmission seq) data s.remote)

/-- The answers for one number, among the answers for all. -/
theorem filter_answers {v : SessionView} {seq : ℕ} {data : List UInt8}
    (hcache : v.cache (seq % retxCacheSize) = some data) (seqs : List ℕ) :
    (seqs.filterMap v.answer).filter (Effect.isRetransmission seq) =
      List.replicate (seqs.count seq) (.sendUdp (.retransmission seq) data v.remote) := by
  induction seqs with
  | nil => rfl
  | cons seq' seqs ih =>
    rw [List.filterMap_cons, List.count_cons, SessionView.answer]
    by_cases hseq : seq' = seq
    · subst hseq
      rw [hcache, if_pos (beq_self_eq_true seq'), List.replicate_succ, ← ih]
      exact List.filter_cons_of_pos (decide_eq_true rfl)
    · rw [if_neg (by simpa using hseq), Nat.add_zero, ← ih]
      rcases v.cache (seq' % retxCacheSize) with - | data'
      · rfl
      · exact List.filter_cons_of_neg (by simpa [Effect.isRetransmission] using hseq)

variable {as : List MediaSend} {sent : List (UInt16 × List UInt8)}

/-- A recent packet is sent again once for each time its number is asked for. -/
theorem resentTimes_recent (hlib : lib.ShortTrailer) (hphase : s.view.InPhase) (hfd : 0 ≤ s.udpFd)
    (hstate : s.state = .streaming) (hsent : mediaSends lib s as = some sent)
    (hrun : Run.exec (rtcStep lib) s (as.map MediaSend.event) = some s') (e : RtcEvent) {i : ℕ}
    (hi : i < sent.length) (hrecent : sent.length ≤ i + retxCacheSize) :
    ResentTimes s' (rtcCall lib s' e) sent[i].1.toNat sent[i].2
      ((nackSeqs lib s' e).count sent[i].1.toNat) := by
  obtain ⟨hs', hnumbered⟩ := sent_mediaSends hlib hstate hsent hrun
  have hfd' : 0 ≤ s'.udpFd := by
    have : s'.udpFd = s.udpFd := congrArg SessionFrame.udpFd hs'.frame
    rw [this]
    exact hfd
  have hcache : s'.view.cache (sent[i].1.toNat % retxCacheSize) = some sent[i].2 := by
    rw [hs'.cache]
    exact storeAll_recent hnumbered s.view.cache hi hrecent
  obtain ⟨new, hlog, hnew⟩ := sentDuring_eq_answers lib (hs'.inPhase hphase) hfd' e
  have hquiet : new.filter (Effect.isRetransmission sent[i].1.toNat) = [] := by
    rw [List.filter_eq_nil_iff]
    intro x hx
    rcases x with ⟨- | - | - | seq, data, dest⟩ | - | - | - | - | -
    case sendUdp.retransmission => exact absurd hx (hnew seq data dest)
    all_goals exact Bool.false_ne_true
  rw [ResentTimes, hlog, List.filter_append, hquiet, List.append_nil, List.filter_reverse,
    filter_answers hcache, List.reverse_replicate]
  rfl

/-- **Recent packets are always repairable.** After a run of access units in which every packet was
protected and sent, a compound packet without BYE gets, for each of the last 512 packets, the protected
packet back once for every mention of its number among the first 128. -/
theorem recent_packets_repairable (hlib : lib.ShortTrailer) (hphase : s.view.InPhase)
    (hfd : 0 ≤ s.udpFd) (hstate : s.state = .streaming) (hsent : mediaSends lib s as = some sent)
    (hrun : Run.exec (rtcStep lib) s (as.map MediaSend.event) = some s') {e : RtcEvent}
    {packet : List UInt8} (he : DeliversRtcp lib s' e packet) (hbye : hasBye packet = false) {i : ℕ}
    (hi : i < sent.length) (hrecent : sent.length ≤ i + 512) :
    ResentTimes s' (rtcCall lib s' e) sent[i].1.toNat sent[i].2
      (((nackMentions packet).take 128).count sent[i].1.toNat) := by
  have hstate' := (sent_mediaSends hlib hstate hsent hrun).1.state.trans hstate
  have h := resentTimes_recent hlib hphase hfd hstate hsent hrun e hi hrecent
  rwa [nackSeqs_of_deliversRtcp hstate' he, hbye, if_neg Bool.false_ne_true] at h

/-! ### A sample run -/

/-- Three access units of one packet each, which get the numbers from 1 on. -/
def sampleSends : List MediaSend :=
  [⟨sampleAnswers 500, [0, 0, 1, 0x65, 1], 0, true⟩,
    ⟨sampleAnswers 600, [0, 0, 1, 0x41, 2], 100000, false⟩,
    ⟨sampleAnswers 700, [0, 0, 1, 0x41, 3], 200000, false⟩]

/-- These packets, protected. -/
def sampleSent : List (UInt16 × List UInt8) :=
  [(1, [128, 224, 0, 1, 0, 0, 0, 0, 0, 0, 0, 7, 0x65, 1] ++ List.replicate 10 0),
    (2, [128, 224, 0, 2, 0, 0, 0x23, 0x28, 0, 0, 0, 7, 0x41, 2] ++ List.replicate 10 0),
    (3, [128, 224, 0, 3, 0, 0, 0x46, 0x50, 0, 0, 0, 7, 0x41, 3] ++ List.replicate 10 0)]

/-- A compound packet, as `sampleLibraries` protects it. -/
def sampleRtcp (packet : List UInt8) : RtcEvent :=
  ⟨sampleAnswers 800, .onUdp (packet ++ List.replicate 14 0) (packet.length + 14) samplePeer⟩

theorem shortTrailer_sampleLibraries : sampleLibraries.ShortTrailer := by
  intro key calls pkt data h
  obtain rfl := Option.some.inj h
  rw [List.length_append, List.length_replicate]
  omega

/-- A streaming session that has sent them, with keys for incoming packets. -/
theorem exists_sampleSent : ∃ s s' ctx, s.view.InPhase ∧ 0 ≤ s.udpFd ∧ s.state = .streaming ∧
    mediaSends sampleLibraries s sampleSends = some sampleSent ∧
    Run.exec (rtcStep sampleLibraries) s (sampleSends.map MediaSend.event) = some s' ∧
    s'.dtls.srtpReady = true ∧ s'.dtls.srtpIn = some ctx := by
  have hrun : ((rtcSessionCreate sampleCreate (sampleConfig sampleFingerprint)).bind fun s₀ ↦
      (Run.exec (rtcStep sampleLibraries) s₀ (sampleRun.take 4)).bind fun s ↦
        (Run.exec (rtcStep sampleLibraries) s (sampleSends.map MediaSend.event)).map fun s' ↦
          decide (s.state = .streaming ∧
            mediaSends sampleLibraries s sampleSends = some sampleSent ∧
            s'.dtls.srtpReady = true ∧ s'.dtls.srtpIn = some ⟨List.replicate 30 0, 0⟩)) =
      some true := by
    decide +kernel
  obtain ⟨s₀, hcreate, hrun⟩ := Option.bind_eq_some_iff.1 hrun
  obtain ⟨s, hs, hrun⟩ := Option.bind_eq_some_iff.1 hrun
  obtain ⟨s', hs', hfacts⟩ := Option.map_eq_some_iff.1 hrun
  obtain ⟨hstate, hsent, hready, hctx⟩ := of_decide_eq_true hfacts
  exact ⟨s, s', _, (lifecycle_of_run hcreate hs).inPhase, udpFd_of_run hcreate hs, hstate, hsent, hs',
    hready, hctx⟩

theorem deliversRtcp_sampleRtcp {ctx : SrtpContext} (hready : s.dtls.srtpReady = true)
    (hctx : s.dtls.srtpIn = some ctx) (packet : List UInt8)
    (hclass : rtcClassifyPacket (packet ++ List.replicate 14 0) (packet.length + 14) = .rtp)
    (hlow : 64 ≤ (packet ++ List.replicate 14 0).getD 1 0 &&& 0x7F)
    (hhigh : (packet ++ List.replicate 14 0).getD 1 0 &&& 0x7F ≤ 95) :
    DeliversRtcp sampleLibraries s (sampleRtcp packet) packet := by
  refine ⟨_, _, _, rfl, hclass, hlow, hhigh, ?_⟩
  have htake : (packet ++ List.replicate 14 0).take (packet.length + 14) =
      packet ++ List.replicate 14 0 :=
    List.take_of_length_le (by rw [List.length_append, List.length_replicate])
  rw [dtlsSrtpUnprotectRtcp, hready, hctx, htake]
  show some ((packet ++ List.replicate 14 0).take ((packet ++ List.replicate 14 0).length - 14)) = _
  rw [List.length_append, List.length_replicate, Nat.add_sub_cancel, List.take_left]

/-- A Generic NACK with the given FCI entries. -/
def genericNack (entries : List (ℕ × ℕ)) : List UInt8 :=
  [0x81, 205] ++ Bytes.be16 (2 + entries.length) ++ List.replicate 8 0 ++
    entries.flatMap fun entry ↦ Bytes.be16 entry.1 ++ Bytes.be16 entry.2

/-- Each of the packets is asked for, the second one twice. -/
theorem recent_packets_repairable_sample : ∃ s s', Run.exec (rtcStep sampleLibraries) s
      (sampleSends.map MediaSend.event) = some s' ∧
    ∀ i, ∀ hi : i < sampleSent.length,
      ResentTimes s' (rtcCall sampleLibraries s' (sampleRtcp (genericNack [(1, 3), (0, 2)])))
        sampleSent[i].1.toNat sampleSent[i].2 (if i = 1 then 2 else 1) := by
  obtain ⟨s, s', ctx, hphase, hfd, hstate, hsent, hrun, hready, hctx⟩ := exists_sampleSent
  refine ⟨s, s', hrun, fun i hi ↦ ?_⟩
  have hrecent : sampleSent.length ≤ i + 512 := Nat.le_add_left 3 (i + 509)
  have h := recent_packets_repairable shortTrailer_sampleLibraries hphase hfd hstate hsent hrun
    (deliversRtcp_sampleRtcp hready hctx (genericNack [(1, 3), (0, 2)]) (by decide +kernel)
      (by decide +kernel) (by decide +kernel)) (by decide +kernel) hi hrecent
  have hcount : ∀ i, ∀ hi : i < sampleSent.length,
      ((nackMentions (genericNack [(1, 3), (0, 2)])).take 128).count sampleSent[i].1.toNat =
        if i = 1 then 2 else 1 := by
    decide +kernel
  exact hcount i hi ▸ h

/-- Eight entries that mention 136 numbers, and then a ninth for packet 1. -/
def crowdedNack : List UInt8 :=
  genericNack ((List.range 8).map (fun k ↦ (100 * (k + 1), 0xFFFF)) ++ [(1, 0)])

/-- A BYE, and a NACK for packet 1. -/
def farewellNack : List UInt8 :=
  [0x80, 203, 0, 0] ++ genericNack [(1, 0)]

/-- A number behind 128 others is not answered, and neither is a NACK that comes with a BYE. -/
theorem not_recent_packets_repairable :
    (¬ ∀ (lib : Libraries) (s s' : RtcSession) (as : List MediaSend)
      (sent : List (UInt16 × List UInt8)) (e : RtcEvent) (packet : List UInt8) (i : ℕ)
      (hi : i < sent.length), lib.ShortTrailer → s.view.InPhase → 0 ≤ s.udpFd →
      s.state = .streaming → mediaSends lib s as = some sent →
      Run.exec (rtcStep lib) s (as.map MediaSend.event) = some s' → DeliversRtcp lib s' e packet →
      sent.length ≤ i + 512 → hasBye packet = false →
      ResentTimes s' (rtcCall lib s' e) sent[i].1.toNat sent[i].2
        ((nackMentions packet).count sent[i].1.toNat)) ∧
    ¬ ∀ (lib : Libraries) (s s' : RtcSession) (as : List MediaSend)
      (sent : List (UInt16 × List UInt8)) (e : RtcEvent) (packet : List UInt8) (i : ℕ)
      (hi : i < sent.length), lib.ShortTrailer → s.view.InPhase → 0 ≤ s.udpFd →
      s.state = .streaming → mediaSends lib s as = some sent →
      Run.exec (rtcStep lib) s (as.map MediaSend.event) = some s' → DeliversRtcp lib s' e packet →
      sent.length ≤ i + 512 → (nackMentions packet).length ≤ 128 →
      ResentTimes s' (rtcCall lib s' e) sent[i].1.toNat sent[i].2
        ((nackMentions packet).count sent[i].1.toNat) := by
  obtain ⟨s, s', ctx, hphase, hfd, hstate, hsent, hrun, hready, hctx⟩ := exists_sampleSent
  have hlib := shortTrailer_sampleLibraries
  have hstate' := (sent_mediaSends hlib hstate hsent hrun).1.state.trans hstate
  have hcrowded := deliversRtcp_sampleRtcp hready hctx crowdedNack (by decide +kernel)
    (by decide +kernel) (by decide +kernel)
  have hfarewell := deliversRtcp_sampleRtcp hready hctx farewellNack (by decide +kernel)
    (by decide +kernel) (by decide +kernel)
  -- The number of answers is that of `nackSeqs`, and no other.
  have hcontra : ∀ (e : RtcEvent) (n : ℕ), (nackSeqs sampleLibraries s' e).count 1 ≠ n →
      ¬ ResentTimes s' (rtcCall sampleLibraries s' e) 1 sampleSent[0].2 n := fun e n hne h ↦ by
    have h' := resentTimes_recent hlib hphase hfd hstate hsent hrun e (Nat.zero_lt_succ 2) (by decide)
    have := congrArg List.length (h'.symm.trans h)
    simp only [List.length_replicate] at this
    exact hne this
  refine ⟨fun hall ↦ ?_, fun hall ↦ ?_⟩
  · refine hcontra (sampleRtcp crowdedNack) _ ?_ (hall sampleLibraries s s' sampleSends
      sampleSent _ crowdedNack 0 (Nat.zero_lt_succ 2) hlib hphase hfd hstate hsent hrun hcrowded
      (by decide) (by decide +kernel))
    rw [nackSeqs_of_deliversRtcp hstate' hcrowded]
    show List.count 1 _ ≠ (nackMentions crowdedNack).count 1
    decide +kernel
  · refine hcontra (sampleRtcp farewellNack) _ ?_ (hall sampleLibraries s s' sampleSends
      sampleSent _ farewellNack 0 (Nat.zero_lt_succ 2) hlib hphase hfd hstate hsent hrun
      hfarewell (by decide) (by decide +kernel))
    rw [nackSeqs_of_deliversRtcp hstate' hfarewell]
    show List.count 1 _ ≠ (nackMentions farewellNack).count 1
    decide +kernel

end Camstream
