import Camstream.Lib.DirectMapped
import Camstream.Session.Destination

/-!
# Retransmission

Which packet answers a NACK. The retransmission cache is direct-mapped: a protected packet enters the slot
of its sequence number modulo 512, and after any run a slot holds the latest protected packet that belongs
there (`cached_of_run`). A slot is all that is looked at when a NACK comes in, so the packet that is sent
again need not be the one that was asked for.

What libsrtp does to the header matters, because the number of a protected packet is read off its header.
`Libraries.KeepsHeaders` is what its documentation says.
-/

namespace Camstream

open DirectMapped

variable {lib : Libraries} {env : CreateAnswers} {config : RtcSessionConfig} {s₀ s s' : RtcSession}
  {es : List RtcEvent} {e : RtcEvent} {asked : List ℕ} {v w : SessionView}

/-- The longest trailer libsrtp appends to a packet: tag and key identifier. -/
def srtpMaxTrailerLen : ℕ := 144

/-- Protection leaves the RTP header in the clear, and appends a trailer at most. -/
structure Libraries.KeepsHeaders (lib : Libraries) : Prop where
  header_eq {key : List UInt8} {calls : ℕ} {pkt data : List UInt8} :
    lib.srtpProtect key calls pkt = some data → rtpHeaderSize ≤ pkt.length →
      data.take rtpHeaderSize = pkt.take rtpHeaderSize
  length_le {key : List UInt8} {calls : ℕ} {pkt data : List UInt8} :
    lib.srtpProtect key calls pkt = some data → data.length ≤ pkt.length + srtpMaxTrailerLen

/-- The sequence number in the header of a packet. -/
def rtpSequence (data : List UInt8) : ℕ :=
  Bytes.readBe16 data 2

/-- The slot of the cache a packet belongs to. -/
def retxSlot (data : List UInt8) : ℕ :=
  rtpSequence data % retxCacheSize

/-- The packets a session has protected, newest first. -/
def protectedPackets (log : List Effect) : List (List UInt8) :=
  log.filterMap fun e ↦
    match e with
    | .rtpProtected data => some data
    | _ => none

/-- A field of the header is a field of the packet. -/
theorem readBe16_take {l : List UInt8} {i n : ℕ} (hn : n ≤ l.length) (hi : i + 2 ≤ n) :
    Bytes.readBe16 (l.take n) i = Bytes.readBe16 l i := by
  have hlen : i + 2 ≤ (l.take n).length := by
    rw [List.length_take, Nat.min_eq_left hn]
    exact hi
  rw [← Bytes.readBe16_append_left hlen (l.drop n), List.take_append_drop]

/-! ### The cache -/

/-- The cache holds, in each slot, the latest protected packet that belongs there. -/
def SessionView.Cached (v : SessionView) : Prop :=
  v.cache = latest retxSlot (protectedPackets v.log)

/-- A protected packet has the number it was sent with, and fits the cache. -/
theorem protected_spec (hlib : lib.KeepsHeaders) {call : SinkCall} (hcall : call.WellFormed)
    (hfits : call.packet.length ≤ rtpMaxPacket + 64) {key : List UInt8} {calls : ℕ}
    {data : List UInt8} (hdata : lib.srtpProtect key calls call.packet = some data) :
    rtpSequence data = call.sequence.toNat ∧ cacheEntry data (data.length % 2 ^ 16) = some data := by
  have hlong : rtpHeaderSize ≤ call.packet.length := by
    rw [hcall.length_eq]
    exact Nat.le_add_right _ _
  have hheader := hlib.header_eq hdata hlong
  have hlen : rtpHeaderSize ≤ data.length := by
    have := congrArg List.length hheader
    rw [List.length_take, List.length_take, Nat.min_eq_left hlong] at this
    omega
  refine ⟨?_, ?_⟩
  · rw [rtpSequence, ← readBe16_take hlen (by decide), hheader, readBe16_take hlong (by decide),
      hcall.sequence_eq]
  · have hshort := hlib.length_le hdata
    rw [rtpHeaderSize] at hlen
    rw [rtpMaxPacket] at hfits
    rw [srtpMaxTrailerLen] at hshort
    rw [Nat.mod_eq_of_lt (by omega), cacheEntry, if_pos (by omega), List.take_length]

/-- **Every inner step keeps the cache.** -/
theorem InnerStep.cached (hlib : lib.KeepsHeaders) (hs : InnerStep lib asked v w) (h : v.Cached) :
    w.Cached := by
  cases hs with
  | effect e he =>
    refine h.trans (congrArg (latest retxSlot) ?_)
    cases e with
    | sendStun | rtcpProtected | fingerprintCompared | idrRequest => rfl
    | sendUdp | rtpProtected | closedHook => exact absurd he id
  | send kind data hremote hkind => exact h
  | store call key calls data hcall hfits hdata =>
    obtain ⟨hsequence, hentry⟩ := protected_spec hlib hcall hfits hdata
    show Function.update v.cache _ _ = latest retxSlot (data :: protectedPackets v.log)
    rw [latest_cons, retxSlot, hsequence, hentry, ← h]
  | handshake hstate => exact h
  | connect hstate hfp => exact h
  | close hstate =>
    refine h.trans (congrArg (latest retxSlot) ?_)
    show protectedPackets v.log =
      protectedPackets (if v.config.onClosed then .closedHook :: v.log else v.log)
    split_ifs <;> rfl

/-- **The cache after a run.** -/
theorem cached_of_run (hlib : lib.KeepsHeaders) (hcreate : rtcSessionCreate env config = some s₀)
    (hrun : Run.exec (rtcStep lib) s₀ es = some s) : s.view.Cached := by
  refine (run_invariant (P := fun t ↦ t.view.Cached) (fun t e ht h ↦ ?_)
    (lifecycle_rtcSessionCreate hcreate) ?_ hrun).2
  · refine (view_rtcCall lib t ht.inPhase e).preserves (fun _ _ ↦ InnerStep.cached hlib) ?_
    obtain ⟨hlog, hcache, -⟩ := t.view.front_spec lib e
    rw [SessionView.Cached, hcache, hlog]
    exact h
  · obtain ⟨-, -, -, -, -, -, -, -, hlen, -, hlog⟩ := rtcSessionCreate_spec hcreate
    rw [SessionView.Cached, show s₀.view.log = [] from hlog]
    funext slot
    show cacheEntry (s₀.retxData slot) (s₀.retxLen slot) = none
    rw [hlen, cacheEntry, if_neg (Nat.lt_irrefl 0)]

/-! ### What is sent again -/

/-- The datagram that answers a NACK, if the slot is taken. -/
def SessionView.answer (v : SessionView) (seq : ℕ) : Option Effect :=
  (v.cache (seq % retxCacheSize)).map fun data ↦ .sendUdp (.retransmission seq) data v.remote

/-- Answering NACKs logs the answers. -/
theorem foldl_resend (hfd : 0 ≤ v.udpFd) (hremote : v.haveRemote = true) (seqs : List ℕ) :
    seqs.foldl SessionView.resend v =
      { v with log := (seqs.filterMap v.answer).reverse ++ v.log } := by
  induction seqs generalizing v with
  | nil => rfl
  | cons seq seqs ih =>
    have hopen : ¬ (v.udpFd < 0 ∨ (!v.haveRemote) = true) := by
      rw [hremote]
      rintro (hlt | hfalse)
      · exact absurd hfd (Int.not_le.2 hlt)
      · exact nomatch hfalse
    rw [List.foldl_cons, SessionView.resend, List.filterMap_cons, SessionView.answer]
    rcases v.cache (seq % retxCacheSize) with - | data
    · exact ih hfd hremote
    · dsimp only [Option.map_some]
      rw [if_neg hopen, ih (v := v.emit _) hfd hremote, List.reverse_cons, List.append_assoc]
      rfl

/-- **What an operation sends**: the answers to the NACKs it receives, and nothing else a second time. -/
theorem sentDuring_eq_answers (lib : Libraries) (hphase : s.view.InPhase) (hfd : 0 ≤ s.udpFd) (e : RtcEvent) :
    ∃ new, sentDuring s (rtcCall lib s e) =
        ((nackSeqs lib s e).filterMap s.view.answer).reverse ++ new ∧
      ∀ seq data dest, .sendUdp (.retransmission seq) data dest ∉ new := by
  rcases eq_or_ne (nackSeqs lib s e) [] with hnone | hsome
  · -- No other operation sends anything a second time.
    obtain ⟨new, hlog, hnew⟩ := (view_rtcCall lib s hphase e).sends
    rw [(s.view.front_spec lib e).1] at hlog
    refine ⟨new, ?_, fun seq data dest hmem ↦ ?_⟩
    · rw [hnone]
      exact sentDuring_eq hlog
    · have hseq := (hnew _ data dest hmem).2 seq rfl
      rw [hnone] at hseq
      exact absurd hseq List.not_mem_nil
  · obtain ⟨ans, call⟩ := e
    cases call with
    | tick | sendAccessUnit | close | destroy => exact absurd rfl hsome
    | onUdp buffer length source =>
      set t : RtcSession := { s with lastRxMs := ans.rxMs }
      rw [← nackSeqs_arrive lib s _ ans.rxMs] at hsome
      obtain ⟨hstreaming, hclass, u, htalk, hview⟩ := view_onUdpRtp_of_nackSeqs lib ans t hsome
      rw [nackSeqs_arrive lib s _ ans.rxMs] at hview
      have honUdp : rtcCall lib s ⟨ans, .onUdp buffer length source⟩ =
          onUdpRtp lib ans t buffer length := by
        show rtcSessionOnUdp lib ans s buffer length source = _
        have hopen : s.state ≠ .closed := by
          rw [show s.state = .streaming from hstreaming]
          decide
        rw [rtcSessionOnUdp, if_neg hopen]
        dsimp only
        rw [hclass]
      have hremote : s.haveRemote = true := by
        have := hphase
        simp only [SessionView.InPhase, RtcSession.view, show s.state = .streaming from hstreaming]
          at this
        exact this.2.2.2
      obtain ⟨new, hnew, rfl⟩ := htalk
      rw [foldl_resend hfd hremote] at hview
      have hlog : (rtcCall lib s ⟨ans, .onUdp buffer length source⟩).log =
          (((nackSeqs lib s ⟨ans, .onUdp buffer length source⟩).filterMap s.view.answer).reverse ++
            new) ++ s.log := by
        rw [honUdp, List.append_assoc]
        exact congrArg SessionView.log hview
      refine ⟨new, sentDuring_eq hlog, fun seq data dest hmem ↦ ?_⟩
      rcases hnew _ hmem with hquiet | ⟨kind, data', heq, -, hfresh⟩
      · exact absurd hquiet id
      · obtain ⟨rfl, -⟩ := Effect.sendUdp.inj heq
        exact absurd hfresh id

/-- **What an operation sends again**: what the cache holds for the numbers it is asked for. -/
theorem retransmission_mem_iff (hphase : s.view.InPhase) (hfd : 0 ≤ s.udpFd) {seq : ℕ}
    {data : List UInt8} {dest : SockAddr} :
    .sendUdp (.retransmission seq) data dest ∈ sentDuring s (rtcCall lib s e) ↔
      seq ∈ nackSeqs lib s e ∧ s.view.cache (seq % retxCacheSize) = some data ∧ dest = s.remote := by
  obtain ⟨new, hsent, hnew⟩ := sentDuring_eq_answers lib hphase hfd e
  rw [hsent, List.mem_append, List.mem_reverse, List.mem_filterMap,
    or_iff_left (hnew seq data dest)]
  constructor
  · rintro ⟨seq', hseq, hanswer⟩
    obtain ⟨data', hdata, heq⟩ := Option.map_eq_some_iff.1 hanswer
    obtain ⟨hkind, rfl, rfl⟩ := Effect.sendUdp.inj heq
    obtain rfl := UdpKind.retransmission.inj hkind
    exact ⟨hseq, hdata, rfl⟩
  · rintro ⟨hseq, hdata, rfl⟩
    exact ⟨seq, hseq, Option.map_eq_some_iff.2 ⟨data, hdata, rfl⟩⟩

/-- A created session keeps its socket. -/
theorem udpFd_of_run (hcreate : rtcSessionCreate env config = some s₀)
    (hrun : Run.exec (rtcStep lib) s₀ es = some s) : 0 ≤ s.udpFd := by
  refine (run_invariant (P := fun t ↦ 0 ≤ t.udpFd) (fun t e ht h ↦ ?_)
    (lifecycle_rtcSessionCreate hcreate) (rtcSessionCreate_spec hcreate).2.2.1 hrun).2
  have hframe : (rtcCall lib t e).udpFd = (t.view.front lib e).udpFd :=
    congrArg SessionFrame.udpFd (view_rtcCall lib t ht.inPhase e).frame_eq
  rw [hframe, (t.view.front_spec lib e).2.2]
  exact h

/-! ### The packet that was asked for -/

/-- The latest protected packet with a given slot. -/
def latestProtected (log : List Effect) (seq : ℕ) : Option (List UInt8) :=
  latest retxSlot (protectedPackets log) (seq % retxCacheSize)

/-- A number is available when the latest packet of its slot has it. It is not when no packet with that
number was protected, and when a later one has taken the slot. -/
def Available (log : List Effect) (seq : ℕ) : Prop :=
  ∃ data, latestProtected log seq = some data ∧ rtpSequence data = seq

/-- What an operation sends again is what was asked for. -/
structure RightRetransmissions (s s' : RtcSession) : Prop where
  /-- Each packet sent again is a protected packet with the number that was asked for. -/
  identical {seq : ℕ} {data : List UInt8} {dest : SockAddr} :
    .sendUdp (.retransmission seq) data dest ∈ sentDuring s s' →
      .rtpProtected data ∈ s.log ∧ rtpSequence data = seq
  /-- Nothing is sent for a number that is not available. -/
  silent {seq : ℕ} (h : ¬ Available s.log seq) (data : List UInt8) (dest : SockAddr) :
    .sendUdp (.retransmission seq) data dest ∉ sentDuring s s'

/-- The latest packet of a number is one of those that were protected. -/
theorem mem_of_latestProtected {log : List Effect} {seq : ℕ} {data : List UInt8}
    (h : latestProtected log seq = some data) : .rtpProtected data ∈ log := by
  obtain ⟨e, he, hdata⟩ := List.mem_filterMap.1 (mem_of_latest h)
  cases e with
  | rtpProtected data' =>
    obtain rfl := Option.some.inj hdata
    exact he
  | sendUdp | sendStun | rtcpProtected | fingerprintCompared | idrRequest | closedHook => cases hdata

/-- **When a retransmission is the packet that was asked for.** After any run of a created session, an
operation sends again what was asked for, and nothing that is not available, exactly if no number in the
NACKs it receives belongs to a slot whose latest packet has another number. -/
theorem rightRetransmissions_iff (hlib : lib.KeepsHeaders)
    (hcreate : rtcSessionCreate env config = some s₀) (hrun : Run.exec (rtcStep lib) s₀ es = some s)
    (hstep : rtcStep lib s e = some s') :
    RightRetransmissions s s' ↔
      ∀ seq ∈ nackSeqs lib s e, ∀ data, latestProtected s.log seq = some data →
        rtpSequence data = seq := by
  obtain ⟨-, rfl⟩ := rtcStep_eq_some.1 hstep
  have hphase := (lifecycle_of_run hcreate hrun).inPhase
  have hfd := udpFd_of_run hcreate hrun
  have hcache (seq : ℕ) : s.view.cache (seq % retxCacheSize) = latestProtected s.log seq :=
    congrFun (cached_of_run hlib hcreate hrun) (seq % retxCacheSize)
  constructor
  · -- A slot that is taken is answered from, so the answer must have the right number.
    intro hright seq hseq data hdata
    have hmem : .sendUdp (.retransmission seq) data s.remote ∈ sentDuring s (rtcCall lib s e) :=
      (retransmission_mem_iff hphase hfd).2 ⟨hseq, (hcache seq).trans hdata, rfl⟩
    exact (hright.identical hmem).2
  · intro hagree
    have hsent {seq data dest} (hmem : .sendUdp (.retransmission seq) data dest ∈
        sentDuring s (rtcCall lib s e)) :
        latestProtected s.log seq = some data ∧ rtpSequence data = seq := by
      obtain ⟨hseq, hdata, -⟩ := (retransmission_mem_iff hphase hfd).1 hmem
      rw [hcache] at hdata
      exact ⟨hdata, hagree seq hseq data hdata⟩
    refine ⟨fun hmem ↦ ?_, fun hunavailable data dest hmem ↦ ?_⟩
    · obtain ⟨hdata, hsequence⟩ := hsent hmem
      exact ⟨mem_of_latestProtected hdata, hsequence⟩
    · exact hunavailable ⟨data, hsent hmem⟩

theorem keepsHeaders_sampleLibraries : sampleLibraries.KeepsHeaders := by
  refine ⟨fun h hlen ↦ ?_, fun h ↦ ?_⟩
  · obtain rfl := Option.some.inj h
    exact List.take_append_of_le_length hlen
  · obtain rfl := Option.some.inj h
    rw [List.length_append, List.length_replicate]
    exact Nat.add_le_add_left (by decide) _

/-- A NACK for one packet, protected as `sampleLibraries` does it. -/
def sampleNack (now seq : ℕ) (source : SockAddr) : RtcEvent :=
  let nack := [0x81, 205, 0, 3, 0, 0, 0, 0, 0, 0, 0, 0] ++ Bytes.be16 seq ++ [0, 0]
  ⟨sampleAnswers now, .onUdp (nack ++ List.replicate 14 0) 30 source⟩

theorem rightRetransmissions_iff_sample : ∃ s₀ s s',
    rtcSessionCreate sampleCreate (sampleConfig sampleFingerprint) = some s₀ ∧
    Run.exec (rtcStep sampleLibraries) s₀ (sampleRun.take 5) = some s ∧
    rtcStep sampleLibraries s (sampleNack 600 1 samplePeer) = some s' ∧
    sentDuring s s' ≠ [] ∧ RightRetransmissions s s' := by
  have hrun : ((rtcSessionCreate sampleCreate (sampleConfig sampleFingerprint)).bind fun s₀ ↦
      (Run.exec (rtcStep sampleLibraries) s₀ (sampleRun.take 5)).bind fun s ↦
        (rtcStep sampleLibraries s (sampleNack 600 1 samplePeer)).map fun s' ↦
          (nackSeqs sampleLibraries s (sampleNack 600 1 samplePeer),
            (latestProtected s.log 1).map rtpSequence, (sentDuring s s').length)) =
      some ([1], some 1, 1) := by decide +kernel
  obtain ⟨s₀, hcreate, hrun⟩ := Option.bind_eq_some_iff.1 hrun
  obtain ⟨s, hs, hrun⟩ := Option.bind_eq_some_iff.1 hrun
  obtain ⟨s', hs', hfacts⟩ := Option.map_eq_some_iff.1 hrun
  obtain ⟨hseqs, hlatest, hsent⟩ := by
    simpa only [Prod.mk.injEq] using hfacts
  refine ⟨s₀, s, s', hcreate, hs, hs', fun h ↦ ?_,
    (rightRetransmissions_iff keepsHeaders_sampleLibraries hcreate hs hs').2 ?_⟩
  · rw [h] at hsent
    exact nomatch hsent
  · intro seq hseq data hdata
    rw [hseqs, List.mem_singleton] at hseq
    subst hseq
    rw [hdata] at hlatest
    exact Option.some.inj hlatest

/-- One packet is sent, with the number 1. A NACK for the number 513, which nothing was sent with, is
answered with it. -/
theorem not_rightRetransmissions :
    ¬ ∀ (lib : Libraries) (env : CreateAnswers) (config : RtcSessionConfig) (s₀ s s' : RtcSession)
      (es : List RtcEvent) (e : RtcEvent), lib.KeepsHeaders →
      rtcSessionCreate env config = some s₀ → Run.exec (rtcStep lib) s₀ es = some s →
      rtcStep lib s e = some s' → RightRetransmissions s s' := by
  intro hall
  have hrun : ((rtcSessionCreate sampleCreate (sampleConfig sampleFingerprint)).bind fun s₀ ↦
      (Run.exec (rtcStep sampleLibraries) s₀ (sampleRun.take 5)).bind fun s ↦
        (rtcStep sampleLibraries s (sampleNack 600 513 samplePeer)).map fun s' ↦ sentDuring s s') =
      some [.sendUdp (.retransmission 513)
        [128, 224, 0, 1, 0, 0, 0, 0, 0, 0, 0, 7, 101, 1, 0, 0, 0, 0, 0, 0, 0, 0, 0, 0] samplePeer] := by
    decide +kernel
  obtain ⟨s₀, hcreate, hrun⟩ := Option.bind_eq_some_iff.1 hrun
  obtain ⟨s, hs, hrun⟩ := Option.bind_eq_some_iff.1 hrun
  obtain ⟨s', hs', hsent⟩ := Option.map_eq_some_iff.1 hrun
  have hright := hall sampleLibraries _ _ s₀ s s' _ _ keepsHeaders_sampleLibraries hcreate hs hs'
  have hsequence := (hright.identical (hsent ▸ List.mem_singleton_self _)).2
  exact absurd hsequence (by decide)

end Camstream
