import Mathlib.Algebra.GroupWithZero.Nat
import Camstream.Rtp.Packets

/-!
# The packetizer's books over a whole run

A packetizer lives through many access units and is reset in between. `RtpHistory` keeps, beside the
packetizer itself, what it has delivered: all packets ever, those since the last reset, and the access
units accepted since then. Every history of calls satisfies `Bookkeeping` (`bookkeeping_run`): the
sequence numbers run on across access units and resets, the two report counters count what was delivered
since the last reset, and the timestamps follow the 90 kHz clock from the first access unit after it.

What a call does to the packetizer is `Delivers`: counters advanced by the packets handed out, everything
else kept. It composes, so one packet is all there is to check.
-/

namespace Camstream

open AnnexB Bytes

/-! ### Delivering packets -/

/-- RTP payload bytes of the packets. -/
def octetsOf (cs : List SinkCall) : ℕ :=
  (cs.map fun c ↦ c.packet.length - rtpHeaderSize).sum

/-- `p'` is the packetizer `p` after it has delivered `cs`. -/
structure Delivers (rtpTs : UInt32) (p : RtpH264) (cs : List SinkCall) (p' : RtpH264) : Prop where
  sequence : p'.sequence = p.sequence + UInt16.ofNat cs.length
  packets : p'.packets = p.packets + UInt32.ofNat cs.length
  octets : p'.octets = p.octets + UInt32.ofNat (octetsOf cs)
  kept : { p' with sequence := p.sequence, packets := p.packets, octets := p.octets } = p
  numbered : ∀ i (h : i < cs.length), cs[i].sequence = p.sequence + UInt16.ofNat (i + 1)
  stamped : ∀ c ∈ cs, readBe32 c.packet 4 = rtpTs.toNat
  typed : ∀ c ∈ cs, c.packet.getD 1 0 &&& 0x7F = (p.payloadType &&& 0x7F).toUInt8

theorem octetsOf_append (cs ds : List SinkCall) : octetsOf (cs ++ ds) = octetsOf cs + octetsOf ds := by
  rw [octetsOf, List.map_append, List.sum_append_nat]
  rfl

variable {rtpTs : UInt32} {p p' p'' : RtpH264}

theorem Delivers.nil (rtpTs : UInt32) (p : RtpH264) : Delivers rtpTs p [] p where
  sequence := (UInt16.add_zero _).symm
  packets := (UInt32.add_zero _).symm
  octets := (UInt32.add_zero _).symm
  kept := rfl
  numbered _ h := absurd h (Nat.not_lt_zero _)
  stamped _ h := absurd h List.not_mem_nil
  typed _ h := absurd h List.not_mem_nil

theorem Delivers.payloadType_eq {cs : List SinkCall} (h : Delivers rtpTs p cs p') :
    p'.payloadType = p.payloadType := by
  rw [← h.kept]

/-- Deliveries compose. -/
theorem Delivers.append {cs ds : List SinkCall} (h : Delivers rtpTs p cs p')
    (h' : Delivers rtpTs p' ds p'') : Delivers rtpTs p (cs ++ ds) p'' where
  sequence := by
    rw [h'.sequence, h.sequence, List.length_append, UInt16.ofNat_add, UInt16.add_assoc]
  packets := by
    rw [h'.packets, h.packets, List.length_append, UInt32.ofNat_add, UInt32.add_assoc]
  octets := by
    rw [h'.octets, h.octets, octetsOf_append, UInt32.ofNat_add, UInt32.add_assoc]
  kept := by
    have hk := h'.kept
    conv_rhs => rw [← h.kept, ← hk]
  numbered i hi := by
    -- The second part is numbered on from the first.
    by_cases hlt : i < cs.length
    · rw [List.getElem_append_left hlt]
      exact h.numbered i hlt
    · rw [List.getElem_append_right (by omega), h'.numbered, h.sequence, UInt16.add_assoc,
        ← UInt16.ofNat_add]
      congr 2
      omega
  stamped c hc := by
    rcases List.mem_append.1 hc with hc | hc
    · exact h.stamped c hc
    · exact h'.stamped c hc
  typed c hc := by
    rcases List.mem_append.1 hc with hc | hc
    · exact h.typed c hc
    · rw [h'.typed c hc, h.payloadType_eq]

/-- The low seven bits of the second byte are those of the payload type. -/
theorem markerByte_and_7F (marker : Bool) (pt : UInt32) :
    ((if marker then 0x80 else 0x00) ||| (pt &&& 0x7F).toUInt8 : UInt8) &&& 0x7F =
      (pt &&& 0x7F).toUInt8 := by
  rw [UInt32.toUInt8_and]
  exact forall_byte (P := fun b ↦ (((if marker then 0x80 else 0x00) ||| (b &&& 0x7F) : UInt8)
    &&& 0x7F) = b &&& 0x7F) (by cases marker <;> decide +kernel) pt.toUInt8

/-- One packet. -/
theorem emitPacket_delivers (rtpTs : UInt32) (st : PacketizeState) (marker : Bool)
    (payload : List UInt8) :
    ∃ c, (emitPacket rtpTs st marker payload).calls = st.calls ++ [c] ∧
      Delivers rtpTs st.p [c] (emitPacket rtpTs st marker payload).p := by
  set p := { st.p with sequence := st.p.sequence + 1 } with hp
  set c : SinkCall := ⟨rtpHeader p rtpTs marker ++ payload, marker, p.sequence⟩ with hc
  have hoctets : octetsOf [c] = payload.length := by
    show (rtpHeader p rtpTs marker ++ payload).length - rtpHeaderSize + 0 = payload.length
    rw [List.length_append, length_rtpHeader]
    omega
  refine ⟨c, rfl, rfl, rfl, ?_, rfl, ?_, ?_, ?_⟩
  · rw [hoctets]
    rfl
  · intro i hi
    obtain rfl : i = 0 := by
      rw [List.length_singleton] at hi
      omega
    rfl
  · intro c' hc'
    obtain rfl := List.mem_singleton.1 hc'
    exact readBe32_be32 rtpTs.toNat_lt
  · intro c' hc'
    obtain rfl := List.mem_singleton.1 hc'
    exact markerByte_and_7F marker st.p.payloadType

theorem emitAll_delivers (rtpTs : UInt32) (st : PacketizeState) (plan : List (List UInt8 × Bool)) :
    ∃ cs, (emitAll rtpTs st plan).calls = st.calls ++ cs ∧
      Delivers rtpTs st.p cs (emitAll rtpTs st plan).p := by
  induction plan generalizing st with
  | nil => exact ⟨[], (List.append_nil _).symm, .nil rtpTs st.p⟩
  | cons x plan ih =>
    obtain ⟨c, hc, hone⟩ := emitPacket_delivers rtpTs st x.2 x.1
    obtain ⟨cs, hcs, hrest⟩ := ih (emitPacket rtpTs st x.2 x.1)
    refine ⟨c :: cs, ?_, hone.append hrest⟩
    rw [emitAll_cons, hcs, hc, List.append_assoc]
    rfl

/-- **One call on an access unit**: the packets are delivered by the packetizer with its timestamp
settled. -/
theorem rtpH264Packetize_delivers (p : RtpH264) {au : List UInt8} (h : au ≠ []) (ptsUs : UInt64) :
    Delivers (beginAccessUnit p ptsUs).lastTimestamp (beginAccessUnit p ptsUs) (sinkCalls p au ptsUs)
      (rtpH264Packetize p au ptsUs).1 := by
  obtain ⟨cs, hcs, hd⟩ := emitAll_delivers (beginAccessUnit p ptsUs).lastTimestamp
    ⟨beginAccessUnit p ptsUs, [], 0⟩ (auPlan (units au))
  rw [List.nil_append] at hcs
  rw [sinkCalls, rtpH264Packetize_eq h]
  simp only [hcs]
  exact hd

/-- Settling the timestamp touches no counter. -/
theorem beginAccessUnit_counters (p : RtpH264) (ptsUs : UInt64) :
    (beginAccessUnit p ptsUs).sequence = p.sequence ∧ (beginAccessUnit p ptsUs).packets = p.packets ∧
      (beginAccessUnit p ptsUs).octets = p.octets := by
  rw [beginAccessUnit]
  cases p.haveBase <;> exact ⟨rfl, rfl, rfl⟩

theorem beginAccessUnit_payloadType (p : RtpH264) (ptsUs : UInt64) :
    (beginAccessUnit p ptsUs).payloadType = p.payloadType := by
  rw [beginAccessUnit]
  cases p.haveBase <;> rfl

/-- The numbers of one call continue those of the packetizer. -/
theorem sinkCalls_numbered (p : RtpH264) (au : List UInt8) (ptsUs : UInt64) :
    (∀ i (h : i < (sinkCalls p au ptsUs).length),
      (sinkCalls p au ptsUs)[i].sequence = p.sequence + UInt16.ofNat (i + 1)) ∧
      (rtpH264Packetize p au ptsUs).1.sequence =
        p.sequence + UInt16.ofNat (sinkCalls p au ptsUs).length := by
  by_cases hau : au = []
  · rw [hau]
    exact ⟨fun i h ↦ absurd h (Nat.not_lt_zero i), (UInt16.add_zero _).symm⟩
  · have hd := rtpH264Packetize_delivers p hau ptsUs
    obtain ⟨hsequence, -, -⟩ := beginAccessUnit_counters p ptsUs
    rw [← hsequence]
    exact ⟨hd.numbered, hd.sequence⟩

/-! ### Histories -/

/-- `rtp_h264_packet_count` -/
def rtpH264PacketCount (p : RtpH264) : UInt32 := p.packets

/-- `rtp_h264_octet_count` -/
def rtpH264OctetCount (p : RtpH264) : UInt32 := p.octets

/-- `rtp_h264_last_timestamp` -/
def rtpH264LastTimestamp (p : RtpH264) : UInt32 := p.lastTimestamp

/-- A call on a packetizer. -/
inductive RtpCall where
  | packetize (au : List UInt8) (ptsUs : UInt64)
  | reset (ssrc payloadType : UInt32)

/-- An access unit that was accepted: its time, its packets, and the timestamp the packetizer reports
afterwards. -/
structure AccessUnitSent where
  ptsUs : UInt64
  calls : List SinkCall
  timestamp : UInt32

/-- A packetizer and what it has done: all packets ever delivered, and since the last reset the packets
and the access units accepted. -/
structure RtpHistory where
  p : RtpH264
  delivered : List SinkCall
  sinceReset : List SinkCall
  sent : List AccessUnitSent

/-- A call, recorded. A call that fails returns `-1`. -/
def RtpHistory.step (h : RtpHistory) : RtpCall → RtpHistory
  | .packetize au ptsUs =>
    let (p, calls, emitted) := rtpH264Packetize h.p au ptsUs
    { p := p
      delivered := h.delivered ++ calls
      sinceReset := h.sinceReset ++ calls
      sent := if emitted < 0 then h.sent
        else h.sent ++ [⟨ptsUs, calls, rtpH264LastTimestamp p⟩] }
  | .reset ssrc payloadType =>
    { h with p := rtpH264Reset h.p ssrc payloadType, sinceReset := [], sent := [] }

/-- The history of a sequence of calls on a new packetizer. -/
def RtpHistory.run (es : List RtpCall) : RtpHistory :=
  es.foldl RtpHistory.step ⟨rtpH264Create, [], [], []⟩

theorem RtpHistory.step_packetize_nil (h : RtpHistory) (ptsUs : UInt64) :
    h.step (.packetize [] ptsUs) = h := by
  simp only [step, rtpH264Packetize_nil, List.append_nil, Int.reduceNeg, Int.reduceLT, if_true]

/-- An access unit that is not empty is accepted. -/
theorem RtpHistory.step_packetize (h : RtpHistory) {au : List UInt8} (hau : au ≠ []) (ptsUs : UInt64) :
    h.step (.packetize au ptsUs) =
      { p := (rtpH264Packetize h.p au ptsUs).1
        delivered := h.delivered ++ sinkCalls h.p au ptsUs
        sinceReset := h.sinceReset ++ sinkCalls h.p au ptsUs
        sent := h.sent ++ [⟨ptsUs, sinkCalls h.p au ptsUs,
          (beginAccessUnit h.p ptsUs).lastTimestamp⟩] } := by
  have hemitted : ¬ (rtpH264Packetize h.p au ptsUs).2.2 < 0 := by
    rw [rtpH264Packetize_eq hau]
    simp only [emitAll_emitted]
    omega
  have hlast : rtpH264LastTimestamp (rtpH264Packetize h.p au ptsUs).1 =
      (beginAccessUnit h.p ptsUs).lastTimestamp := by
    rw [rtpH264LastTimestamp, ← (rtpH264Packetize_delivers _ hau _).kept]
  simp only [step]
  rw [if_neg hemitted, hlast]
  rfl

/-! ### What every history satisfies -/

/-- The 90 kHz clock of the source, started at `base`. -/
def mediaTimestamp (base ptsUs : UInt64) : UInt32 :=
  ((if base ≤ ptsUs then ptsUs - base else 0) * 90000 / 1000000).toUInt32

theorem beginAccessUnit_lastTimestamp (p : RtpH264) (ptsUs : UInt64) :
    (beginAccessUnit p ptsUs).lastTimestamp =
      mediaTimestamp (beginAccessUnit p ptsUs).basePtsUs ptsUs := by
  rw [beginAccessUnit]
  cases p.haveBase <;> rfl

/-- The packetizer agrees with the record. -/
structure RtpHistory.Consistent (h : RtpHistory) : Prop where
  sequence : h.p.sequence = UInt16.ofNat h.delivered.length
  numbered : ∀ i (hi : i < h.delivered.length), h.delivered[i].sequence = UInt16.ofNat (i + 1)
  wellFormed : ∀ c ∈ h.delivered, c.WellFormed
  packets : h.p.packets = UInt32.ofNat h.sinceReset.length
  octets : h.p.octets = UInt32.ofNat (octetsOf h.sinceReset)
  stamped : ∀ s ∈ h.sent, ∀ c ∈ s.calls, readBe32 c.packet 4 = s.timestamp.toNat
  base : h.sent.head?.map AccessUnitSent.ptsUs =
    if h.p.haveBase then some h.p.basePtsUs else none
  timestamp : ∀ s ∈ h.sent, s.timestamp = mediaTimestamp h.p.basePtsUs s.ptsUs

theorem RtpHistory.consistent_create : Consistent ⟨rtpH264Create, [], [], []⟩ where
  sequence := rfl
  numbered _ h := absurd h (Nat.not_lt_zero _)
  wellFormed _ h := absurd h List.not_mem_nil
  packets := rfl
  octets := rfl
  stamped _ h := absurd h List.not_mem_nil
  base := rfl
  timestamp _ h := absurd h List.not_mem_nil

/-- A reset forgets what was counted and keeps the sequence. -/
theorem RtpHistory.Consistent.reset {h : RtpHistory} (hc : h.Consistent) (ssrc payloadType : UInt32) :
    (h.step (.reset ssrc payloadType)).Consistent where
  sequence := hc.sequence
  numbered := hc.numbered
  wellFormed := hc.wellFormed
  packets := rfl
  octets := rfl
  stamped _ h := absurd h List.not_mem_nil
  base := rfl
  timestamp _ h := absurd h List.not_mem_nil

/-- A packetizer that was used knows the base of its clock. -/
theorem rtpH264Packetize_base (p : RtpH264) {au : List UInt8} (hau : au ≠ []) (ptsUs : UInt64) :
    (rtpH264Packetize p au ptsUs).1.haveBase = true ∧
      (rtpH264Packetize p au ptsUs).1.basePtsUs = (beginAccessUnit p ptsUs).basePtsUs := by
  have hhave : (beginAccessUnit p ptsUs).haveBase = true := by
    rw [beginAccessUnit]
    cases hb : p.haveBase
    · rfl
    · exact hb
  have hkept := (rtpH264Packetize_delivers p hau ptsUs).kept
  rw [← hkept] at hhave ⊢
  exact ⟨hhave, rfl⟩

/-- The base of the clock is the time of the first access unit: before it nothing is recorded, and
afterwards the base stays. -/
theorem RtpHistory.Consistent.base_cases {h : RtpHistory} (hc : h.Consistent) (ptsUs : UInt64) :
    h.sent = [] ∧ (beginAccessUnit h.p ptsUs).basePtsUs = ptsUs ∨
      h.sent.head?.map AccessUnitSent.ptsUs = some h.p.basePtsUs ∧
        (beginAccessUnit h.p ptsUs).basePtsUs = h.p.basePtsUs := by
  have hrecord := hc.base
  rw [beginAccessUnit]
  cases hb : h.p.haveBase
  · rw [hb, if_neg Bool.false_ne_true, Option.map_eq_none_iff, List.head?_eq_none_iff] at hrecord
    exact Or.inl ⟨hrecord, rfl⟩
  · rw [hb, if_pos rfl] at hrecord
    exact Or.inr ⟨hrecord, rfl⟩

/-- An access unit keeps the agreement. -/
theorem RtpHistory.Consistent.packetize {h : RtpHistory} (hc : h.Consistent) (au : List UInt8)
    (ptsUs : UInt64) : (h.step (.packetize au ptsUs)).Consistent := by
  by_cases hau : au = []
  · rw [hau, step_packetize_nil]
    exact hc
  have hd := rtpH264Packetize_delivers h.p hau ptsUs
  obtain ⟨hhave, hbase⟩ := rtpH264Packetize_base h.p hau ptsUs
  obtain ⟨hsequence, hpackets, hoctets⟩ := beginAccessUnit_counters h.p ptsUs
  rw [step_packetize h hau]
  constructor
  case sequence => rw [hd.sequence, hsequence, hc.sequence, ← UInt16.ofNat_add, List.length_append]
  case numbered =>
    intro i hi
    show (h.delivered ++ sinkCalls h.p au ptsUs)[i].sequence = _
    -- The packets from before, and those of this access unit, numbered on from them.
    by_cases hlt : i < h.delivered.length
    · rw [List.getElem_append_left hlt]
      exact hc.numbered i hlt
    · rw [List.getElem_append_right (Nat.le_of_not_lt hlt), hd.numbered, hsequence, hc.sequence,
        ← UInt16.ofNat_add]
      congr 1
      omega
  case wellFormed =>
    intro c hmem
    rcases List.mem_append.1 hmem with hmem | hmem
    · exact hc.wellFormed c hmem
    · exact sinkCalls_wellFormed h.p au ptsUs c hmem
  case packets => rw [hd.packets, hpackets, hc.packets, ← UInt32.ofNat_add, List.length_append]
  case octets => rw [hd.octets, hoctets, hc.octets, ← UInt32.ofNat_add, octetsOf_append]
  case stamped =>
    intro s hs
    rcases List.mem_append.1 hs with hs | hs
    · exact hc.stamped s hs
    · obtain rfl := List.mem_singleton.1 hs
      exact hd.stamped
  case base =>
    show (h.sent ++ [_]).head?.map _ = if (rtpH264Packetize h.p au ptsUs).1.haveBase then _ else _
    rw [hhave, if_pos rfl, hbase]
    -- The base is set by the first access unit and then stays.
    rcases hc.base_cases ptsUs with ⟨hnil, hb⟩ | ⟨hsome, hb⟩
    · rw [hnil, hb]
      rfl
    · rw [List.head?_append_of_ne_nil, hsome, hb]
      rintro hnil
      rw [hnil] at hsome
      exact absurd hsome (by simp)
  case timestamp =>
    intro s hs
    show s.timestamp = mediaTimestamp (rtpH264Packetize h.p au ptsUs).1.basePtsUs s.ptsUs
    rw [hbase]
    rcases List.mem_append.1 hs with hs | hs
    · rcases hc.base_cases ptsUs with ⟨hnil, -⟩ | ⟨-, hb⟩
      · rw [hnil] at hs
        exact absurd hs List.not_mem_nil
      · rw [hb]
        exact hc.timestamp s hs
    · obtain rfl := List.mem_singleton.1 hs
      exact beginAccessUnit_lastTimestamp h.p ptsUs

theorem RtpHistory.consistent_run (es : List RtpCall) : (run es).Consistent := by
  induction es using List.reverseRecOn with
  | nil => exact consistent_create
  | append_singleton es e ih =>
    rw [run, List.foldl_append]
    cases e with
    | packetize au ptsUs => exact ih.packetize au ptsUs
    | reset ssrc payloadType => exact ih.reset ssrc payloadType

/-! ### The law in numbers -/

/-- An access unit whose time the 64-bit product of the clock can measure from the first one. -/
def AccessUnitSent.Measured (first s : AccessUnitSent) : Prop :=
  first.ptsUs ≤ s.ptsUs ∧ (s.ptsUs.toNat - first.ptsUs.toNat) * 90000 < 2 ^ 64

/-- The bookkeeping law: one progression of sequence numbers over everything ever delivered; counters
that count what was delivered since the last reset; one timestamp in all packets of an access unit, the
one reported afterwards; and timestamps that are the exact 90 kHz time since the first access unit,
rounded down, so that any two of them are less than a tick away from the time between them. -/
structure RtpHistory.Bookkeeping (h : RtpHistory) : Prop where
  contiguous : ∀ i (hi : i < h.delivered.length),
    readBe16 h.delivered[i].packet 2 = (i + 1) % 2 ^ 16
  packets : (rtpH264PacketCount h.p).toNat = h.sinceReset.length % 2 ^ 32
  octets : (rtpH264OctetCount h.p).toNat =
    (h.sinceReset.map fun c ↦ c.packet.length - 12).sum % 2 ^ 32
  stamped : ∀ s ∈ h.sent, ∀ c ∈ s.calls, readBe32 c.packet 4 = s.timestamp.toNat
  timestamp : ∀ first ∈ h.sent.head?, ∀ s ∈ h.sent, first.Measured s →
    s.timestamp.toNat = (s.ptsUs.toNat - first.ptsUs.toNat) * 90000 / 10 ^ 6 % 2 ^ 32
  noDrift : ∀ first ∈ h.sent.head?, ∀ s ∈ h.sent, ∀ t ∈ h.sent, first.Measured s →
    first.Measured t → s.ptsUs ≤ t.ptsUs → ∃ ticks,
      t.timestamp.toNat = (s.timestamp.toNat + ticks) % 2 ^ 32 ∧
      ticks * 10 ^ 6 < (t.ptsUs.toNat - s.ptsUs.toNat) * 90000 + 10 ^ 6 ∧
      (t.ptsUs.toNat - s.ptsUs.toNat) * 90000 < ticks * 10 ^ 6 + 10 ^ 6

theorem toNat_mediaTimestamp {base ptsUs : UInt64} (hle : base ≤ ptsUs)
    (hlt : (ptsUs.toNat - base.toNat) * 90000 < 2 ^ 64) :
    (mediaTimestamp base ptsUs).toNat = (ptsUs.toNat - base.toNat) * 90000 / 10 ^ 6 % 2 ^ 32 := by
  have h90000 : (90000 : UInt64).toNat = 90000 := rfl
  rw [mediaTimestamp, if_pos hle, UInt64.toNat_toUInt32, UInt64.toNat_div, UInt64.toNat_mul,
    UInt64.toNat_sub_of_le _ _ hle, h90000, Nat.mod_eq_of_lt hlt]
  rfl

/-- Rounding down twice costs less than one tick. -/
theorem exists_ticks {a b : ℕ} (hab : a ≤ b) : ∃ ticks,
    b * 90000 / 10 ^ 6 % 2 ^ 32 = (a * 90000 / 10 ^ 6 % 2 ^ 32 + ticks) % 2 ^ 32 ∧
      ticks * 10 ^ 6 < (b - a) * 90000 + 10 ^ 6 ∧ (b - a) * 90000 < ticks * 10 ^ 6 + 10 ^ 6 :=
  ⟨b * 90000 / 10 ^ 6 - a * 90000 / 10 ^ 6, by omega, by omega, by omega⟩

/-- **The packetizer's books are right in every history**, failing calls and resets included. -/
theorem bookkeeping_run (es : List RtpCall) : (RtpHistory.run es).Bookkeeping := by
  have hc := RtpHistory.consistent_run es
  -- The base of the clock is the time of the first access unit recorded.
  have hbase : ∀ first ∈ (RtpHistory.run es).sent.head?,
      (RtpHistory.run es).p.basePtsUs = first.ptsUs := fun first hfirst ↦ by
    have h := hc.base
    rw [Option.mem_def.1 hfirst] at h
    split_ifs at h
    · exact (Option.some.inj h).symm
    · exact absurd h (Option.some_ne_none _)
  have htime : ∀ first ∈ (RtpHistory.run es).sent.head?, ∀ s ∈ (RtpHistory.run es).sent,
      first.Measured s →
        s.timestamp.toNat = (s.ptsUs.toNat - first.ptsUs.toNat) * 90000 / 10 ^ 6 % 2 ^ 32 :=
    fun first hfirst s hs hm ↦ by
      rw [hc.timestamp s hs, hbase first hfirst, toNat_mediaTimestamp hm.1 hm.2]
  refine ⟨?_, ?_, ?_, hc.stamped, htime, ?_⟩
  · intro i hi
    rw [(hc.wellFormed _ (List.getElem_mem hi)).sequence_eq, hc.numbered i hi, UInt16.toNat_ofNat']
  · rw [rtpH264PacketCount, hc.packets, UInt32.toNat_ofNat']
  · rw [rtpH264OctetCount, hc.octets, UInt32.toNat_ofNat']
    rfl
  · intro first hfirst s hs t ht hms hmt hle
    rw [htime first hfirst s hs hms, htime first hfirst t ht hmt]
    have hfs : first.ptsUs.toNat ≤ s.ptsUs.toNat := hms.1
    have hst : s.ptsUs.toNat ≤ t.ptsUs.toNat := hle
    have hsub : t.ptsUs.toNat - s.ptsUs.toNat =
        (t.ptsUs.toNat - first.ptsUs.toNat) - (s.ptsUs.toNat - first.ptsUs.toNat) := by
      omega
    rw [hsub]
    exact exists_ticks (Nat.sub_le_sub_right hst _)

end Camstream
