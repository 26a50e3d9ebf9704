import Mathlib.Tactic.Common
import Camstream.Rtp.Scanner

/-!
# What the packetizer emits

The packetizer's two loops, taken apart from its bookkeeping. A *plan* is the list of payloads of an
access unit with the marker bit of each: `nalPlan` for one NAL unit (one entry, or one per FU-A
fragment) and `auPlan` for all of them. The packetizer is then a fold of `emitPacket` over the plan
(`packetizeLoop_eq_emitAll`), and what every packet looks like is proved once, for any plan:

* `emitAll_payloads`, `emitAll_markers` — the packets carry the payloads and the markers of the
  plan, in order;
* `emitAll_wellFormed` — each packet is a twelve byte header with the marker in bit 7 of its second
  byte and the sequence number in bytes 2 and 3, followed by its payload.
-/

namespace Camstream

open AnnexB Bytes

/-! ### Plans -/

/-- The fragments of a NAL unit from `offset` on, each with its marker bit. -/
def fuAPlan (nal : List UInt8) (hasMore : Bool) (offset : ℕ) : List (List UInt8 × Bool) :=
  if offset < nal.length then
    let last := decide (nal.length - offset ≤ 1186)
    let take := min (nal.length - offset) 1186
    (fuHeader (nal.getD 0 0) (offset == 1) last ++ (nal.drop offset).take take, last && !hasMore) ::
      fuAPlan nal hasMore (offset + take)
  else []
termination_by nal.length - offset

/-- The payloads of one NAL unit. -/
def nalPlan (nal : List UInt8) (hasMore : Bool) : List (List UInt8 × Bool) :=
  if nal.length ≤ 1188 then [(nal, !hasMore)] else fuAPlan nal hasMore 1

/-- The payloads of an access unit given by its units. -/
def auPlan : List (List UInt8) → List (List UInt8 × Bool)
  | [] => []
  | u :: us => if u = [] then auPlan us else nalPlan u (nextNonempty us) ++ auPlan us

/-- Emit a whole plan. -/
def emitAll (rtpTs : UInt32) (st : PacketizeState) (plan : List (List UInt8 × Bool)) :
    PacketizeState :=
  plan.foldl (fun st x ↦ emitPacket rtpTs st x.2 x.1) st

@[simp] theorem emitAll_nil (rtpTs : UInt32) (st : PacketizeState) : emitAll rtpTs st [] = st := rfl

@[simp] theorem emitAll_cons (rtpTs : UInt32) (st : PacketizeState) (x : List UInt8 × Bool)
    (plan : List (List UInt8 × Bool)) :
    emitAll rtpTs st (x :: plan) = emitAll rtpTs (emitPacket rtpTs st x.2 x.1) plan :=
  rfl

theorem emitAll_append (rtpTs : UInt32) (st : PacketizeState) (l r : List (List UInt8 × Bool)) :
    emitAll rtpTs st (l ++ r) = emitAll rtpTs (emitAll rtpTs st l) r :=
  List.foldl_append

/-! ### The loops emit their plans -/

theorem fuALoop_eq_emitAll (rtpTs : UInt32) (nal : List UInt8) (hasMore : Bool)
    (st : PacketizeState) (offset : ℕ) :
    fuALoop rtpTs nal hasMore st offset = emitAll rtpTs st (fuAPlan nal hasMore offset) := by
  fun_induction fuALoop rtpTs nal hasMore st offset with
  | case1 st offset h chunk last take st' ih =>
    rw [ih]
    conv_rhs => rw [fuAPlan, if_pos h]
    rfl
  | case2 st offset h => rw [fuAPlan, if_neg h, emitAll_nil]

theorem emitNal_eq_emitAll (rtpTs : UInt32) (nal : List UInt8) (hasMore : Bool)
    (st : PacketizeState) :
    emitNal rtpTs nal hasMore st = emitAll rtpTs st (nalPlan nal hasMore) := by
  have hbudget : rtpMaxPacket - rtpHeaderSize = 1188 := rfl
  rw [emitNal, nalPlan, hbudget]
  by_cases h : nal.length ≤ 1188
  · rw [if_pos h, if_pos h]
    rfl
  · rw [if_neg h, if_neg h]
    exact fuALoop_eq_emitAll rtpTs nal hasMore st 1

theorem packetizeUnits_eq_emitAll (rtpTs : UInt32) (st : PacketizeState)
    (us : List (List UInt8)) :
    packetizeUnits rtpTs st us = emitAll rtpTs st (auPlan us) := by
  induction us generalizing st with
  | nil => rfl
  | cons u us ih =>
    by_cases hu : u = []
    · rw [packetizeUnits, auPlan, if_pos hu, if_pos hu, ih]
    · rw [packetizeUnits, auPlan, if_neg hu, if_neg hu, ih, emitNal_eq_emitAll, emitAll_append]

/-- **The walk over an access unit emits the plan of its units.** -/
theorem packetizeLoop_eq_emitAll (rtpTs : UInt32) (au : List UInt8) (st : PacketizeState) :
    packetizeLoop rtpTs au st 0 = emitAll rtpTs st (auPlan (units au)) := by
  rw [packetizeLoop_eq, List.drop_zero, packetizeUnits_eq_emitAll]

/-! ### The packets of a plan -/

/-- The payload of a packet, after the fixed header. -/
def SinkCall.payload (c : SinkCall) : List UInt8 :=
  c.packet.drop rtpHeaderSize

/-- What a receiver can read off the packet of a sink call. -/
structure SinkCall.WellFormed (c : SinkCall) : Prop where
  /-- The fixed header is there. -/
  length_eq : c.packet.length = rtpHeaderSize + c.payload.length
  /-- The marker bit on the wire is the marker argument of the sink. -/
  marker_eq : decide (c.packet.getD 1 0 &&& 0x80 ≠ 0) = c.marker
  /-- The sequence number on the wire is the sequence argument of the sink. -/
  sequence_eq : readBe16 c.packet 2 = c.sequence.toNat

@[simp] theorem length_rtpHeader (p : RtpH264) (rtpTs : UInt32) (marker : Bool) :
    (rtpHeader p rtpTs marker).length = rtpHeaderSize :=
  rfl

/-- Bit 7 of the second byte is the marker: the payload type is masked to seven bits. -/
theorem markerByte_and (marker : Bool) (pt : UInt32) :
    decide ((((if marker then 0x80 else 0x00) ||| (pt &&& 0x7F).toUInt8 : UInt8) &&& 0x80) ≠ 0) =
      marker := by
  rw [UInt32.toUInt8_and]
  exact forall_byte (P := fun b ↦ decide ((((if marker then 0x80 else 0x00) ||| (b &&& 0x7F) : UInt8)
    &&& 0x80) ≠ 0) = marker) (by cases marker <;> decide +kernel) pt.toUInt8

/-- The one packet `emitPacket` adds. -/
theorem emitPacket_calls (rtpTs : UInt32) (st : PacketizeState) (marker : Bool)
    (payload : List UInt8) :
    ∃ c : SinkCall, (emitPacket rtpTs st marker payload).calls = st.calls ++ [c] ∧
      c.payload = payload ∧ c.marker = marker ∧ c.WellFormed := by
  set p := { st.p with sequence := st.p.sequence + 1 } with hp
  have hpay : (rtpHeader p rtpTs marker ++ payload).drop rtpHeaderSize = payload :=
    List.drop_left' (length_rtpHeader p rtpTs marker)
  refine ⟨⟨rtpHeader p rtpTs marker ++ payload, marker, p.sequence⟩, rfl, hpay, rfl, ?_⟩
  refine ⟨?_, markerByte_and marker p.payloadType, ?_⟩
  · rw [SinkCall.payload, hpay, List.length_append, length_rtpHeader]
  · exact readBe16_be16 p.sequence.toNat_lt

theorem emitAll_emitted (rtpTs : UInt32) (st : PacketizeState)
    (plan : List (List UInt8 × Bool)) :
    (emitAll rtpTs st plan).emitted = st.emitted + plan.length := by
  induction plan generalizing st with
  | nil => simp
  | cons x plan ih =>
    rw [emitAll_cons, ih, List.length_cons]
    show st.emitted + 1 + (plan.length : ℤ) = st.emitted + ((plan.length + 1 : ℕ) : ℤ)
    omega

theorem emitAll_payloads (rtpTs : UInt32) (st : PacketizeState)
    (plan : List (List UInt8 × Bool)) :
    (emitAll rtpTs st plan).calls.map SinkCall.payload =
      st.calls.map SinkCall.payload ++ plan.map Prod.fst := by
  induction plan generalizing st with
  | nil => simp
  | cons x plan ih =>
    obtain ⟨c, hc, hpay, -, -⟩ := emitPacket_calls rtpTs st x.2 x.1
    rw [emitAll_cons, ih, hc]
    simp [hpay]

theorem emitAll_markers (rtpTs : UInt32) (st : PacketizeState)
    (plan : List (List UInt8 × Bool)) :
    (emitAll rtpTs st plan).calls.map SinkCall.marker =
      st.calls.map SinkCall.marker ++ plan.map Prod.snd := by
  induction plan generalizing st with
  | nil => simp
  | cons x plan ih =>
    obtain ⟨c, hc, -, hm, -⟩ := emitPacket_calls rtpTs st x.2 x.1
    rw [emitAll_cons, ih, hc]
    simp [hm]

/-- Every packet of a plan is well formed, given that those already emitted are. -/
theorem emitAll_wellFormed (rtpTs : UInt32) (st : PacketizeState)
    (plan : List (List UInt8 × Bool)) (h : ∀ c ∈ st.calls, c.WellFormed) :
    ∀ c ∈ (emitAll rtpTs st plan).calls, c.WellFormed := by
  induction plan generalizing st with
  | nil => exact h
  | cons x plan ih =>
    refine ih (emitPacket rtpTs st x.2 x.1) fun c hc ↦ ?_
    obtain ⟨c', hc', -, -, hwf⟩ := emitPacket_calls rtpTs st x.2 x.1
    rw [hc', List.mem_append, List.mem_singleton] at hc
    rcases hc with hc | rfl
    · exact h c hc
    · exact hwf

/-! ### One call of the packetizer -/

/-- The packetizer with its timestamp settled, as the walk of an access unit starts with it. -/
def beginAccessUnit (p : RtpH264) (ptsUs : UInt64) : RtpH264 :=
  let p := if p.haveBase then p else { p with basePtsUs := ptsUs, haveBase := true }
  let deltaUs := if p.basePtsUs ≤ ptsUs then ptsUs - p.basePtsUs else 0
  { p with lastTimestamp := (deltaUs * 90000 / 1000000).toUInt32 }

theorem rtpH264Packetize_nil (p : RtpH264) (ptsUs : UInt64) :
    rtpH264Packetize p [] ptsUs = (p, [], -1) :=
  rfl

/-- **A call on a non-empty access unit emits the plan of its units.** -/
theorem rtpH264Packetize_eq {p : RtpH264} {au : List UInt8} {ptsUs : UInt64} (h : au ≠ []) :
    rtpH264Packetize p au ptsUs =
      let st := emitAll (beginAccessUnit p ptsUs).lastTimestamp ⟨beginAccessUnit p ptsUs, [], 0⟩
        (auPlan (units au))
      (st.p, st.calls, st.emitted) := by
  have hlen : au.length ≠ 0 := fun he ↦ h (List.length_eq_zero_iff.1 he)
  rw [rtpH264Packetize, if_neg hlen]
  simp only [packetizeLoop_eq_emitAll]
  rfl

/-- The sink calls of one call of the packetizer. -/
def sinkCalls (p : RtpH264) (au : List UInt8) (ptsUs : UInt64) : List SinkCall :=
  (rtpH264Packetize p au ptsUs).2.1

theorem sinkCalls_payloads (p : RtpH264) (au : List UInt8) (ptsUs : UInt64) :
    (sinkCalls p au ptsUs).map SinkCall.payload = (auPlan (units au)).map Prod.fst := by
  by_cases h : au = []
  · rw [h, sinkCalls, rtpH264Packetize_nil, units_of_seek_eq_nil seek_nil]
    rfl
  · rw [sinkCalls, rtpH264Packetize_eq h, emitAll_payloads]
    rfl

theorem sinkCalls_markers (p : RtpH264) (au : List UInt8) (ptsUs : UInt64) :
    (sinkCalls p au ptsUs).map SinkCall.marker = (auPlan (units au)).map Prod.snd := by
  by_cases h : au = []
  · rw [h, sinkCalls, rtpH264Packetize_nil, units_of_seek_eq_nil seek_nil]
    rfl
  · rw [sinkCalls, rtpH264Packetize_eq h, emitAll_markers]
    rfl

theorem sinkCalls_wellFormed (p : RtpH264) (au : List UInt8) (ptsUs : UInt64) :
    ∀ c ∈ sinkCalls p au ptsUs, c.WellFormed := by
  by_cases h : au = []
  · rw [h, sinkCalls, rtpH264Packetize_nil]
    exact fun c hc ↦ absurd hc (List.not_mem_nil)
  · rw [sinkCalls, rtpH264Packetize_eq h]
    exact emitAll_wellFormed _ _ _ fun c hc ↦ absurd hc (List.not_mem_nil)

end Camstream
