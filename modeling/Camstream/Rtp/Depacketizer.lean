import Camstream.Rtp.Packets

/-!
# An RFC 6184 receiver, and that nothing is lost

`Depacketizer` is a receiver written from the payload format, not from the sender: it keeps the NAL
units completed so far and at most one unit under reassembly, and it gives up (`none`) on anything
malformed — an empty payload, an unknown type, a whole NAL unit in the middle of a fragmented one, a
fragment out of place, `S` and `E` on one fragment, an empty fragment.

`depacketize_rtpH264Packetize` is the losslessness of the packetizer against this receiver: for any
sequence of NAL units that can stand in an Annex-B stream and any choice of start codes, the receiver
returns that sequence. The argument has three layers: the split of the joined stream
(`AnnexB.units_join`), one NAL unit (`receiveAll_nalPlan`), and inside a fragmented one the loop
invariant `receiveAll_fuAPlan` — at offset `k` the receiver holds the first `k` bytes of the unit.
-/

namespace Camstream

open AnnexB

/-! ### The receiver -/

/-- NAL units completed so far, and the one being rebuilt from fragments. -/
structure Depacketizer where
  nals : List (List UInt8)
  pending : Option (List UInt8)
  deriving DecidableEq, Repr

/-- One RTP payload. A fragmented unit is rebuilt from the NRI bits of the FU indicator and the type
of the FU header. -/
def Depacketizer.receive (d : Depacketizer) : List UInt8 → Option Depacketizer
  | [] => none
  | b :: l =>
    if b &&& 0x1F = h264NaluFuA then
      match l with
      | [] => none
      | hdr :: frag =>
        if frag = [] then none
        else
          match decide (hdr &&& 0x80 ≠ 0), decide (hdr &&& 0x40 ≠ 0), d.pending with
          | true, false, none =>
            some { d with pending := some (((b &&& 0x60) ||| (hdr &&& 0x1F)) :: frag) }
          | false, false, some nal => some { d with pending := some (nal ++ frag) }
          | false, true, some nal => some ⟨d.nals ++ [nal ++ frag], none⟩
          | _, _, _ => none
    else if 1 ≤ b &&& 0x1F ∧ b &&& 0x1F ≤ 23 ∧ d.pending = none then
      some ⟨d.nals ++ [b :: l], none⟩
    else none

/-- A sequence of RTP payloads. -/
def Depacketizer.receiveAll (d : Depacketizer) (payloads : List (List UInt8)) :
    Option Depacketizer :=
  payloads.foldlM Depacketizer.receive d

/-- The NAL units of a sequence of RTP packets; a unit left unfinished is an error too. -/
def depacketize (packets : List (List UInt8)) : Option (List (List UInt8)) :=
  match Depacketizer.receiveAll ⟨[], none⟩ (packets.map (List.drop rtpHeaderSize)) with
  | some ⟨nals, none⟩ => some nals
  | _ => none

theorem receiveAll_cons (d : Depacketizer) (x : List UInt8) (l : List (List UInt8)) :
    d.receiveAll (x :: l) = (d.receive x).bind fun d ↦ d.receiveAll l := by
  rw [Depacketizer.receiveAll, List.foldlM_cons]
  rfl

theorem receiveAll_append (d : Depacketizer) (l r : List (List UInt8)) :
    d.receiveAll (l ++ r) = (d.receiveAll l).bind fun d ↦ d.receiveAll r := by
  rw [Depacketizer.receiveAll, List.foldlM_append]
  rfl

/-! ### One fragment -/

/-- The two FU bytes carry everything the receiver needs: the fragment type, the start and end bits,
and the first byte of the unit when its forbidden bit is clear. -/
theorem fuHeader_eq (b : UInt8) (first last : Bool) :
    ∃ ind hdr : UInt8, fuHeader b first last = [ind, hdr] ∧ ind &&& 0x1F = h264NaluFuA ∧
      decide (hdr &&& 0x80 ≠ 0) = first ∧ decide (hdr &&& 0x40 ≠ 0) = last ∧
      (b &&& 0x80 = 0 → (ind &&& 0x60) ||| (hdr &&& 0x1F) = b) := by
  refine ⟨_, _, rfl, ?_⟩
  revert b
  refine Bytes.forall_byte ?_
  cases first <;> cases last <;> decide +kernel

variable {nals : List (List UInt8)} {nal frag : List UInt8} {b : UInt8}

theorem receive_first (hb : b &&& 0x80 = 0) (hfrag : frag ≠ []) :
    Depacketizer.receive ⟨nals, none⟩ (fuHeader b true false ++ frag) =
      some ⟨nals, some (b :: frag)⟩ := by
  obtain ⟨ind, hdr, hfu, htype, hs, he, hbyte⟩ := fuHeader_eq b true false
  rw [hfu, List.cons_append, List.cons_append, List.nil_append, Depacketizer.receive, if_pos htype]
  simp only [if_neg hfrag, hs, he, hbyte hb]

theorem receive_middle (hfrag : frag ≠ []) :
    Depacketizer.receive ⟨nals, some nal⟩ (fuHeader b false false ++ frag) =
      some ⟨nals, some (nal ++ frag)⟩ := by
  obtain ⟨ind, hdr, hfu, htype, hs, he, -⟩ := fuHeader_eq b false false
  rw [hfu, List.cons_append, List.cons_append, List.nil_append, Depacketizer.receive, if_pos htype]
  simp only [if_neg hfrag, hs, he]

theorem receive_last (hfrag : frag ≠ []) :
    Depacketizer.receive ⟨nals, some nal⟩ (fuHeader b false true ++ frag) =
      some ⟨nals ++ [nal ++ frag], none⟩ := by
  obtain ⟨ind, hdr, hfu, htype, hs, he, -⟩ := fuHeader_eq b false true
  rw [hfu, List.cons_append, List.cons_append, List.nil_append, Depacketizer.receive, if_pos htype]
  simp only [if_neg hfrag, hs, he]

theorem receive_whole {l : List UInt8} (hlo : 1 ≤ b &&& 0x1F) (hhi : b &&& 0x1F ≤ 23) :
    Depacketizer.receive ⟨nals, none⟩ (b :: l) = some ⟨nals ++ [b :: l], none⟩ := by
  have hne : b &&& 0x1F ≠ h264NaluFuA := fun he ↦ by
    rw [he] at hhi
    exact absurd hhi (by decide)
  rw [Depacketizer.receive.eq_def]
  simp only [if_neg hne]
  rw [if_pos ⟨hlo, hhi, trivial⟩]

/-! ### One NAL unit -/

/-- What the receiver holds at offset `k` of a fragmented unit: nothing before the first fragment,
the first `k` bytes later. -/
def pendingAt (nal : List UInt8) (k : ℕ) : Option (List UInt8) :=
  if k = 1 then none else some (nal.take k)

/-- **The fragment loop.** From the bytes before `offset`, the remaining fragments complete the
unit. -/
theorem receiveAll_fuAPlan (hbit : nal.getD 0 0 &&& 0x80 = 0) (hlong : 1188 < nal.length)
    (hasMore : Bool) (offset : ℕ) (h1 : 1 ≤ offset) (hlt : offset < nal.length) :
    Depacketizer.receiveAll ⟨nals, pendingAt nal offset⟩
      ((fuAPlan nal hasMore offset).map Prod.fst) = some ⟨nals ++ [nal], none⟩ := by
  fun_induction fuAPlan nal hasMore offset with
  | case1 offset _ last take ih =>
    have htake : 0 < take := by
      show 0 < min (nal.length - offset) 1186
      omega
    have hfrag : (nal.drop offset).take take ≠ [] := by
      apply List.ne_nil_of_length_pos
      rw [List.length_take, List.length_drop]
      omega
    rw [List.map_cons, receiveAll_cons]
    by_cases hlast : nal.length - offset ≤ 1186
    · -- the last fragment: it cannot be the first one, since the unit is too long
      have h1' : offset ≠ 1 := by omega
      have hl : last = true := decide_eq_true hlast
      have htakeAll : take = nal.length - offset := Nat.min_eq_left hlast
      have hall : (nal.drop offset).take take = nal.drop offset :=
        List.take_of_length_le (by rw [List.length_drop]; omega)
      have hwhole : nal.take offset ++ (nal.drop offset).take take = nal := by
        rw [hall, List.take_append_drop]
      have hend : fuAPlan nal hasMore (offset + take) = [] := by
        rw [fuAPlan, if_neg (by omega)]
      rw [pendingAt, if_neg h1', hl, beq_false_of_ne h1', receive_last hfrag, hwhole, hend]
      rfl
    · have hl : last = false := decide_eq_false hlast
      have htakeAll : take = 1186 := Nat.min_eq_right (by omega)
      have hpend : pendingAt nal (offset + take) =
          some (nal.take offset ++ (nal.drop offset).take take) := by
        rw [pendingAt, if_neg (by omega), List.take_add]
      have ih := ih (by omega) (by omega)
      by_cases h1' : offset = 1
      · -- the first fragment restores the header byte, which the payload does not carry
        have hcons : nal.take 1 = [nal.getD 0 0] := by
          cases nal with
          | nil => simp at hlt
          | cons a l => rfl
        subst h1'
        have hfirst : pendingAt nal 1 = none := rfl
        rw [hfirst, hl, beq_self_eq_true, receive_first hbit hfrag]
        rw [hpend, hcons] at ih
        exact ih
      · rw [pendingAt, if_neg h1', hl, beq_false_of_ne h1', receive_middle hfrag]
        rw [hpend] at ih
        exact ih
  | case2 offset hge => exact absurd hlt hge

/-- A NAL unit that can stand in an access unit: clean, so that joining it with start codes does not
create another start code, with the forbidden bit clear and a single-NAL type. -/
structure NalUnit where
  bytes : List UInt8
  clean : Clean bytes
  forbidden_eq_zero : bytes.getD 0 0 &&& 0x80 = 0
  one_le_type : 1 ≤ bytes.getD 0 0 &&& 0x1F
  type_le : bytes.getD 0 0 &&& 0x1F ≤ 23

/-- The packets of one NAL unit give back the unit. -/
theorem receiveAll_nalPlan (u : NalUnit) (hasMore : Bool) :
    Depacketizer.receiveAll ⟨nals, none⟩ ((nalPlan u.bytes hasMore).map Prod.fst) =
      some ⟨nals ++ [u.bytes], none⟩ := by
  obtain ⟨nal, hclean, hbit, hlo, hhi⟩ := u
  simp only [nalPlan]
  split_ifs with hlen
  · obtain ⟨b, l, rfl⟩ := List.exists_cons_of_ne_nil hclean.ne_nil
    rw [List.getD_cons_zero] at hlo hhi
    rw [List.map_singleton, receiveAll_cons, receive_whole hlo hhi]
    rfl
  · exact receiveAll_fuAPlan hbit (by omega) hasMore 1 (Nat.le_refl 1) (by omega)

theorem receiveAll_auPlan (us : List NalUnit) :
    Depacketizer.receiveAll ⟨nals, none⟩
      ((auPlan (us.map NalUnit.bytes)).map Prod.fst) =
        some ⟨nals ++ us.map NalUnit.bytes, none⟩ := by
  induction us generalizing nals with
  | nil => rw [List.map_nil, List.append_nil]; rfl
  | cons u us ih =>
    rw [List.map_cons, auPlan, if_neg u.clean.ne_nil, List.map_append, receiveAll_append,
      receiveAll_nalPlan, Option.bind_some, ih, List.append_assoc]
    rfl

/-! ### Packet sizes -/

theorem length_of_mem_fuAPlan (nal : List UInt8) (hasMore : Bool) (offset : ℕ)
    {x : List UInt8 × Bool} (hx : x ∈ fuAPlan nal hasMore offset) :
    1 ≤ x.1.length ∧ x.1.length ≤ 1188 := by
  fun_induction fuAPlan nal hasMore offset with
  | case1 offset h last take ih =>
    rcases List.mem_cons.1 hx with rfl | hx
    · have htake : take ≤ 1186 := Nat.min_le_right _ _
      rw [List.length_append, List.length_take]
      show 1 ≤ 2 + _ ∧ 2 + _ ≤ 1188
      omega
    · exact ih hx
  | case2 offset h => exact absurd hx (List.not_mem_nil)

/-- Every payload of a plan is non-empty and within the packet budget, whatever the units. -/
theorem length_of_mem_auPlan {us : List (List UInt8)} {x : List UInt8 × Bool}
    (hx : x ∈ auPlan us) : 1 ≤ x.1.length ∧ x.1.length ≤ 1188 := by
  induction us with
  | nil => exact absurd hx (List.not_mem_nil)
  | cons u us ih =>
    rw [auPlan] at hx
    split_ifs at hx with hu
    · exact ih hx
    rcases List.mem_append.1 hx with hx | hx
    · rw [nalPlan] at hx
      split_ifs at hx with hlen
      · rw [List.mem_singleton.1 hx]
        exact ⟨List.length_pos_of_ne_nil hu, hlen⟩
      · exact length_of_mem_fuAPlan u _ 1 hx
    · exact ih hx

/-- Every packet is within the packet limit, for every access unit. -/
theorem length_of_mem_sinkCalls {p : RtpH264} {au : List UInt8} {ptsUs : UInt64} {c : SinkCall}
    (hc : c ∈ sinkCalls p au ptsUs) : 13 ≤ c.packet.length ∧ c.packet.length ≤ 1200 := by
  have hlen := (sinkCalls_wellFormed p au ptsUs c hc).length_eq
  have hmem : c.payload ∈ (auPlan (units au)).map Prod.fst := by
    rw [← sinkCalls_payloads p au ptsUs]
    exact List.mem_map_of_mem hc
  obtain ⟨x, hx, hxc⟩ := List.mem_map.1 hmem
  have hx := length_of_mem_auPlan hx
  rw [hxc] at hx
  have h12 : rtpHeaderSize = 12 := rfl
  omega

/-! ### Losslessness -/

/-- **Packetization is lossless.** The NAL units of an access unit survive packetization and
depacketization, for every packetizer state, timestamp and choice of start codes; every packet is
between 13 and 1200 bytes long, and the return value counts the packets. -/
theorem depacketize_rtpH264Packetize (p : RtpH264) (ptsUs : UInt64) (us : List (Bool × NalUnit))
    (hus : us ≠ []) :
    let r := rtpH264Packetize p (join (us.map fun u ↦ (u.1, u.2.bytes))) ptsUs
    depacketize (r.2.1.map SinkCall.packet) = some (us.map fun u ↦ u.2.bytes) ∧
      (∀ c ∈ r.2.1, 13 ≤ c.packet.length ∧ c.packet.length ≤ 1200) ∧
      r.2.2 = (r.2.1.length : ℤ) := by
  set au := join (us.map fun u ↦ (u.1, u.2.bytes)) with hau
  have hunits : units au = (us.map Prod.snd).map NalUnit.bytes := by
    rw [hau, units_join]
    · rw [List.map_map, List.map_map]
      rfl
    · intro v hv
      obtain ⟨u, -, rfl⟩ := List.mem_map.1 hv
      exact u.2.clean
  -- The packetizer refuses an empty access unit, which has no units.
  have hne : au ≠ [] := by
    intro he
    rw [he, units_of_seek_eq_nil seek_nil] at hunits
    exact hus (List.map_eq_nil_iff.1 (List.map_eq_nil_iff.1 hunits.symm))
  refine ⟨?_, fun c hc ↦ ?_, ?_⟩
  · have hpay : (sinkCalls p au ptsUs).map SinkCall.payload =
        (auPlan ((us.map Prod.snd).map NalUnit.bytes)).map Prod.fst := by
      rw [← hunits]
      exact sinkCalls_payloads p au ptsUs
    have hdrop : ((sinkCalls p au ptsUs).map SinkCall.packet).map (List.drop rtpHeaderSize) =
        (sinkCalls p au ptsUs).map SinkCall.payload := by
      rw [List.map_map]
      rfl
    show depacketize ((sinkCalls p au ptsUs).map SinkCall.packet) = _
    rw [depacketize, hdrop, hpay, receiveAll_auPlan, List.nil_append, List.map_map]
    rfl
  · have hc' : c ∈ sinkCalls p au ptsUs := hc
    exact length_of_mem_sinkCalls hc'
  · have hlen := congrArg List.length (sinkCalls_payloads p au ptsUs)
    rw [List.length_map, List.length_map] at hlen
    show (rtpH264Packetize p au ptsUs).2.2 = ((sinkCalls p au ptsUs).length : ℤ)
    rw [hlen, rtpH264Packetize_eq hne]
    simp only [emitAll_emitted, Int.zero_add]

/-- A parameter set behind a long start code and a slice behind a short one. -/
def sampleUnits : List (Bool × NalUnit) :=
  [(true, ⟨[0x67, 0x42, 0x00, 0x1F], ⟨by decide, by decide, by decide⟩, by decide, by decide,
      by decide⟩),
    (false, ⟨[0x65, 0x88, 0x84], ⟨by decide, by decide, by decide⟩, by decide, by decide,
      by decide⟩)]

theorem depacketize_rtpH264Packetize_sampleUnits :
    let r := rtpH264Packetize rtpH264Create
      (join (sampleUnits.map fun u ↦ (u.1, u.2.bytes))) 40000
    depacketize (r.2.1.map SinkCall.packet) =
        some [[0x67, 0x42, 0x00, 0x1F], [0x65, 0x88, 0x84]] ∧
      (∀ c ∈ r.2.1, 13 ≤ c.packet.length ∧ c.packet.length ≤ 1200) ∧
      r.2.2 = (r.2.1.length : ℤ) :=
  depacketize_rtpH264Packetize rtpH264Create 40000 sampleUnits (by decide)

end Camstream
