import Camstream.Lib.AnnexB
import Camstream.Rtp.H264

/-!
# The scanner reads the Annex-B split

The index arithmetic of `nextNal` against the list algebra of `AnnexB`: at a cursor, the scanner
returns the first unit of the bytes from the cursor on (`nextNal_eq`), the lookahead asks whether the
next unit is there and non-empty (`hasMoreNal_eq`), and the whole walk of the packetizer is a walk
over `AnnexB.units` of the access unit (`packetizeLoop_eq`). Everything later about the packetizer is
stated over units; no index survives this module.
-/

namespace Camstream

open AnnexB

/-- A byte read by index is the head of the dropped list. -/
theorem getD_add_eq_getD_drop (data : List UInt8) (i j : ℕ) :
    data.getD (i + j) 0 = (data.drop i).getD j 0 := by
  simp only [List.getD_eq_getElem?_getD, List.getElem?_drop]

/-- At a position with three bytes left, the scanner's test is the start code of the rest. -/
theorem startCodeAt_eq {data : List UInt8} {i : ℕ} (h : i + 3 ≤ data.length) :
    startCodeAt data i = startCodeLength (data.drop i) := by
  have hlen : (data.drop i).length = data.length - i := List.length_drop
  have h₀ : data.getD i 0 = (data.drop i).getD 0 0 := getD_add_eq_getD_drop data i 0
  simp only [startCodeAt, startCodeLength, getD_add_eq_getD_drop data i, h₀]
  have hfour : i + 4 ≤ data.length ↔ 4 ≤ (data.drop i).length := by omega
  simp only [hfour]
  generalize data.drop i = l at hlen ⊢
  rcases l with - | ⟨a, - | ⟨b, - | ⟨c, - | ⟨d, l⟩⟩⟩⟩
  iterate 3
    simp only [List.length_cons, List.length_nil] at hlen
    omega
  · simp
  · simp

/-- The first loop stops where a seek stops. -/
theorem nextNalStart_eq (data : List UInt8) (start : ℕ) :
    nextNalStart data start =
      if seek (data.drop start) = [] then none
      else some (data.length - (seek (data.drop start)).length,
        startCodeLength (seek (data.drop start))) := by
  fun_induction nextNalStart data start with
  | case1 start hle hz ih =>
    have hcons := List.drop_eq_getElem_cons (show start < data.length by omega)
    rw [startCodeAt_eq hle, hcons] at hz
    rw [ih, hcons, seek, if_pos hz]
  | case2 start hle hz =>
    rw [startCodeAt_eq hle] at hz ⊢
    have hne : data.drop start ≠ [] := fun he ↦ hz (by rw [he, startCodeLength_nil])
    have hlen : data.length - (data.drop start).length = start := by
      rw [List.length_drop]; omega
    rw [seek_of_startCodeLength hz, if_neg hne, hlen]
  | case3 start hle =>
    rw [seek_of_length_lt (by rw [List.length_drop]; omega), if_pos rfl]

/-- The second loop measures a body. -/
theorem nextNalEnd_eq {data : List UInt8} {stop : ℕ} (h : stop ≤ data.length) :
    nextNalEnd data stop = stop + (body (data.drop stop)).length := by
  fun_induction nextNalEnd data stop with
  | case1 stop hle hz ih =>
    have hcons := List.drop_eq_getElem_cons (show stop < data.length by omega)
    rw [startCodeAt_eq hle, hcons] at hz
    rw [ih (by omega), hcons, body, if_pos hz, List.length_cons]
    omega
  | case2 stop hle hz =>
    rw [startCodeAt_eq hle] at hz
    rw [body_of_startCodeLength hz, List.length_nil]
    omega
  | case3 stop hle =>
    have hseek := seek_of_length_lt (l := data.drop stop) (by rw [List.length_drop]; omega)
    have hlen := length_body_add_length_seek (data.drop stop)
    rw [hseek, List.length_nil, List.length_drop] at hlen
    omega

/-- The bytes after the start code found from `cursor` on, as a drop of the whole buffer. -/
theorem drop_offset_eq_afterCode {data : List UInt8} {cursor : ℕ}
    (h : seek (data.drop cursor) ≠ []) :
    data.drop (data.length - (seek (data.drop cursor)).length +
      startCodeLength (seek (data.drop cursor))) = afterCode (data.drop cursor) := by
  have hpos : 0 < (seek (data.drop cursor)).length := List.length_pos_of_ne_nil h
  have hlen := length_body_add_length_seek (data.drop cursor)
  rw [List.length_drop] at hlen
  have hsplit : data.length - (seek (data.drop cursor)).length =
      cursor + (body (data.drop cursor)).length := by omega
  rw [afterCode, hsplit, ← drop_length_body, List.drop_drop, List.drop_drop]

/-- **`next_nal` finds the next unit**: `none` when no start code is left, otherwise the place and
the length of the body after the first start code. -/
theorem nextNal_eq (data : List UInt8) (cursor : ℕ) :
    nextNal data cursor =
      if seek (data.drop cursor) = [] then none
      else some (data.length - (afterCode (data.drop cursor)).length,
        (body (afterCode (data.drop cursor))).length) := by
  rw [nextNal]
  rw [nextNalStart_eq]
  by_cases h : seek (data.drop cursor) = []
  · rw [if_pos h, if_pos h]
  · rw [if_neg h, if_neg h]
    have hdrop := drop_offset_eq_afterCode h
    have hcode := startCodeLength_le_length (seek (data.drop cursor))
    have hlen := length_body_add_length_seek (data.drop cursor)
    have hoff := congrArg List.length hdrop
    rw [List.length_drop] at hlen hoff
    have hpos : 0 < (seek (data.drop cursor)).length := List.length_pos_of_ne_nil h
    simp only
    rw [nextNalEnd_eq (by omega), hdrop]
    congr 2 <;> omega

/-- A found unit lies where the scanner says. -/
theorem drop_of_nextNal {data : List UInt8} {cursor : ℕ} {r : ℕ × ℕ}
    (h : nextNal data cursor = some r) :
    seek (data.drop cursor) ≠ [] ∧ data.drop r.1 = afterCode (data.drop cursor) ∧
      r.2 = (body (afterCode (data.drop cursor))).length := by
  rw [nextNal_eq] at h
  by_cases hs : seek (data.drop cursor) = []
  · rw [if_pos hs] at h
    exact absurd h (by simp)
  · rw [if_neg hs] at h
    obtain rfl := Option.some.inj h
    refine ⟨hs, ?_, rfl⟩
    have hdrop := drop_offset_eq_afterCode hs
    have hlen := length_afterCode_lt hs
    have hoff := congrArg List.length hdrop
    rw [List.length_drop] at hoff hlen
    have hpos : 0 < (seek (data.drop cursor)).length := List.length_pos_of_ne_nil hs
    have hcode := startCodeLength_le_length (seek (data.drop cursor))
    have hsplit := length_body_add_length_seek (data.drop cursor)
    rw [List.length_drop] at hsplit
    have hplace : data.length - (afterCode (data.drop cursor)).length =
        data.length - (seek (data.drop cursor)).length +
          startCodeLength (seek (data.drop cursor)) := by omega
    rw [hplace, hdrop]

/-- The unit the lookahead sees: there is one and it is not empty. -/
def nextNonempty (us : List (List UInt8)) : Bool :=
  match us with
  | [] => false
  | u :: _ => !u.isEmpty

/-- The lookahead looks at the next unit only. -/
theorem hasMoreNal_eq (data : List UInt8) (after : ℕ) :
    hasMoreNal data after = nextNonempty (units (data.drop after)) := by
  rw [hasMoreNal]
  rw [nextNal_eq]
  by_cases h : seek (data.drop after) = []
  · rw [if_pos h, units_of_seek_eq_nil h]
    rfl
  · rw [if_neg h, units_of_seek_ne_nil h, nextNonempty]
    cases body (afterCode (data.drop after)) <;> simp

/-- The walk of the packetizer, over units: empty ones are skipped, and the lookahead sees the unit
that comes next. -/
def packetizeUnits (rtpTs : UInt32) (st : PacketizeState) : List (List UInt8) → PacketizeState
  | [] => st
  | u :: us =>
    if u = [] then packetizeUnits rtpTs st us
    else packetizeUnits rtpTs (emitNal rtpTs u (nextNonempty us) st) us

/-- **The walk over the buffer is the walk over its units.** -/
theorem packetizeLoop_eq (rtpTs : UInt32) (au : List UInt8) (st : PacketizeState) (cursor : ℕ) :
    packetizeLoop rtpTs au st cursor = packetizeUnits rtpTs st (units (au.drop cursor)) := by
  fun_induction packetizeLoop rtpTs au st cursor with
  | case1 st cursor h =>
    rw [nextNal_eq] at h
    by_cases hs : seek (au.drop cursor) = []
    · rw [units_of_seek_eq_nil hs, packetizeUnits]
    · rw [if_neg hs] at h
      exact absurd h (by simp)
  | case2 st cursor nalOffset h ih =>
    obtain ⟨hs, hdrop, hlen⟩ := drop_of_nextNal h
    have hnil : body (afterCode (au.drop cursor)) = [] := List.length_eq_zero_iff.1 hlen.symm
    rw [ih, hdrop, units_of_seek_ne_nil hs, packetizeUnits, if_pos hnil]
  | case3 st cursor nalOffset nalLength h hz after nal ih =>
    obtain ⟨hs, hdrop, hlen⟩ := drop_of_nextNal h
    simp only at hdrop hlen
    have hne : body (afterCode (au.drop cursor)) ≠ [] := fun he ↦ hz (by rw [hlen, he]; rfl)
    have hnal : nal = body (afterCode (au.drop cursor)) := by
      show (au.drop nalOffset).take nalLength = _
      rw [hdrop, hlen, take_length_body]
    have hafter : units (au.drop after) = units (afterCode (au.drop cursor)) := by
      show units (au.drop (nalOffset + nalLength)) = _
      rw [← List.drop_drop, hdrop, hlen, drop_length_body, units_seek]
    rw [ih, hasMoreNal_eq, hnal, hafter, units_of_seek_ne_nil hs, packetizeUnits, if_neg hne]

end Camstream
