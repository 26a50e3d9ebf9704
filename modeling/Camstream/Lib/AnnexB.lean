import Mathlib.Data.List.Basic
import Mathlib.Data.List.Infix

/-!
# Annex-B byte streams

The byte stream format of ITU-T H.264 Annex B, as plain list algebra: a stream is a sequence of
units, each introduced by a start code `00 00 01` or `00 00 00 01`, and there is no length field
anywhere. Everything here is about lists of bytes; no program appears.

Three functions carry the format:

* `startCodeLength l` — the start code that opens `l`, as its length, `0` when none does;
* `body l` / `seek l` — the bytes of `l` before its first start code, and the rest of `l` from that
  start code on. They always concatenate back to `l` (`body_append_seek`);
* `units l` — the split: seek a start code, skip it, read a body, and so on. A unit may be **empty**
  (two start codes back to back, or a start code at the end of the stream), and the split keeps
  empty units, since a consumer that skips them has to be compared with it.

The round trip is `units_join`: joining *clean* units with any choice of start code lengths and
splitting again gives the units back. Cleanness is what the format's emulation prevention is for —
a unit is non-empty, contains no `00 00 01`, and does not end in `00`, so that no start code can
begin inside a unit and straddle its end.
-/

namespace AnnexB

/-! ### Start codes -/

/-- The length of the start code that opens `l`: `3` for `00 00 01`, `4` for `00 00 00 01`, and `0`
when `l` opens with neither. -/
def startCodeLength (l : List UInt8) : ℕ :=
  if l.take 3 = [0, 0, 1] then 3
  else if l.take 4 = [0, 0, 0, 1] then 4
  else 0

@[simp] theorem startCodeLength_nil : startCodeLength [] = 0 := rfl

/-- A start code needs three bytes, so no shorter list opens with one. -/
theorem startCodeLength_of_length_lt {l : List UInt8} (h : l.length < 3) :
    startCodeLength l = 0 := by
  have h3 : l.take 3 ≠ [0, 0, 1] := fun he ↦ by
    have := congrArg List.length he
    simp only [List.length_take, List.length_cons, List.length_nil] at this
    omega
  have h4 : l.take 4 ≠ [0, 0, 0, 1] := fun he ↦ by
    have := congrArg List.length he
    simp only [List.length_take, List.length_cons, List.length_nil] at this
    omega
  rw [startCodeLength, if_neg h3, if_neg h4]

/-- A start code lies inside the list it opens. -/
theorem startCodeLength_le_length (l : List UInt8) : startCodeLength l ≤ l.length := by
  rw [startCodeLength]
  split_ifs with h3 h4
  · have := congrArg List.length h3
    simp only [List.length_take, List.length_cons, List.length_nil] at this
    omega
  · have := congrArg List.length h4
    simp only [List.length_take, List.length_cons, List.length_nil] at this
    omega
  · omega

/-- The two start codes, as bytes. -/
def startCode (long : Bool) : List UInt8 :=
  if long then [0, 0, 0, 1] else [0, 0, 1]

/-- Each start code is recognised in front of anything. -/
theorem startCodeLength_startCode_append (long : Bool) (l : List UInt8) :
    startCodeLength (startCode long ++ l) = (startCode long).length := by
  cases long <;> simp [startCode, startCodeLength]

theorem drop_startCode_append (long : Bool) (l : List UInt8) :
    (startCode long ++ l).drop (startCodeLength (startCode long ++ l)) = l := by
  rw [startCodeLength_startCode_append, List.drop_left]

/-! ### Seeking a start code -/

/-- The bytes before the first start code. -/
def body : List UInt8 → List UInt8
  | [] => []
  | b :: l => if startCodeLength (b :: l) = 0 then b :: body l else []

/-- The list from its first start code on, empty when there is none. -/
def seek : List UInt8 → List UInt8
  | [] => []
  | b :: l => if startCodeLength (b :: l) = 0 then seek l else b :: l

@[simp] theorem seek_nil : seek [] = [] := rfl

/-- A stream is what is in front of its first start code, and the rest from there. -/
theorem body_append_seek (l : List UInt8) : body l ++ seek l = l := by
  induction l with
  | nil => rfl
  | cons b l ih =>
    by_cases h : startCodeLength (b :: l) = 0
    · rw [body, seek, if_pos h, if_pos h, List.cons_append, ih]
    · rw [body, seek, if_neg h, if_neg h, List.nil_append]

theorem length_body_add_length_seek (l : List UInt8) :
    (body l).length + (seek l).length = l.length := by
  rw [← List.length_append, body_append_seek]

theorem drop_length_body (l : List UInt8) : l.drop (body l).length = seek l := by
  have h : (body l ++ seek l).drop (body l).length = seek l := List.drop_left
  rwa [body_append_seek] at h

theorem take_length_body (l : List UInt8) : l.take (body l).length = body l := by
  have h : (body l ++ seek l).take (body l).length = body l := List.take_left
  rwa [body_append_seek] at h

/-- Fewer than three bytes hold no start code. -/
theorem seek_of_length_lt {l : List UInt8} (h : l.length < 3) : seek l = [] := by
  induction l with
  | nil => rfl
  | cons b l ih =>
    rw [seek, if_pos (startCodeLength_of_length_lt h)]
    exact ih (by simp only [List.length_cons] at h; omega)

/-- What a seek stops at opens with a start code. -/
theorem startCodeLength_seek {l : List UInt8} (h : seek l ≠ []) :
    startCodeLength (seek l) ≠ 0 := by
  induction l with
  | nil => exact absurd rfl h
  | cons b l ih =>
    by_cases hb : startCodeLength (b :: l) = 0
    · rw [seek, if_pos hb] at h ⊢
      exact ih h
    · rwa [seek, if_neg hb]

/-- A list that opens with a start code is where its own seek stops. -/
theorem seek_of_startCodeLength {l : List UInt8} (h : startCodeLength l ≠ 0) : seek l = l := by
  cases l with
  | nil => rfl
  | cons b l => rw [seek, if_neg h]

theorem body_of_startCodeLength {l : List UInt8} (h : startCodeLength l ≠ 0) : body l = [] := by
  cases l with
  | nil => rfl
  | cons b l => rw [body, if_neg h]

/-- The start code that was found is found again. -/
theorem seek_seek (l : List UInt8) : seek (seek l) = seek l := by
  by_cases h : seek l = []
  · rw [h, seek_nil]
  · exact seek_of_startCodeLength (startCodeLength_seek h)

/-! ### The split into units -/

/-- The bytes after the first start code. -/
def afterCode (l : List UInt8) : List UInt8 :=
  (seek l).drop (startCodeLength (seek l))

theorem afterCode_seek (l : List UInt8) : afterCode (seek l) = afterCode l := by
  rw [afterCode, afterCode, seek_seek]

/-- A start code is not empty, so the search for the next one ends. -/
theorem length_afterCode_lt {l : List UInt8} (h : seek l ≠ []) :
    (afterCode l).length < l.length := by
  have hpos := startCodeLength_seek h
  have hle := startCodeLength_le_length (seek l)
  have hlen := length_body_add_length_seek l
  rw [afterCode, List.length_drop]
  omega

/-- The units of a byte stream, empty ones included. Bytes before the first start code belong to no
unit. -/
def units (l : List UInt8) : List (List UInt8) :=
  if seek l = [] then [] else body (afterCode l) :: units (afterCode l)
termination_by l.length
decreasing_by exact length_afterCode_lt ‹_›

/-- Without a start code there are no units. -/
theorem units_of_seek_eq_nil {l : List UInt8} (h : seek l = []) : units l = [] := by
  rw [units, if_pos h]

/-- The first unit, and those behind it. -/
theorem units_of_seek_ne_nil {l : List UInt8} (h : seek l ≠ []) :
    units l = body (afterCode l) :: units (afterCode l) := by
  rw [units, if_neg h]

/-- Only what follows the first start code matters. -/
theorem units_seek (l : List UInt8) : units (seek l) = units l := by
  by_cases h : seek l = []
  · rw [units_of_seek_eq_nil h, h, units_of_seek_eq_nil seek_nil]
  · have h' : seek (seek l) ≠ [] := by rwa [seek_seek]
    rw [units_of_seek_ne_nil h, units_of_seek_ne_nil h', afterCode_seek]

/-! ### Joining and the round trip -/

/-- A byte stream from units, each with its choice of start code. -/
def join (us : List (Bool × List UInt8)) : List UInt8 :=
  us.flatMap fun u ↦ startCode u.1 ++ u.2

theorem join_cons (u : Bool × List UInt8) (us : List (Bool × List UInt8)) :
    join (u :: us) = startCode u.1 ++ (u.2 ++ join us) := by
  rw [join, List.flatMap_cons, List.append_assoc]
  rfl

/-- A unit that can be joined without changing where start codes stand: it is non-empty, contains no
`00 00 01` and does not end in `00`. -/
structure Clean (u : List UInt8) : Prop where
  /-- There is at least one byte. -/
  ne_nil : u ≠ []
  /-- No three-byte start code inside, hence no four-byte one either. -/
  no_code : ¬ [0, 0, 1] <:+: u
  /-- The last byte is not zero, so no start code straddles the end. -/
  last_ne : u.getLast ne_nil ≠ 0

/-- Cleanness passes to non-empty tails. -/
theorem Clean.tail {b : UInt8} {u : List UInt8} (h : Clean (b :: u)) (hu : u ≠ []) : Clean u where
  ne_nil := hu
  no_code hin := h.no_code (hin.trans (List.suffix_cons b u).isInfix)
  last_ne := by
    have := h.last_ne
    rwa [List.getLast_cons hu] at this

/-- No start code opens a clean unit, whatever follows it. -/
theorem Clean.startCodeLength_append {u : List UInt8} (h : Clean u) (r : List UInt8) :
    startCodeLength (u ++ r) = 0 := by
  obtain ⟨hne, hcode, hlast⟩ := h
  -- a prefix of length `≥ 3` would be a start code inside `u`; a shorter one ends in a zero
  have h3 : (u ++ r).take 3 ≠ [0, 0, 1] := by
    intro he
    match u, hne with
    | [a], _ => simp_all
    | [a, b], _ => simp_all
    | a :: b :: c :: u, _ =>
      simp only [List.cons_append, List.take_succ_cons, List.take_zero, List.cons.injEq,
        and_true] at he
      obtain ⟨rfl, rfl, rfl⟩ := he
      exact hcode (List.prefix_append [0, 0, 1] u).isInfix
  have h4 : (u ++ r).take 4 ≠ [0, 0, 0, 1] := by
    intro he
    match u, hne with
    | [a], _ => simp_all
    | [a, b], _ => simp_all
    | [a, b, c], _ => simp_all
    | a :: b :: c :: d :: u, _ =>
      simp only [List.cons_append, List.take_succ_cons, List.take_zero, List.cons.injEq,
        and_true] at he
      obtain ⟨rfl, rfl, rfl, rfl⟩ := he
      exact hcode ⟨[0], u, rfl⟩
  rw [startCodeLength, if_neg h3, if_neg h4]

/-- A clean unit is read whole: the body stops exactly where the unit ends, if nothing or a start
code follows. -/
theorem Clean.body_append {u : List UInt8} (h : Clean u) {r : List UInt8}
    (hr : r = [] ∨ startCodeLength r ≠ 0) : body (u ++ r) = u := by
  have hbody : body r = [] := by
    rcases hr with rfl | hr
    · rfl
    · exact body_of_startCodeLength hr
  induction u with
  | nil => exact absurd rfl h.ne_nil
  | cons b u ih =>
    have hzero : startCodeLength (b :: (u ++ r)) = 0 := h.startCodeLength_append r
    rw [List.cons_append, body, if_pos hzero]
    by_cases hu : u = []
    · rw [hu, List.nil_append, hbody]
    · rw [ih (h.tail hu)]

/-- Behind a clean unit the search finds what follows. -/
theorem Clean.seek_append {u : List UInt8} (h : Clean u) {r : List UInt8}
    (hr : r = [] ∨ startCodeLength r ≠ 0) : seek (u ++ r) = r := by
  rw [← drop_length_body, h.body_append hr, List.drop_left]

/-- What a join starts with is a start code, or it is empty. -/
theorem join_eq_nil_or_startCodeLength (us : List (Bool × List UInt8)) :
    join us = [] ∨ startCodeLength (join us) ≠ 0 := by
  cases us with
  | nil => exact Or.inl rfl
  | cons u us =>
    right
    rw [join_cons, startCodeLength_startCode_append]
    rcases u with ⟨_ | _, u⟩ <;> simp [startCode]

/-- **The round trip.** Splitting a join of clean units gives back the units, for every choice of
start codes. -/
theorem units_join {us : List (Bool × List UInt8)} (h : ∀ u ∈ us, Clean u.2) :
    units (join us) = us.map Prod.snd := by
  induction us with
  | nil => exact units_of_seek_eq_nil rfl
  | cons u us ih =>
    have hu : Clean u.2 := h u List.mem_cons_self
    have hcode : startCodeLength (startCode u.1 ++ (u.2 ++ join us)) ≠ 0 := by
      rw [← join_cons]
      exact (join_eq_nil_or_startCodeLength (u :: us)).resolve_left (by
        rw [join_cons]
        rcases u with ⟨_ | _, u⟩ <;> simp [startCode])
    have hseek := seek_of_startCodeLength hcode
    have hafter : afterCode (join (u :: us)) = u.2 ++ join us := by
      rw [join_cons, afterCode, hseek, drop_startCode_append]
    have hne : seek (join (u :: us)) ≠ [] := by
      rw [join_cons, hseek]
      intro hnil
      rw [hnil] at hcode
      exact hcode rfl
    rw [units_of_seek_ne_nil hne, hafter, hu.body_append (join_eq_nil_or_startCodeLength us),
      List.map_cons, ← units_seek, hu.seek_append (join_eq_nil_or_startCodeLength us),
      ih fun v hv ↦ h v (List.mem_cons_of_mem u hv)]

end AnnexB
