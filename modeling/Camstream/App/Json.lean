import Camstream.Lib.JsonString

/-!
# The JSON helpers of the server

`json_get_string` and `json_escape_append` of `src/app/app_server.c`. A `const char *` that is read is the
memory from the pointer on, to the end of what may be read; a read past it is an `overrun`. The zero that
ends a body is part of that memory, and so is what stands behind it.

`jsonGetString_escape` says that the first undoes the second, and `jsonGetString_mono` that a value which
was found is not cut: every larger buffer gets the same.
-/

namespace Camstream

open CString

/-! ### `json_get_string` -/

/-- How a call of `json_get_string` ends. -/
inductive JsonGet
  /-- A read or a write outside the buffers. -/
  | overrun
  /-- `-1`, and `out` is not touched. -/
  | missing
  /-- These bytes and a zero are written to `out`; `found` for a return value of `0`. -/
  | stored (out : List UInt8) (found : Bool)
  deriving DecidableEq, Repr

/-- The characters of `\u`: up to the given number of them, before a zero. -/
def jsonHex : ℕ → List UInt8 → Option (List UInt8 × List UInt8)
  | 0, pos => some ([], pos)
  | _ + 1, [] => none
  | n + 1, c :: pos =>
    if c = 0 then some ([], c :: pos)
    else do
      let (hex, pos) ← jsonHex n pos
      some (c :: hex, pos)

/-- `(char) code`, or a question mark for what is not ASCII. -/
def jsonCodePoint (code : ℤ) : UInt8 :=
  if code < 128 then UInt8.ofInt code else 0x3F

/-- The `switch` behind a backslash: the byte that is written, and where the text goes on. -/
def jsonUnescape : List UInt8 → Option (UInt8 × List UInt8)
  | [] => none
  | c :: pos =>
    if c = 0x6E then some (10, pos)
    else if c = 0x72 then some (13, pos)
    else if c = 0x74 then some (9, pos)
    else if c = 0x62 then some (8, pos)
    else if c = 0x66 then some (12, pos)
    else if c = 0x22 then some (0x22, pos)
    else if c = 0x5C then some (0x5C, pos)
    else if c = 0x2F then some (0x2F, pos)
    else if c = 0x75 then do
      let (hex, pos) ← jsonHex 4 pos
      some (jsonCodePoint (strtolHex hex), pos)
    else some (c, pos)

/-- One pass of the loop: a character of the value. -/
def jsonChar (c : UInt8) (pos : List UInt8) : Option (UInt8 × List UInt8) :=
  if c = 0x5C then jsonUnescape pos else some (c, pos)

/-- The loop, with room for so many bytes: what is written, and where it stops. -/
def jsonCopy : ℕ → List UInt8 → Option (List UInt8 × List UInt8)
  | 0, pos => some ([], pos)
  | _ + 1, [] => none
  | room + 1, c :: pos =>
    if c = 0 ∨ c = 0x22 then some ([], c :: pos)
    else do
      let (b, pos) ← jsonChar c pos
      let (out, pos) ← jsonCopy room pos
      some (b :: out, pos)

/-- `pattern`, an array of 64 bytes. -/
def jsonPattern (field : List UInt8) : List UInt8 :=
  (0x22 :: field ++ [0x22]).take 63

/-- The value at `pos`, behind the first quotation mark. -/
def jsonValue (pos : List UInt8) (outSize : ℕ) : JsonGet :=
  match jsonCopy (outSize - 1) pos with
  | some (out, c :: _) => if outSize = 0 then .overrun else .stored out (c = 0x22)
  | _ => .overrun

/-- `json_get_string` -/
def jsonGetString (body field : List UInt8) (outSize : ℕ) : JsonGet :=
  if 0 ∉ body then .overrun
  else
    match strstrIndex (cstring body) (jsonPattern field) with
    | none => .missing
    | some i =>
      match (body.drop (i + (jsonPattern field).length)).dropWhile fun c ↦ c = 0x20 ∨ c = 0x3A with
      | [] => .overrun
      | c :: pos => if c ≠ 0x22 then .missing else jsonValue pos outSize

/-! ### `json_escape_append` -/

/-- The `switch`: `esc` and `esc_len`. -/
def jsonEscapeByte (c : UInt8) : List UInt8 :=
  if c = 0x22 then [0x5C, 0x22]
  else if c = 0x5C then [0x5C, 0x5C]
  else if c = 13 then [0x5C, 0x72]
  else if c = 10 then [0x5C, 0x6E]
  else if c = 9 then [0x5C, 0x74]
  else [c]

/-- The loop of `json_escape_append`, with what has been written. -/
def jsonEscapeLoop (outSize : ℕ) (written : List UInt8) : List UInt8 → List UInt8
  | [] => written
  | c :: input =>
    if outSize < written.length + (jsonEscapeByte c).length + 1 then written
    else jsonEscapeLoop outSize (written ++ jsonEscapeByte c) input

/-- `json_escape_append`: what is written for a C string; its length is the return value. -/
def jsonEscapeAppend (input : List UInt8) (outSize : ℕ) : List UInt8 :=
  jsonEscapeLoop outSize [] input

/-- What `json_escape_append` writes when there is room. -/
def jsonEscape (s : List UInt8) : List UInt8 :=
  s.flatMap jsonEscapeByte

/-- With room for everything the loop stops at the end of its input. -/
theorem jsonEscapeLoop_of_lt {outSize : ℕ} {written input : List UInt8}
    (h : (written ++ jsonEscape input).length < outSize) :
    jsonEscapeLoop outSize written input = written ++ jsonEscape input := by
  induction input generalizing written with
  | nil => exact (List.append_nil written).symm
  | cons c input ih =>
    rw [jsonEscape, List.flatMap_cons, ← jsonEscape, ← List.append_assoc] at h ⊢
    have hroom : ¬ outSize < written.length + (jsonEscapeByte c).length + 1 := by
      rw [List.length_append, List.length_append] at h
      omega
    rw [jsonEscapeLoop, if_neg hroom, ih h]

/-- **With room for it, everything is written.** -/
theorem jsonEscapeAppend_of_lt {input : List UInt8} {outSize : ℕ}
    (h : (jsonEscape input).length < outSize) : jsonEscapeAppend input outSize = jsonEscape input :=
  jsonEscapeLoop_of_lt h

theorem length_jsonEscapeByte_le (c : UInt8) : (jsonEscapeByte c).length ≤ 2 := by
  rw [jsonEscapeByte]
  split_ifs <;> simp

/-- Escaping at most doubles a text. -/
theorem length_jsonEscape_le (s : List UInt8) : (jsonEscape s).length ≤ 2 * s.length := by
  induction s with
  | nil => exact Nat.le_refl 0
  | cons c s ih =>
    have hc := length_jsonEscapeByte_le c
    rw [jsonEscape, List.flatMap_cons, ← jsonEscape, List.length_append, List.length_cons]
    omega

theorem jsonEscapeByte_ne_nil (c : UInt8) : jsonEscapeByte c ≠ [] := by
  rw [jsonEscapeByte]
  split_ifs <;> exact List.cons_ne_nil _ _

theorem notMem_jsonEscapeByte {c : UInt8} (hc : c ≠ 0) : 0 ∉ jsonEscapeByte c := by
  rw [jsonEscapeByte]
  split_ifs <;> simp [hc.symm]

/-- An escaped text is still a C string. -/
theorem notMem_jsonEscape {s : List UInt8} (h : 0 ∉ s) : 0 ∉ jsonEscape s := by
  rw [jsonEscape, List.mem_flatMap]
  rintro ⟨c, hc, hzero⟩
  exact notMem_jsonEscapeByte (fun h0 ↦ h (h0 ▸ hc)) hzero

/-! ### The round trip -/

/-- One pass of the loop reads one escaped byte. -/
theorem jsonCopy_escapeByte {c : UInt8} (hc : c ≠ 0) (room : ℕ) (t : List UInt8) :
    jsonCopy (room + 1) (jsonEscapeByte c ++ t) =
      (jsonCopy room t).map fun p ↦ (c :: p.1, p.2) := by
  rw [Option.map_eq_bind, jsonEscapeByte]
  split_ifs with hquote hbackslash hcr hlf htab
  · rw [hquote]
    rfl
  · rw [hbackslash]
    rfl
  · rw [hcr]
    rfl
  · rw [hlf]
    rfl
  · rw [htab]
    rfl
  · rw [List.singleton_append, jsonCopy, if_neg (not_or.2 ⟨hc, hquote⟩), jsonChar, if_neg hbackslash]
    rfl

/-- **Reading undoes escaping**, up to the closing quote. -/
theorem jsonCopy_escape {s : List UInt8} (hs : 0 ∉ s) {room : ℕ} (h : s.length ≤ room)
    (post : List UInt8) : jsonCopy room (jsonEscape s ++ 0x22 :: post) = some (s, 0x22 :: post) := by
  induction s generalizing room with
  | nil =>
    cases room with
    | zero => rfl
    | succ room => exact if_pos (Or.inr rfl)
  | cons c s ih =>
    rw [List.mem_cons, not_or] at hs
    obtain ⟨room, rfl⟩ := Nat.exists_eq_succ_of_ne_zero (Nat.ne_of_gt (Nat.lt_of_lt_of_le
      (Nat.succ_pos s.length) h))
    rw [jsonEscape, List.flatMap_cons, ← jsonEscape, List.append_assoc, jsonCopy_escapeByte (Ne.symm hs.1),
      ih hs.2 (Nat.le_of_succ_le_succ h)]
    rfl

/-- The name of the field stands in `body`, for the first time, in front of a string whose escaped form is
`esc`. -/
def HoldsField (body field esc : List UInt8) : Prop :=
  0 ∈ body ∧ ∃ pre seps post : List UInt8,
    body = pre ++ jsonPattern field ++ seps ++ 0x22 :: (esc ++ 0x22 :: post) ∧
      (∀ c ∈ seps, c = 0x20 ∨ c = 0x3A) ∧
      strstrIndex (cstring body) (jsonPattern field) = some pre.length

/-- **`json_get_string` undoes `json_escape_append`.** -/
theorem jsonGetString_escape {body field s : List UInt8} {outSize : ℕ}
    (h : HoldsField body field (jsonEscape s)) (hs : 0 ∉ s) (hroom : s.length < outSize) :
    jsonGetString body field outSize = .stored s true := by
  obtain ⟨hzero, pre, seps, post, hbody, hseps, hfirst⟩ := h
  have hdrop : body.drop (pre.length + (jsonPattern field).length) =
      seps ++ 0x22 :: (jsonEscape s ++ 0x22 :: post) := by
    rw [hbody, ← List.length_append, List.append_assoc, List.drop_left]
  have hskip : (seps ++ 0x22 :: (jsonEscape s ++ 0x22 :: post)).dropWhile
      (fun c ↦ decide (c = 0x20 ∨ c = 0x3A)) = 0x22 :: (jsonEscape s ++ 0x22 :: post) := by
    rw [List.dropWhile_append_of_pos fun c hc ↦ decide_eq_true (hseps c hc)]
    rfl
  rw [jsonGetString, if_neg (not_not.2 hzero), hfirst]
  dsimp only
  rw [hdrop, hskip]
  dsimp only
  rw [if_neg (not_not.2 rfl), jsonValue, jsonCopy_escape hs (Nat.le_sub_one_of_lt hroom)]
  exact if_neg (Nat.ne_of_gt (Nat.zero_lt_of_lt hroom))

/-! ### Nothing is cut -/

/-- A loop that stops at a quotation mark stops there with more room too. -/
theorem jsonCopy_mono {room room' : ℕ} (h : room ≤ room') {pos out rest : List UInt8}
    (hcopy : jsonCopy room pos = some (out, 0x22 :: rest)) :
    jsonCopy room' pos = some (out, 0x22 :: rest) := by
  induction room generalizing room' pos out with
  | zero =>
    obtain ⟨rfl, rfl⟩ := Prod.mk.inj (Option.some.inj hcopy)
    cases room' with
    | zero => rfl
    | succ room' => exact if_pos (Or.inr rfl)
  | succ room ih =>
    obtain ⟨room', rfl⟩ := Nat.exists_eq_succ_of_ne_zero (Nat.ne_of_gt (Nat.lt_of_lt_of_le
      (Nat.succ_pos room) h))
    cases pos with
    | nil => exact nomatch hcopy
    | cons c pos =>
      rw [jsonCopy] at hcopy ⊢
      split_ifs at hcopy ⊢ with hstop
      · exact hcopy
      · simp only [Option.bind_eq_bind, Option.bind_eq_some_iff, Prod.exists] at hcopy ⊢
        obtain ⟨b, pos', hchar, out', rest', hcopy, hlast⟩ := hcopy
        obtain ⟨rfl, rfl⟩ := Prod.mk.inj (Option.some.inj hlast)
        exact ⟨b, pos', hchar, out', _, ih (Nat.le_of_succ_le_succ h) hcopy, rfl⟩

/-- No more is stored than there is room for. -/
theorem length_jsonCopy_le {room : ℕ} {pos out rest : List UInt8}
    (h : jsonCopy room pos = some (out, rest)) : out.length ≤ room := by
  induction room generalizing pos out with
  | zero =>
    obtain ⟨rfl, -⟩ := Prod.mk.inj (Option.some.inj h)
    exact Nat.le_refl 0
  | succ room ih =>
    cases pos with
    | nil => exact nomatch h
    | cons c pos =>
      rw [jsonCopy] at h
      split_ifs at h with hstop
      · obtain ⟨rfl, -⟩ := Prod.mk.inj (Option.some.inj h)
        exact Nat.zero_le _
      · simp only [Option.bind_eq_bind, Option.bind_eq_some_iff, Prod.exists] at h
        obtain ⟨b, pos', -, out', rest', hcopy, hlast⟩ := h
        obtain ⟨rfl, rfl⟩ := Prod.mk.inj (Option.some.inj hlast)
        exact Nat.succ_le_succ (ih hcopy)

/-- What a value that was stored comes from. -/
theorem jsonValue_eq_stored {pos out : List UInt8} {outSize : ℕ} {found : Bool}
    (h : jsonValue pos outSize = .stored out found) :
    0 < outSize ∧ ∃ c rest, jsonCopy (outSize - 1) pos = some (out, c :: rest) ∧
      found = decide (c = 0x22) := by
  rw [jsonValue] at h
  split at h
  · rename_i out' c rest hcopy
    split_ifs at h with hsize
    obtain ⟨rfl, rfl⟩ := JsonGet.stored.inj h
    exact ⟨Nat.pos_of_ne_zero hsize, c, rest, hcopy, rfl⟩
  · exact nomatch h

/-- **A value that was found is not cut**: it fits the buffer, and a larger buffer gets the same. -/
theorem jsonGetString_mono {body field out : List UInt8} {outSize : ℕ}
    (h : jsonGetString body field outSize = .stored out true) :
    out.length < outSize ∧
      ∀ outSize' ≥ outSize, jsonGetString body field outSize' = .stored out true := by
  rw [jsonGetString] at h
  split_ifs at h with hzero
  split at h
  · exact nomatch h
  rename_i i hfirst
  split at h
  · exact nomatch h
  rename_i c pos hpos
  split_ifs at h with hquote
  obtain ⟨hsize, c', rest, hcopy, hfound⟩ := jsonValue_eq_stored h
  obtain rfl : c' = 0x22 := of_decide_eq_true hfound.symm
  have hlen := length_jsonCopy_le hcopy
  refine ⟨by omega, fun outSize' hle ↦ ?_⟩
  rw [jsonGetString, if_neg (not_not.2 hzero), hfirst]
  dsimp only
  rw [hpos]
  dsimp only
  rw [if_neg hquote, jsonValue, jsonCopy_mono (Nat.sub_le_sub_right hle 1) hcopy]
  exact if_neg (by omega)

end Camstream
