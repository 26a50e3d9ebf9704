import Camstream.App.Json

/-!
# Where `json_get_string` stops

The loop of `json_get_string` ends at the zero behind the body, unless it steps over it. It looks for the
zero before each character of the value and before each digit of a `\u`, but not behind a backslash: a body
that ends there (`EndsInEscape`) has its zero copied as an escaped character, and the loop goes on
behind it.

`staysInside_iff` says that there is no other way out of the body, whatever the body, the field and
the buffer are.
-/

namespace Camstream

open CString

/-- A value, read from behind its quotation mark on, whose text ends in a backslash that begins an escape,
with fewer than `room` characters in front. -/
inductive EndsInEscape : ℕ → List UInt8 → Prop
  | backslash {room : ℕ} : EndsInEscape (room + 1) [0x5C]
  | char {room : ℕ} {c : UInt8} {t : List UInt8} :
      c ≠ 0x22 → c ≠ 0x5C → EndsInEscape room t → EndsInEscape (room + 1) (c :: t)
  | escape {room : ℕ} {c : UInt8} {t : List UInt8} :
      c ≠ 0x75 → EndsInEscape room t → EndsInEscape (room + 1) (0x5C :: c :: t)
  | unicode {room : ℕ} {a b c d : UInt8} {t : List UInt8} :
      EndsInEscape room t → EndsInEscape (room + 1) (0x5C :: 0x75 :: a :: b :: c :: d :: t)

/-- What stands behind the first quotation mark of the value of a field, to the end of the body. -/
def FieldText (body field value : List UInt8) : Prop :=
  ∃ pre seps : List UInt8, body = pre ++ jsonPattern field ++ seps ++ 0x22 :: value ∧
    (∀ c ∈ seps, c = 0x20 ∨ c = 0x3A) ∧ strstrIndex body (jsonPattern field) = some pre.length

/-- The call reads nothing behind the memory, and writes no more than the buffer holds. -/
def StaysInside (mem field : List UInt8) (outSize : ℕ) : Prop :=
  jsonGetString mem field outSize ≠ .overrun ∧
    ∀ out found, jsonGetString mem field outSize = .stored out found → out.length + 1 ≤ outSize

/-- The loop stops at a byte of the memory. -/
def CopyStops (room : ℕ) (pos : List UInt8) : Prop :=
  ∃ out c rest, jsonCopy room pos = some (out, c :: rest)

/-! ### The loop -/

/-- The characters of a `\u` are looked for up to the zero. -/
theorem jsonHex_append_zero (n : ℕ) {t : List UInt8} (h : 0 ∉ t) :
    jsonHex n (t ++ [0]) = some (t.take n, t.drop n ++ [0]) := by
  induction n generalizing t with
  | zero => rfl
  | succ n ih =>
    cases t with
    | nil => rfl
    | cons c t =>
      rw [List.mem_cons, not_or] at h
      rw [List.cons_append, jsonHex, if_neg (Ne.symm h.1), ih h.2]
      rfl

/-- Any other character behind a backslash is passed, the zero too. -/
theorem exists_jsonUnescape {c : UInt8} (hc : c ≠ 0x75) (pos : List UInt8) :
    ∃ b, jsonUnescape (c :: pos) = some (b, pos) := by
  rw [jsonUnescape]
  split_ifs <;> exact ⟨_, rfl⟩

/-- A `\u` takes the four characters behind it, or all there are. -/
theorem jsonUnescape_unicode {t : List UInt8} (h : 0 ∉ t) :
    jsonUnescape (0x75 :: (t ++ [0])) = some (jsonCodePoint (strtolHex (t.take 4)), t.drop 4 ++ [0]) := by
  have hhex := jsonHex_append_zero 4 h
  simp [jsonUnescape, hhex]

theorem not_copyStops_nil (room : ℕ) : ¬ CopyStops room [] := by
  cases room <;> simp [CopyStops, jsonCopy]

/-- With no room left the copy stops at the first byte, if there is one. -/
theorem copyStops_zero (pos : List UInt8) : CopyStops 0 pos ↔ pos ≠ [] := by
  cases pos with
  | nil => simp [CopyStops, jsonCopy]
  | cons c pos => simp [CopyStops, jsonCopy]

theorem copyStops_of_stop {room : ℕ} {c : UInt8} {pos : List UInt8} (hc : c = 0 ∨ c = 0x22) :
    CopyStops (room + 1) (c :: pos) :=
  ⟨[], c, pos, if_pos hc⟩

/-- One pass. -/
theorem copyStops_succ {room : ℕ} {c b : UInt8} {pos pos' : List UInt8} (hc : ¬ (c = 0 ∨ c = 0x22))
    (hchar : jsonChar c pos = some (b, pos')) :
    CopyStops (room + 1) (c :: pos) ↔ CopyStops room pos' := by
  rw [CopyStops, jsonCopy, if_neg hc, hchar]
  cases hcopy : jsonCopy room pos' with
  | none => simp [CopyStops, hcopy]
  | some r =>
    obtain ⟨out, rest⟩ := r
    simp [CopyStops, hcopy]

theorem not_endsInEscape_nil (room : ℕ) : ¬ EndsInEscape room [] := by
  intro h
  cases h

theorem endsInEscape_char_iff {room : ℕ} {c : UInt8} {t : List UInt8} (hquote : c ≠ 0x22)
    (hbackslash : c ≠ 0x5C) : EndsInEscape (room + 1) (c :: t) ↔ EndsInEscape room t := by
  constructor
  · intro h
    cases h with
    | backslash => exact absurd rfl hbackslash
    | char _ _ h => exact h
    | escape _ _ => exact absurd rfl hbackslash
    | unicode _ => exact absurd rfl hbackslash
  · exact .char hquote hbackslash

/-- Behind a backslash: `\u` passes the four characters behind it or all there are, and any other character
is passed alone. -/
theorem endsInEscape_backslash_iff {room : ℕ} {c : UInt8} {t : List UInt8} :
    EndsInEscape (room + 1) (0x5C :: c :: t) ↔
      EndsInEscape room (if c = 0x75 then t.drop 4 else t) := by
  constructor
  · intro h
    cases h with
    | char _ hc _ => exact absurd rfl hc
    | escape hc h => rwa [if_neg hc]
    | unicode h => exact h
  · split_ifs with hc
    · subst hc
      intro h
      rcases t with - | ⟨a, - | ⟨b, - | ⟨c, - | ⟨d, t⟩⟩⟩⟩
      · exact absurd h (not_endsInEscape_nil room)
      · exact absurd h (not_endsInEscape_nil room)
      · exact absurd h (not_endsInEscape_nil room)
      · exact absurd h (not_endsInEscape_nil room)
      · exact .unicode h
    · exact .escape hc

/-- **The loop leaves the body in one way only.** -/
theorem copyStops_append_zero {room : ℕ} {value : List UInt8} (h : 0 ∉ value) :
    CopyStops room (value ++ [0]) ↔ ¬ EndsInEscape room value := by
  induction room generalizing value with
  | zero =>
    refine iff_of_true ((copyStops_zero _).2 ?_) ?_
    · exact List.append_ne_nil_of_right_ne_nil _ (List.cons_ne_nil _ _)
    intro h
    cases h
  | succ room ih =>
    cases value with
    | nil => exact iff_of_true (copyStops_of_stop (Or.inl rfl)) (not_endsInEscape_nil _)
    | cons c t =>
      rw [List.mem_cons, not_or] at h
      obtain ⟨hzero, ht⟩ := h
      rcases eq_or_ne c 0x22 with hquote | hquote
      · refine iff_of_true (copyStops_of_stop (Or.inr hquote)) ?_
        subst hquote
        intro h
        cases h with
        | char hc _ _ => exact hc rfl
      have hstop : ¬ (c = 0 ∨ c = 0x22) := not_or.2 ⟨Ne.symm hzero, hquote⟩
      rcases eq_or_ne c 0x5C with hbackslash | hbackslash
      · subst hbackslash
        cases t with
        | nil =>
          -- The zero is passed as an escaped character.
          have hpassed : jsonChar 0x5C [0] = some (0, []) := rfl
          rw [List.cons_append, List.nil_append, copyStops_succ hstop hpassed]
          exact iff_of_false (not_copyStops_nil room) (not_not.2 .backslash)
        | cons e t =>
          rw [List.mem_cons, not_or] at ht
          rw [endsInEscape_backslash_iff]
          split_ifs with hu
          · subst hu
            rw [← ih fun hmem ↦ ht.2 (List.mem_of_mem_drop hmem)]
            exact copyStops_succ hstop (jsonUnescape_unicode ht.2)
          · obtain ⟨b, hb⟩ := exists_jsonUnescape hu (t ++ [0])
            rw [← ih ht.2]
            exact copyStops_succ hstop hb
      · rw [List.cons_append, copyStops_succ hstop (if_neg hbackslash), ih ht,
          endsInEscape_char_iff hquote hbackslash]

/-! ### The call -/

/-- `snprintf` cuts the pattern to the size of its array. -/
theorem length_jsonPattern (field : List UInt8) :
    (jsonPattern field).length = min 63 (field.length + 2) := by
  rw [jsonPattern, List.length_take, List.length_append, List.length_cons, List.length_singleton]

/-- The text of a field, as the call finds it. -/
theorem fieldText_iff {body field value : List UInt8} :
    FieldText body field value ↔ ∃ i, strstrIndex body (jsonPattern field) = some i ∧
      ((body.drop (i + (jsonPattern field).length)).dropWhile fun c ↦ c = 0x20 ∨ c = 0x3A) =
        0x22 :: value := by
  constructor
  · rintro ⟨pre, seps, rfl, hseps, hfirst⟩
    refine ⟨pre.length, hfirst, ?_⟩
    rw [← List.length_append, List.append_assoc, List.drop_left,
      List.dropWhile_append_of_pos fun c hc ↦ decide_eq_true (hseps c hc)]
    rfl
  · rintro ⟨i, hfirst, hvalue⟩
    obtain ⟨t, ht⟩ := prefix_of_strstrIndex hfirst
    have hlt : i < body.length := by
      have hlen := congrArg List.length ht
      rw [List.length_append, List.length_drop, length_jsonPattern] at hlen
      omega
    rw [← List.drop_drop, ← ht, List.drop_left] at hvalue
    refine ⟨body.take i, t.takeWhile fun c ↦ c = 0x20 ∨ c = 0x3A, ?_, fun c hc ↦ ?_, ?_⟩
    · rw [← hvalue, List.append_assoc, List.append_assoc, List.takeWhile_append_dropWhile, ht,
        List.take_append_drop]
    · exact decide_eq_true_iff.1
        (List.mem_takeWhile_imp (p := fun c ↦ decide (c = 0x20 ∨ c = 0x3A)) hc)
    · rw [hfirst, List.length_take, Nat.min_eq_left (Nat.le_of_lt hlt)]

/-- The separators end before the zero. -/
theorem dropWhile_append_zero (t : List UInt8) :
    ((t ++ [0]).dropWhile fun c ↦ c = 0x20 ∨ c = 0x3A) =
      (t.dropWhile fun c ↦ c = 0x20 ∨ c = 0x3A) ++ [0] := by
  rw [List.dropWhile_append]
  split_ifs with hempty
  · rw [List.isEmpty_iff.1 hempty]
    rfl
  · rfl

/-- The call on a body and the zero behind it. -/
theorem jsonGetString_append_zero {body : List UInt8} (h : 0 ∉ body) (field : List UInt8) (outSize : ℕ) :
    (jsonGetString (body ++ [0]) field outSize = .missing ∧ ∀ value, ¬ FieldText body field value) ∨
      ∃ value, (∀ value', FieldText body field value' ↔ value' = value) ∧
        jsonGetString (body ++ [0]) field outSize = jsonValue (value ++ [0]) outSize := by
  rw [jsonGetString, if_neg (not_not.2 (List.mem_append_right _ (List.mem_singleton_self 0))),
    cstring_append_zero h []]
  cases hfirst : strstrIndex body (jsonPattern field) with
  | none =>
    refine Or.inl ⟨rfl, fun value hvalue ↦ ?_⟩
    obtain ⟨i, hi, -⟩ := fieldText_iff.1 hvalue
    exact Option.some_ne_none i (hi.symm.trans hfirst)
  | some i =>
    -- The value is what stands behind the first place of the pattern, if a quote does.
    have htext : ∀ value, FieldText body field value ↔
        ((body.drop (i + (jsonPattern field).length)).dropWhile fun c ↦ c = 0x20 ∨ c = 0x3A) =
          0x22 :: value := fun value ↦ by
      rw [fieldText_iff, hfirst]
      simp only [Option.some.injEq, exists_eq_left']
    have hle : i + (jsonPattern field).length ≤ body.length := by
      have hlen := (prefix_of_strstrIndex hfirst).length_le
      rw [List.length_drop, length_jsonPattern] at hlen
      rw [length_jsonPattern]
      omega
    dsimp only
    rw [List.drop_append_of_le_length hle, dropWhile_append_zero]
    cases hrest : (body.drop (i + (jsonPattern field).length)).dropWhile fun c ↦ c = 0x20 ∨ c = 0x3A with
    | nil =>
      refine Or.inl ⟨rfl, fun value hvalue ↦ ?_⟩
      exact List.cons_ne_nil _ _ (((htext value).1 hvalue).symm.trans hrest)
    | cons c rest =>
      rw [List.cons_append]
      dsimp only
      rcases eq_or_ne c 0x22 with hquote | hquote
      · subst hquote
        refine Or.inr ⟨rest, fun value ↦ ?_, rfl⟩
        rw [htext, hrest, List.cons.injEq, and_iff_right rfl, eq_comm]
      · refine Or.inl ⟨if_pos hquote, fun value hvalue ↦ hquote ?_⟩
        exact (List.cons.inj (hrest.symm.trans ((htext value).1 hvalue))).1

/-- What is written fits. -/
theorem length_le_of_stored {mem field out : List UInt8} {outSize : ℕ} {found : Bool}
    (h : jsonGetString mem field outSize = .stored out found) : out.length + 1 ≤ outSize := by
  rw [jsonGetString] at h
  split_ifs at h
  split at h
  · exact JsonGet.noConfusion h
  split at h
  · exact JsonGet.noConfusion h
  split_ifs at h
  obtain ⟨hsize, c, rest, hcopy, -⟩ := jsonValue_eq_stored h
  have hlen := length_jsonCopy_le hcopy
  omega

/-- The copy stays in the body if and only if it stops there. -/
theorem jsonValue_ne_overrun_iff {pos : List UInt8} {outSize : ℕ} (hsize : 1 ≤ outSize) :
    jsonValue pos outSize ≠ .overrun ↔ CopyStops (outSize - 1) pos := by
  rw [jsonValue, CopyStops]
  split
  next out c rest hcopy =>
    rw [if_neg (by omega)]
    exact iff_of_true (fun h ↦ JsonGet.noConfusion h) ⟨out, c, rest, hcopy⟩
  next hnone =>
    refine iff_of_false (not_not.2 rfl) ?_
    rintro ⟨out, c, rest, hcopy⟩
    exact hnone out c rest hcopy

/-- **The bounds of `json_get_string`**, endpoint: for every body, every field and every buffer, the call
stays inside, exactly when the value does not end in a backslash that begins an escape within the room of the
buffer. -/
theorem staysInside_iff {body : List UInt8} (h : 0 ∉ body) (field : List UInt8) {outSize : ℕ}
    (hsize : 1 ≤ outSize) :
    StaysInside (body ++ [0]) field outSize ↔
      ¬ ∃ value, FieldText body field value ∧ EndsInEscape (outSize - 1) value := by
  rw [StaysInside, and_iff_left fun out found ↦ length_le_of_stored]
  obtain ⟨hmissing, hnone⟩ | ⟨value, hvalue, hcall⟩ := jsonGetString_append_zero h field outSize
  · rw [hmissing]
    refine iff_of_true (fun h ↦ JsonGet.noConfusion h) ?_
    rintro ⟨value, hvalue, -⟩
    exact hnone value hvalue
  · have hzero : 0 ∉ value := by
      obtain ⟨pre, seps, hbody, -⟩ := (hvalue value).2 rfl
      intro hmem
      exact h (hbody ▸ List.mem_append_right _ (List.mem_cons_of_mem _ hmem))
    rw [hcall, jsonValue_ne_overrun_iff hsize, copyStops_append_zero hzero]
    simp only [hvalue, exists_eq_left]

/-- A value that ends behind an escape. -/
theorem staysInside_iff_sample :
    ¬ ∃ value, FieldText [0x22, 0x61, 0x22, 0x3A, 0x22, 0x5C, 0x6E] [0x61] value ∧ EndsInEscape 2 value :=
  (staysInside_iff (by decide) [0x61] (by decide : 1 ≤ 3)).1
    ⟨by decide, fun _ _ ↦ length_le_of_stored⟩

/-- The body that ends in a backslash: `"a":"\`, into the smallest buffer that has room for a character. -/
theorem not_staysInside_backslash :
    ¬ ∀ (body field : List UInt8) (outSize : ℕ), 0 ∉ body → 0 ∉ field → field.length ≤ 60 → 1 ≤ outSize →
      StaysInside (body ++ [0]) field outSize := by
  intro h
  have hbody := h [0x22, 0x61, 0x22, 0x3A, 0x22, 0x5C] [0x61] 2 (by decide) (by decide) (by decide)
    (by decide)
  exact hbody.1 (by decide)

end Camstream
