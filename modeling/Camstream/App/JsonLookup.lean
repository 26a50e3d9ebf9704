import Camstream.App.JsonBounds
import Camstream.Lib.JsonObject

/-!
# Is the field found?

`json_get_string` looks for the quoted name of a field anywhere in the body. In an object whose members are
strings it comes to the first place where that name stands between two quotation marks (`found_text`). What it
reads from there depends on the place (`Gives`): the value of the member if the place is the end of its
name and only spaces stand around the colon, something that is no value if the place is between two strings.

`extracts_iff` compares what is read with the one member of that name.
-/

namespace Camstream

open CString Delimited JsonString JsonObject

/-! ### The loop -/

/-- The text in front of a quotation mark, and what the loop writes for it. -/
inductive Reads : List UInt8 → List UInt8 → Prop
  | nil : Reads [] []
  | char {c : UInt8} {t v : List UInt8} : c ≠ 0x22 → c ≠ 0x5C → Reads t v → Reads (c :: t) (c :: v)
  | escape {e : UInt8} {t v : List UInt8} : e ≠ 0x75 → Reads t v →
      Reads (0x5C :: e :: t) ((escapes.lookup e).getD e :: v)
  | unicode {a b c d : UInt8} {t v : List UInt8} : Reads t v →
      Reads (0x5C :: 0x75 :: a :: b :: c :: d :: t) (jsonCodePoint (strtolHex [a, b, c, d]) :: v)

theorem jsonUnescape_of_ne {e : UInt8} (he : e ≠ 0x75) (pos : List UInt8) :
    jsonUnescape (e :: pos) = some ((escapes.lookup e).getD e, pos) := by
  rw [jsonUnescape, if_neg he]
  split_ifs with hn hr ht hb hf hquote hbackslash hslash
  · rw [hn]
    rfl
  · rw [hr]
    rfl
  · rw [ht]
    rfl
  · rw [hb]
    rfl
  · rw [hf]
    rfl
  · rw [hquote]
    rfl
  · rw [hbackslash]
    rfl
  · rw [hslash]
    rfl
  · have hnone : escapes.lookup e = none := by
      simp [escapes, List.lookup_eq_none_iff, hn, hr, ht, hb, hf, hquote, hbackslash, hslash]
    rw [hnone]
    rfl

/-- The table has each escape once, and `u` is not in it. -/
theorem lookup_escapes : ∀ p ∈ escapes, p.1 ≠ 0x75 ∧ (escapes.lookup p.1).getD p.1 = p.2 :=
  forall_mem_of_all (by decide)

/-- Bytes that are neither a quotation mark nor a backslash are read one by one. -/
theorem reads_append {l t v : List UInt8} (hl : ∀ c ∈ l, c ≠ 0x22 ∧ c ≠ 0x5C) (h : Reads t v) :
    Reads (l ++ t) (l ++ v) := by
  induction l with
  | nil => exact h
  | cons c l ih =>
    rw [List.forall_mem_cons] at hl
    exact .char hl.1.1 hl.1.2 (ih hl.2)

/-- **An ASCII string is read as what it denotes.** -/
theorem reads_of_denotes {t v : List UInt8} (h : Denotes t v) (hascii : ∀ c ∈ v, c < 0x80) : Reads t v := by
  induction h with
  | nil => exact .nil
  | unescaped hch _ ih =>
    exact reads_append (fun c hc ↦ (hch.bytes c hc).2) (ih (List.forall_mem_append.1 hascii).2)
  | escape he _ ih =>
    obtain ⟨hu, hlookup⟩ := lookup_escapes _ he
    have hread := Reads.escape hu (ih (List.forall_mem_cons.1 hascii).2)
    rwa [hlookup] at hread
  | @unicode a b c d n _ _ hn hscalar _ ih =>
    obtain ⟨hchar, hrest⟩ := List.forall_mem_append.1 hascii
    have hvalid : n.isValidChar := by
      have hlt := lt_of_hex4 hn
      rw [Nat.isValidChar]
      omega
    obtain ⟨hlt, hutf8⟩ := utf8_eq_of_ascii hvalid hchar
    -- An ASCII character has a code below 128, which the code writes as one byte.
    have hcode : jsonCodePoint n = UInt8.ofNat n := by
      rw [jsonCodePoint, if_pos (by omega), UInt8.ofInt]
      congr 1
      omega
    rw [hutf8, List.singleton_append, ← hcode, ← strtolHex_of_hex4 hn]
    exact .unicode (ih hrest)
  | @surrogates _ _ _ _ _ _ _ _ n n' _ _ _ hhigh _ hlow _ _ =>
    have hvalid : (0x10000 + (n - 0xD800) * 0x400 + (n' - 0xDC00)).isValidChar := by
      rw [Nat.isValidChar]
      omega
    have hlt := (utf8_eq_of_ascii hvalid (List.forall_mem_append.1 hascii).1).1
    omega

/-- One pass of the loop. -/
theorem jsonCopy_of_char {room : ℕ} {c b : UInt8} {pos pos' out rest : List UInt8}
    (hc : ¬ (c = 0 ∨ c = 0x22)) (hchar : jsonChar c pos = some (b, pos'))
    (hcopy : jsonCopy room pos' = some (out, rest)) :
    jsonCopy (room + 1) (c :: pos) = some (b :: out, rest) := by
  rw [jsonCopy, if_neg hc, hchar]
  simp [hcopy]

/-- Four digits are read as four bytes. -/
theorem jsonHex_append (hex : List UInt8) (hzero : 0 ∉ hex) (pos : List UInt8) :
    jsonHex hex.length (hex ++ pos) = some (hex, pos) := by
  induction hex with
  | nil => rfl
  | cons c hex ih =>
    obtain ⟨hc, hhex⟩ := List.ne_and_not_mem_of_not_mem_cons hzero
    rw [List.length_cons, List.cons_append, jsonHex, if_neg (Ne.symm hc), ih hhex]
    rfl

/-- What is read is written, with room for it. -/
theorem jsonCopy_of_reads {t v : List UInt8} (h : Reads t v) (hzero : 0 ∉ t) {room : ℕ}
    (hroom : v.length ≤ room) (post : List UInt8) :
    jsonCopy room (t ++ 0x22 :: post) = some (v, 0x22 :: post) := by
  have hbackslash : ¬ ((0x5C : UInt8) = 0 ∨ (0x5C : UInt8) = 0x22) := by decide
  -- By induction on how the text is read. Each character takes one byte of room.
  induction h generalizing room with
  | nil =>
    cases room with
    | zero => rfl
    | succ room => exact if_pos (Or.inr rfl)
  | char hquote hne _ ih =>
    obtain ⟨room, rfl⟩ := Nat.exists_eq_add_of_le' (Nat.le_trans (Nat.le_add_left 1 _) hroom)
    obtain ⟨hc, ht⟩ := List.ne_and_not_mem_of_not_mem_cons hzero
    exact jsonCopy_of_char (not_or.2 ⟨hc.symm, hquote⟩) (if_neg hne) (ih ht (Nat.le_of_succ_le_succ hroom))
  | escape hu _ ih =>
    obtain ⟨room, rfl⟩ := Nat.exists_eq_add_of_le' (Nat.le_trans (Nat.le_add_left 1 _) hroom)
    simp only [List.mem_cons, not_or] at hzero
    exact jsonCopy_of_char hbackslash (jsonUnescape_of_ne hu _)
      (ih hzero.2.2 (Nat.le_of_succ_le_succ hroom))
  | @unicode a b c d t v _ ih =>
    obtain ⟨room, rfl⟩ := Nat.exists_eq_add_of_le' (Nat.le_trans (Nat.le_add_left 1 _) hroom)
    simp only [List.mem_cons, not_or] at hzero
    obtain ⟨-, -, ha, hb, hc, hd, ht⟩ := hzero
    have hhex : jsonHex 4 (a :: b :: c :: d :: (t ++ 0x22 :: post)) =
        some ([a, b, c, d], t ++ 0x22 :: post) :=
      jsonHex_append [a, b, c, d] (by simp [ha, hb, hc, hd]) _
    have hchar : jsonChar 0x5C (0x75 :: a :: b :: c :: d :: (t ++ 0x22 :: post)) =
        some (jsonCodePoint (strtolHex [a, b, c, d]), t ++ 0x22 :: post) := by
      simp [jsonChar, jsonUnescape, hhex]
    exact jsonCopy_of_char hbackslash hchar (ih ht (Nat.le_of_succ_le_succ hroom))

/-- The first character of a copied value, and the copy of the rest. -/
theorem exists_of_jsonCopy {room : ℕ} {c b : UInt8} {pos pos' out rest : List UInt8}
    (hc : ¬ (c = 0 ∨ c = 0x22)) (hchar : jsonChar c pos = some (b, pos'))
    (hcopy : jsonCopy (room + 1) (c :: pos) = some (out, rest)) :
    ∃ v, out = b :: v ∧ jsonCopy room pos' = some (v, rest) := by
  rw [jsonCopy, if_neg hc, hchar] at hcopy
  simp only [Option.bind_eq_bind, Option.bind_some, Option.bind_eq_some_iff, Option.some.injEq, Prod.exists,
    Prod.mk.injEq] at hcopy
  obtain ⟨v, rest', hcopy, rfl, rfl⟩ := hcopy
  exact ⟨v, rfl, hcopy⟩

/-- The loop stops at the zero. -/
theorem not_jsonCopy_zero {room : ℕ} {v rest : List UInt8} :
    jsonCopy room [0] ≠ some (v, 0x22 :: rest) := by
  have hstop : jsonCopy room [0] = some ([], [0]) := by
    cases room with
    | zero => rfl
    | succ room => exact if_pos (Or.inl rfl)
  rw [hstop]
  intro h
  exact absurd (List.cons.inj (Prod.mk.inj (Option.some.inj h)).2).1 (by decide)

/-- One pass on the way to a quotation mark: it is there, or a character in front of it is read. -/
theorem jsonCopy_cases {room : ℕ} {value v rest : List UInt8} (hzero : 0 ∉ value)
    (h : jsonCopy (room + 1) (value ++ [0]) = some (v, 0x22 :: rest)) :
    (v = [] ∧ ∃ r, value = 0x22 :: r) ∨
      ∃ front pos b v', value = front ++ pos ∧ v = b :: v' ∧
        jsonCopy room (pos ++ [0]) = some (v', 0x22 :: rest) ∧
          ∀ {t w}, Reads t w → Reads (front ++ t) (b :: w) := by
  rcases value with - | ⟨c, t⟩
  · exact absurd h not_jsonCopy_zero
  obtain ⟨hc, ht⟩ := List.ne_and_not_mem_of_not_mem_cons hzero
  rw [List.cons_append] at h
  rcases eq_or_ne c 0x22 with rfl | hquote
  · have hstop : jsonCopy (room + 1) (0x22 :: (t ++ [0])) = some ([], 0x22 :: (t ++ [0])) :=
      if_pos (Or.inr rfl)
    rw [hstop] at h
    exact Or.inl ⟨(Prod.mk.inj (Option.some.inj h)).1.symm, t, rfl⟩
  have hgo : ¬ (c = 0 ∨ c = 0x22) := not_or.2 ⟨hc.symm, hquote⟩
  refine Or.inr ?_
  rcases ne_or_eq c 0x5C with hbackslash | rfl
  · obtain ⟨v', rfl, hnext⟩ := exists_of_jsonCopy hgo (if_neg hbackslash) h
    exact ⟨[c], t, c, v', rfl, rfl, hnext, .char hquote hbackslash⟩
  rcases t with - | ⟨e, t⟩
  · -- The zero is passed as an escaped character, and nothing is left.
    obtain ⟨v', -, hnext⟩ := exists_of_jsonCopy hgo (rfl : jsonChar 0x5C [0] = some (0, [])) h
    cases room with
    | zero => exact absurd (Prod.mk.inj (Option.some.inj hnext)).2 (List.cons_ne_nil _ _).symm
    | succ room => exact nomatch hnext
  rcases ne_or_eq e 0x75 with hu | rfl
  · have hchar : jsonChar 0x5C (e :: (t ++ [0])) = some ((escapes.lookup e).getD e, t ++ [0]) :=
      jsonUnescape_of_ne hu _
    obtain ⟨v', rfl, hnext⟩ := exists_of_jsonCopy hgo hchar h
    exact ⟨[0x5C, e], t, _, v', rfl, rfl, hnext, .escape hu⟩
  · have hchar : jsonChar 0x5C (0x75 :: (t ++ [0])) =
        some (jsonCodePoint (strtolHex (t.take 4)), t.drop 4 ++ [0]) :=
      jsonUnescape_unicode (List.not_mem_of_not_mem_cons ht)
    obtain ⟨v', rfl, hnext⟩ := exists_of_jsonCopy hgo hchar h
    -- With fewer than four characters the loop stops at the zero.
    rcases t with - | ⟨a, - | ⟨b, - | ⟨c, - | ⟨d, t⟩⟩⟩⟩
    · exact absurd hnext not_jsonCopy_zero
    · exact absurd hnext not_jsonCopy_zero
    · exact absurd hnext not_jsonCopy_zero
    · exact absurd hnext not_jsonCopy_zero
    · exact ⟨[0x5C, 0x75, a, b, c, d], t, _, v', rfl, rfl, hnext, .unicode⟩

/-- And nothing else is. -/
theorem exists_reads_of_jsonCopy {room : ℕ} {value v rest : List UInt8} (hzero : 0 ∉ value)
    (h : jsonCopy room (value ++ [0]) = some (v, 0x22 :: rest)) :
    ∃ t r, value = t ++ 0x22 :: r ∧ Reads t v := by
  induction room generalizing value v with
  | zero =>
    obtain ⟨rfl, hvalue⟩ := Prod.mk.inj (Option.some.inj h)
    rcases value with - | ⟨c, r⟩
    · exact absurd (List.cons.inj hvalue).1 (by decide)
    · obtain rfl := (List.cons.inj hvalue).1
      exact ⟨[], r, rfl, .nil⟩
  | succ room ih =>
    obtain ⟨rfl, r, rfl⟩ | ⟨front, pos, b, v', rfl, rfl, hnext, hreads⟩ := jsonCopy_cases hzero h
    · exact ⟨[], r, rfl, .nil⟩
    · obtain ⟨t, r, rfl, hread⟩ := ih (fun hmem ↦ hzero (List.mem_append_right _ hmem)) hnext
      exact ⟨front ++ t, r, (List.append_assoc _ _ _).symm, hreads hread⟩

/-! ### The call -/

/-- What is behind the first place of a word, by its index. -/
theorem behind_eq_map (needle s : List UInt8) :
    behind needle s = (strstrIndex s needle).map fun i ↦ s.drop (i + needle.length) := by
  induction s with
  | nil =>
    rcases needle with - | ⟨c, needle⟩
    · rfl
    · rfl
  | cons c s ih =>
    rw [behind, strstrIndex_cons]
    split_ifs with hpre
    · rw [Option.map_some, Nat.zero_add]
    · rw [ih, Option.map_map]
      refine congrFun (congrArg Option.map (funext fun i ↦ ?_)) _
      rw [Function.comp_apply, Nat.add_right_comm, List.drop_succ_cons]

/-- What stands behind the first quoted name, and what the separators leave of it. -/
theorem fieldText_iff_behind {body field value : List UInt8} :
    FieldText body field value ↔ ∃ t, behind (jsonPattern field) body = some t ∧
      t.dropWhile (fun c ↦ c = 0x20 ∨ c = 0x3A) = 0x22 :: value := by
  simp only [fieldText_iff, behind_eq_map, Option.map_eq_some_iff]
  constructor
  · rintro ⟨i, hfirst, hvalue⟩
    exact ⟨_, ⟨i, hfirst, rfl⟩, hvalue⟩
  · rintro ⟨t, ⟨i, hfirst, rfl⟩, hvalue⟩
    exact ⟨i, hfirst, hvalue⟩

/-- The text of a field is read as a value. -/
def Decodes (body field v : List UInt8) : Prop :=
  ∃ t rest, FieldText body field (t ++ 0x22 :: rest) ∧ Reads t v

/-- The return value is `-1`. -/
def JsonGet.Fails : JsonGet → Prop
  | .overrun => False
  | .missing => True
  | .stored _ found => found = false

/-- A value that ends inside an escape ends with a backslash. -/
theorem EndsInEscape.getLast? {room : ℕ} {value : List UInt8} (h : EndsInEscape room value) :
    value.getLast? = some 0x5C := by
  induction h with
  | backslash => rfl
  | char _ _ _ ih => rw [List.getLast?_cons, ih, Option.getD_some]
  | escape _ _ ih =>
    rw [List.getLast?_cons, List.getLast?_cons, ih, Option.getD_some, Option.getD_some]
  | unicode _ ih => simp only [List.getLast?_cons, ih, Option.getD_some]

theorem FieldText.suffix {body field value : List UInt8} (h : FieldText body field value) :
    value <:+ body := by
  obtain ⟨pre, seps, hbody, -⟩ := h
  rw [hbody]
  exact (List.suffix_cons _ _).trans (List.suffix_append _ _)

section

variable {body field v : List UInt8} (hzero : 0 ∉ body)
include hzero

/-- A member that decodes is stored if there is room. -/
theorem jsonGetString_of_decodes (h : Decodes body field v) {outSize : ℕ} (hroom : v.length < outSize) :
    jsonGetString (body ++ [0]) field outSize = .stored v true := by
  obtain ⟨t, rest, htext, hread⟩ := h
  obtain ⟨-, hnone⟩ | ⟨value, hvalue, hcall⟩ := jsonGetString_append_zero hzero field outSize
  · exact absurd htext (hnone _)
  obtain rfl := (hvalue _).1 htext
  have ht : 0 ∉ t := fun hmem ↦ hzero (htext.suffix.subset (List.mem_append_left _ hmem))
  rw [hcall, jsonValue, List.append_assoc, List.cons_append,
    jsonCopy_of_reads hread ht (Nat.le_sub_one_of_lt hroom)]
  exact if_neg (Nat.ne_of_gt (Nat.zero_lt_of_lt hroom))

/-- What is stored is what the member decodes to. -/
theorem decodes_of_jsonGetString {outSize : ℕ}
    (h : jsonGetString (body ++ [0]) field outSize = .stored v true) : Decodes body field v := by
  obtain ⟨hmissing, -⟩ | ⟨value, hvalue, hcall⟩ := jsonGetString_append_zero hzero field outSize
  · exact nomatch hmissing.symm.trans h
  have htext := (hvalue value).2 rfl
  obtain ⟨-, c, rest, hcopy, hfound⟩ := jsonValue_eq_stored (hcall.symm.trans h)
  obtain rfl : c = 0x22 := of_decide_eq_true hfound.symm
  obtain ⟨t, r, rfl, hread⟩ := exists_reads_of_jsonCopy (fun hmem ↦ hzero (htext.suffix.subset hmem)) hcopy
  exact ⟨t, r, htext, hread⟩

/-- A member that decodes to nothing is not found, whatever the room. -/
theorem fails_of_not_decodes (hlast : body.getLast? ≠ some 0x5C) (h : ∀ v, ¬ Decodes body field v)
    {outSize : ℕ} (hsize : 1 ≤ outSize) : (jsonGetString (body ++ [0]) field outSize).Fails := by
  rcases hget : jsonGetString (body ++ [0]) field outSize with - | - | ⟨v, found⟩
  · obtain ⟨hmissing, -⟩ | ⟨value, hvalue, hcall⟩ := jsonGetString_append_zero hzero field outSize
    · exact nomatch hmissing.symm.trans hget
    have htext := (hvalue value).2 rfl
    have hvalueZero : 0 ∉ value := fun hmem ↦ hzero (htext.suffix.subset hmem)
    refine absurd (hcall.symm.trans hget) ((jsonValue_ne_overrun_iff hsize).2 ?_)
    refine (copyStops_append_zero hvalueZero).2 fun hends ↦ hlast ?_
    obtain ⟨pre, hpre⟩ := htext.suffix
    rw [← hpre, List.getLast?_append, hends.getLast?, Option.some_or]
  · trivial
  · cases found with
    | false => rfl
    | true => exact absurd (decodes_of_jsonGetString hzero hget) (h v)

end

/-! ### Objects -/

/-- A name that fits the pattern, and can stand between two quotation marks. -/
structure OrdinaryName (field : List UInt8) : Prop where
  length_le : field.length ≤ 61
  searchable : Searchable field

/-- There are only spaces and colons. -/
def Passed (s : List UInt8) : Prop :=
  ∀ c ∈ s, c = 0x20 ∨ c = 0x3A

/-- What is read from a place. If the string behind the place can be passed, its closing quotation mark is taken
for the opening one of the value. -/
def Gives : Place → List UInt8 → Prop
  | .name m, v => Passed m.colon ∧ v = m.value.value
  | .colon m next, v => Passed m.value.text ∧ ∃ m' ∈ next, v = m.after.1 ++ 0x2C :: m'.before.1
  | .value _, _ => False
  | .comma _ next, v => Passed next.name.text ∧ v = next.colon

/-- What is read for a field: what its first place gives. -/
def GivesValue (o : FlatObject) (field v : List UInt8) : Prop :=
  ∃ place, firstPlace field o.members = some place ∧ Gives place v

/-- Nowhere in the text does what is looked for stand in front of a quotation mark, with only spaces and colons
between them. -/
def NeverLeads (o : FlatObject) (field : List UInt8) : Prop :=
  ∀ pre seps value, Passed seps → o.text ≠ pre ++ jsonPattern field ++ seps ++ 0x22 :: value

/-- A large enough buffer gets the value of the one member of the name, and the call fails if there is
none. -/
structure Extracts (o : FlatObject) (field : List UInt8) : Prop where
  one : ∀ m, o.named field = [m] →
    ∃ size, ∀ outSize ≥ size, jsonGetString (o.text ++ [0]) field outSize = .stored m.value.value true
  missing : o.named field = [] →
    ∃ size, ∀ outSize ≥ size, (jsonGetString (o.text ++ [0]) field outSize).Fails

/-- A name that needs no escapes is one. -/
theorem ordinaryName_of_forall {field : List UInt8} (hlen : field.length ≤ 61)
    (h : ∀ c ∈ field, IsUnescaped c) : OrdinaryName field :=
  ⟨hlen, fun hmem ↦ (h _ hmem).2.1 rfl,
    fun hsuffix ↦ (h _ (hsuffix.subset (List.mem_singleton_self _))).2.2 rfl⟩

/-- Names of up to 61 bytes are searched for whole. -/
theorem jsonPattern_of_length_le {field : List UInt8} (h : field.length ≤ 61) :
    jsonPattern field = delimited 0x22 field := by
  have hlen : (delimited 0x22 field).length ≤ 63 := by
    rw [delimited, List.length_cons, List.length_append, List.length_singleton]
    omega
  exact List.take_of_length_le hlen

/-- A text is read as one value. -/
theorem Reads.unique {t t' v v' r r' : List UInt8} (h : Reads t v) (h' : Reads t' v')
    (hzero : 0 ∉ t ++ 0x22 :: r) (heq : t ++ 0x22 :: r = t' ++ 0x22 :: r') : v = v' := by
  have ht : 0 ∉ t := fun hmem ↦ hzero (List.mem_append_left _ hmem)
  have ht' : 0 ∉ t' := fun hmem ↦ hzero (heq ▸ List.mem_append_left _ hmem)
  have hcopy := jsonCopy_of_reads h ht (Nat.le_add_right _ v'.length) r
  rw [heq, jsonCopy_of_reads h' ht' (Nat.le_add_left _ v.length) r'] at hcopy
  exact (Prod.mk.inj (Option.some.inj hcopy)).1.symm

/-- Without quotes and backslashes a value stands for itself. -/
theorem reads_self {l : List UInt8} (hl : ∀ c ∈ l, c ≠ 0x22 ∧ c ≠ 0x5C) : Reads l l := by
  have h := reads_append hl .nil
  rwa [List.append_nil] at h

/-- White space with a colon or a comma in it is read as it is. -/
theorem reads_separator (a b : Blanks) {c : UInt8} (hc : c ∈ [0x3A, 0x2C]) :
    Reads (a.1 ++ c :: b.1) (a.1 ++ c :: b.1) := by
  have hseparators : ∀ c : UInt8, c ∈ [0x3A, 0x2C] → 0x22 ≠ c ∧ 0x5C ≠ c := forall_mem_of_all (by decide)
  obtain ⟨hquote, hbackslash⟩ := hseparators c hc
  refine reads_self fun x hx ↦ ⟨?_, ?_⟩ <;> rintro rfl
  · exact notMem_separator quote_notMem_blanks hquote a b hx
  · exact notMem_separator (by decide) hbackslash a b hx

/-- The separators lead over a text to the quotation mark behind it only if they pass it. -/
theorem dropWhile_iff {s : List UInt8} (hs : Escaped 0x22 0x5C s) (x value : List UInt8) :
    (s ++ 0x22 :: x).dropWhile (fun c ↦ c = 0x20 ∨ c = 0x3A) = 0x22 :: value ↔ Passed s ∧ value = x := by
  induction hs with
  | nil =>
    rw [List.nil_append, List.dropWhile_cons, if_neg (by decide), Passed,
      and_iff_right (List.forall_mem_nil _)]
    exact ⟨fun h ↦ (List.cons.inj h).2.symm, fun h ↦ h ▸ rfl⟩
  | @char c t hc _ ih =>
    rw [List.cons_append, List.dropWhile_cons, Passed, List.forall_mem_cons, and_assoc]
    split_ifs with hsep
    · rw [ih, and_iff_right (of_decide_eq_true hsep)]
      rfl
    · exact iff_of_false (fun h ↦ hc (List.cons.inj h).1) fun h ↦ hsep (decide_eq_true h.1)
  | delimiter _ _ =>
    -- A backslash is not passed.
    rw [List.cons_append, List.dropWhile_cons, if_neg (by decide)]
    refine iff_of_false (fun h ↦ absurd (List.cons.inj h).1 (by decide)) fun h ↦ ?_
    exact absurd (h.1 0x5C List.mem_cons_self) (by decide)

theorem escaped_of_notMem {s : List UInt8} (hs : 0x22 ∉ s) : Escaped 0x22 0x5C s := by
  have h := escaped_append (fun c hc heq ↦ hs (heq ▸ hc)) (Escaped.nil (q := 0x22) (e := 0x5C))
  rwa [List.append_nil] at h

/-- Behind a text that is passed one text is read. -/
theorem exists_reads_iff {s x w v rest : List UInt8} (hs : Escaped 0x22 0x5C s) (hread : Reads x w)
    (hzero : 0 ∉ x ++ 0x22 :: rest) :
    (∃ t r, (s ++ 0x22 :: (x ++ 0x22 :: rest)).dropWhile (fun c ↦ c = 0x20 ∨ c = 0x3A) =
      0x22 :: (t ++ 0x22 :: r) ∧ Reads t v) ↔ Passed s ∧ v = w := by
  simp only [dropWhile_iff hs]
  constructor
  · rintro ⟨t, r, ⟨hpassed, heq⟩, hreads⟩
    exact ⟨hpassed, hreads.unique hread (heq ▸ hzero) heq⟩
  · rintro ⟨hpassed, rfl⟩
    exact ⟨x, rest, ⟨hpassed, rfl⟩, hread⟩

/-- They do not lead over another character. -/
theorem dropWhile_ne_quote {s : List UInt8} (hs : 0x22 ∉ s) {c : UInt8} (hquote : c ≠ 0x22)
    (hc : ¬ (c = 0x20 ∨ c = 0x3A)) (rest value : List UInt8) :
    (s ++ c :: rest).dropWhile (fun c ↦ c = 0x20 ∨ c = 0x3A) ≠ 0x22 :: value := by
  induction s with
  | nil =>
    rw [List.nil_append, List.dropWhile_cons, if_neg fun h ↦ hc (of_decide_eq_true h)]
    exact fun h ↦ hquote (List.cons.inj h).1
  | cons d s ih =>
    obtain ⟨hd, hs⟩ := List.ne_and_not_mem_of_not_mem_cons hs
    rw [List.cons_append, List.dropWhile_cons]
    split_ifs
    · exact ih hs
    · exact fun h ↦ hd (List.cons.inj h).1.symm

/-- Behind a value there is none. -/
theorem dropWhile_after_ne (m : Member) {c : UInt8} (hc : c ∈ [0x2C, 0x7D]) (rest value : List UInt8) :
    (m.after.1 ++ c :: rest).dropWhile (fun c ↦ c = 0x20 ∨ c = 0x3A) ≠ 0x22 :: value := by
  have hend : ∀ c : UInt8, c ∈ [0x2C, 0x7D] → c ≠ 0x22 ∧ ¬ (c = 0x20 ∨ c = 0x3A) :=
    forall_mem_of_all (by decide)
  exact dropWhile_ne_quote (notMem_of_blanks quote_notMem_blanks m.after) (hend c hc).1 (hend c hc).2 rest
    value

/-- **What is read behind a place.** -/
theorem gives_iff {place : Place} {t v : List UInt8} (h : place.Behind t) (hzero : 0 ∉ t) :
    (∃ x r, t.dropWhile (fun c ↦ c = 0x20 ∨ c = 0x3A) = 0x22 :: (x ++ 0x22 :: r) ∧ Reads x v) ↔
      Gives place v := by
  -- What stands behind the place decides: a literal, the text between two of them, or no quote at all.
  match place, h with
  | .name m, ⟨rest, ht⟩ =>
    subst ht
    exact exists_reads_iff (escaped_of_notMem (quote_notMem_colon m))
      (reads_of_denotes m.value.denotes m.value.ascii)
      fun hmem ↦ hzero (List.mem_append_right _ (List.mem_cons_of_mem _ hmem))
  | .colon m none, ⟨rest, hquote, ht⟩ =>
    subst ht
    refine iff_of_false ?_ fun hgives ↦ Option.not_mem_none _ hgives.2.choose_spec.1
    rintro ⟨x, r, hdrop, -⟩
    obtain ⟨-, heq⟩ := (dropWhile_iff m.value.denotes.escaped _ _).1 hdrop
    exact hquote (heq ▸ List.mem_append_right x List.mem_cons_self)
  | .colon m (some next), ⟨rest, ht⟩ =>
    subst ht
    rw [exists_reads_iff m.value.denotes.escaped (reads_separator m.after next.before (by decide))
      fun hmem ↦ hzero (List.mem_append_right _ (List.mem_cons_of_mem _ hmem))]
    exact and_congr_right fun _ ↦ ⟨fun hv ↦ ⟨next, rfl, hv⟩, by rintro ⟨m', ⟨⟩, hv⟩; exact hv⟩
  | .value m, ⟨c, hc, rest, ht⟩ =>
    subst ht
    refine iff_of_false ?_ id
    rintro ⟨x, r, hdrop, -⟩
    exact dropWhile_after_ne m hc _ _ hdrop
  | .comma _ next, ⟨rest, ht⟩ =>
    subst ht
    exact exists_reads_iff next.name.denotes.escaped
      (reads_separator next.beforeColon next.afterColon List.mem_cons_self)
      fun hmem ↦ hzero (List.mem_append_right _ (List.mem_cons_of_mem _ hmem))

theorem behind_suffix {needle s t : List UInt8} (h : behind needle s = some t) : t <:+ s := by
  rw [behind_eq_map, Option.map_eq_some_iff] at h
  obtain ⟨i, -, rfl⟩ := h
  exact List.drop_suffix _ _

/-- **What is read for an ordinary name.** -/
theorem decodes_iff_givesValue {o : FlatObject} {field v : List UInt8} (hf : OrdinaryName field) :
    Decodes o.text field v ↔ GivesValue o field v := by
  have hdecodes : Decodes o.text field v ↔ ∃ t, behind (delimited 0x22 field) o.text = some t ∧
      ∃ x r, t.dropWhile (fun c ↦ c = 0x20 ∨ c = 0x3A) = 0x22 :: (x ++ 0x22 :: r) ∧ Reads x v := by
    simp only [Decodes, fieldText_iff_behind, jsonPattern_of_length_le hf.length_le]
    constructor
    · rintro ⟨x, r, ⟨t, ht, hdrop⟩, hread⟩
      exact ⟨t, ht, x, r, hdrop, hread⟩
    · rintro ⟨t, ht, x, r, hdrop, hread⟩
      exact ⟨x, r, ⟨t, ht, hdrop⟩, hread⟩
  have hfound := found_text hf.searchable o
  have hzero := zero_notMem_text o
  rw [hdecodes, GivesValue]
  rcases hbehind : behind (delimited 0x22 field) o.text with - | t <;> rw [hbehind] at hfound
  · cases hfound with
    | none hnone =>
      rw [hnone]
      exact iff_of_false (fun ⟨_, h, _⟩ ↦ by cases h) fun ⟨_, h, _⟩ ↦ by cases h
  · cases hfound with
    | @some place _ hplace ht =>
      have htzero : 0 ∉ t := fun hmem ↦ hzero ((behind_suffix hbehind).subset hmem)
      rw [hplace]
      simp only [Option.some.injEq, exists_eq_left']
      exact gives_iff ht htzero

/-- **Is the field found?** -/
theorem extracts_iff_decodes {o : FlatObject} {field : List UInt8} :
    Extracts o field ↔ (∀ m, o.named field = [m] → Decodes o.text field m.value.value) ∧
      (o.named field = [] → ∀ v, ¬ Decodes o.text field v) := by
  have hzero := zero_notMem_text o
  constructor
  · rintro ⟨hone, hmissing⟩
    refine ⟨fun m hm ↦ ?_, fun hnone v hv ↦ ?_⟩
    · obtain ⟨size, hsize⟩ := hone m hm
      exact decodes_of_jsonGetString hzero (hsize size le_rfl)
    · obtain ⟨size, hsize⟩ := hmissing hnone
      have hfails := hsize (max size (v.length + 1)) (Nat.le_max_left _ _)
      rw [jsonGetString_of_decodes hzero hv (Nat.le_max_right size (v.length + 1))] at hfails
      exact nomatch hfails
  · rintro ⟨hone, hmissing⟩
    refine ⟨fun m hm ↦ ⟨m.value.value.length + 1, fun outSize hle ↦ ?_⟩,
      fun hnone ↦ ⟨1, fun outSize hle ↦ ?_⟩⟩
    · exact jsonGetString_of_decodes hzero (hone m hm) hle
    · exact fails_of_not_decodes hzero (getLast?_text_ne o) (hmissing hnone) hle

/-- If what is looked for never leads to a quotation mark, nothing is read. -/
theorem NeverLeads.not_decodes {o : FlatObject} {field : List UInt8} (h : NeverLeads o field)
    (v : List UInt8) : ¬ Decodes o.text field v := by
  rintro ⟨t, rest, ⟨pre, seps, hbody, hseps, -⟩, -⟩
  refine h pre seps (t ++ 0x22 :: rest) hseps ?_
  rw [hbody]

/-- **Names without escapes**, none of which is made of white space and a colon or a comma: the field is found if
no string in front of its name ends in it, and only spaces stand around its colon. A field that is not there is
never found. -/
theorem extracts_iff_of_plain {o : FlatObject} {field : List UInt8} (hf : OrdinaryName field)
    (hseparator : ∀ a b : Blanks, ∀ c ∈ [0x3A, 0x2C], field ≠ a.1 ++ c :: b.1)
    (hplain : ∀ m ∈ o.members, ∀ c ∈ m.name.text, IsUnescaped c) :
    Extracts o field ↔
      ∀ m, o.named field = [m] → firstPlace field o.members = some (.name m) ∧ Passed m.colon := by
  -- The place is the name of a member of that name, or a value, where nothing is read.
  have hplace : ∀ v, GivesValue o field v → ∃ m ∈ o.named field,
      firstPlace field o.members = some (.name m) ∧ Passed m.colon ∧ v = m.value.value := by
    rintro v ⟨place, hfirst, hgives⟩
    have hcases := firstPlace_cases hfirst
    match place, hcases with
    | .name m, ⟨hmem, hends⟩ =>
      have htext := hplain m hmem
      rw [endsIn_iff_of_notMem fun h ↦ (htext _ h).2.1 rfl] at hends
      refine ⟨m, List.mem_filter.2 ⟨hmem, decide_eq_true ?_⟩, hfirst, hgives⟩
      rw [m.name.denotes.eq_of_unescaped htext, hends]
    | .colon m _, hcolon => exact absurd hcolon.symm (hseparator _ _ _ List.mem_cons_self)
    | .comma m next, hcomma => exact absurd hcomma.symm (hseparator _ _ _ (by decide))
    | .value _, _ => exact hgives.elim
  simp only [extracts_iff_decodes, decodes_iff_givesValue hf]
  constructor
  · rintro ⟨hone, -⟩ m hm
    obtain ⟨m', hmem, hfirst, hpassed, -⟩ := hplace _ (hone m hm)
    obtain rfl : m' = m := List.mem_singleton.1 (hm ▸ hmem)
    exact ⟨hfirst, hpassed⟩
  · intro hone
    refine ⟨fun m hm ↦ ⟨_, (hone m hm).1, (hone m hm).2, rfl⟩, fun hnone v hv ↦ ?_⟩
    obtain ⟨m, hmem, -⟩ := hplace v hv
    exact absurd (hnone ▸ hmem) List.not_mem_nil

/-- **The lookup of a field**, endpoint: for every object and every ordinary name, the call extracts the field
exactly when its first place gives the value of the one member, and gives nothing if there is none. For other
names it is enough that there is not exactly one such member, and, if there is none, that what is looked for
never leads to a quotation mark. -/
theorem extracts_iff (o : FlatObject) (field : List UInt8) :
    (OrdinaryName field → (Extracts o field ↔
      (∀ m, o.named field = [m] → GivesValue o field m.value.value) ∧
        (o.named field = [] → ∀ v, ¬ GivesValue o field v))) ∧
    (¬ OrdinaryName field → (∀ m, o.named field ≠ [m]) → (o.named field = [] → NeverLeads o field) →
      Extracts o field) := by
  refine ⟨fun hf ↦ ?_, fun _ hone hnone ↦ ?_⟩
  · simp only [← decodes_iff_givesValue hf]
    exact extracts_iff_decodes
  · exact extracts_iff_decodes.2 ⟨fun m hm ↦ absurd hm (hone m), fun hmissing ↦ (hnone hmissing).not_decodes⟩

/-- A member without white space. -/
def plainMember (name value : Literal) : Member :=
  let blank : Blanks := ⟨[], List.forall_mem_nil _⟩
  { before := blank, name, beforeColon := blank, afterColon := blank, value, after := blank }

/-- `{"a":"x","sdp":"v"}` -/
def sampleObject : FlatObject :=
  let blank : Blanks := ⟨[], List.forall_mem_nil _⟩
  ⟨blank, blank,
    [plainMember (.plain (ascii "a") (forall_mem_of_all rfl)) (.plain (ascii "x") (forall_mem_of_all rfl)),
      plainMember (.plain (ascii "sdp") (forall_mem_of_all rfl)) (.plain (ascii "v") (forall_mem_of_all rfl))],
    blank⟩

/-- The field is extracted; and a name that the pattern cuts is found nowhere. -/
theorem extracts_iff_sample : Extracts sampleObject (ascii "sdp") ∧
    Extracts sampleObject (List.replicate 62 0x6E) := by
  refine ⟨((extracts_iff sampleObject (ascii "sdp")).1
    (ordinaryName_of_forall (by decide) (forall_mem_of_all rfl))).2 ⟨fun m hm ↦ ?_, fun hnone ↦ ?_⟩,
    (extracts_iff sampleObject (List.replicate 62 0x6E)).2 (fun hf ↦ absurd hf.length_le (by decide))
      (fun m hm ↦ absurd hm.symm (List.cons_ne_nil _ _)) fun _ pre seps value _ heq ↦ ?_⟩
  · obtain rfl := (List.cons.inj hm).1
    exact ⟨.name _, rfl, forall_mem_of_all rfl, rfl⟩
  · exact absurd hnone (List.cons_ne_nil _ _)
  · -- The pattern is longer than the object.
    have hlength := congrArg List.length heq
    have hobject : sampleObject.text.length = 19 := by decide
    have hpattern : (jsonPattern (List.replicate 62 0x6E)).length = 63 := by decide
    rw [hobject, List.length_append, List.length_append, List.length_append, hpattern] at hlength
    omega

/-- The name of the field stands in front as a value: `{"a":"sdp","sdp":"v"}`. -/
theorem not_extracts : ¬ ∀ (o : FlatObject) (field : List UInt8), 0 ∉ field → Extracts o field := by
  intro h
  let a := Literal.plain (ascii "a") (forall_mem_of_all rfl)
  let sdp := Literal.plain (ascii "sdp") (forall_mem_of_all rfl)
  let v := Literal.plain (ascii "v") (forall_mem_of_all rfl)
  let blank : Blanks := ⟨[], List.forall_mem_nil _⟩
  let o : FlatObject := ⟨blank, blank, [plainMember a sdp, plainMember sdp v], blank⟩
  have hordinary : OrdinaryName (ascii "sdp") :=
    ordinaryName_of_forall (by decide) (forall_mem_of_all rfl)
  have hnamed : o.named (ascii "sdp") = [plainMember sdp v] := rfl
  have hfirst : firstPlace (ascii "sdp") o.members = some (.value (plainMember a sdp)) := rfl
  obtain ⟨place, hplace, hgives⟩ := (decodes_iff_givesValue hordinary).1
    ((extracts_iff_decodes.1 (h o (ascii "sdp") (by decide))).1 _ hnamed)
  obtain rfl := Option.some.inj (hfirst.symm.trans hplace)
  exact hgives

end Camstream
