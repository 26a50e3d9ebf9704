import Mathlib.Algebra.Group.Int.Defs
import Mathlib.Algebra.Group.Nat.Defs
import Mathlib.Data.Int.Notation
import Mathlib.Data.List.DropRight
import Mathlib.Data.List.Infix

/-!
# C strings

The handful of functions of the C library that the parsers use, over lists of bytes. A C string is a
list without the terminating zero; `cstring` cuts a buffer at the zero, and the other functions are for
lists that have none.
-/

namespace CString

/-- The bytes of a literal. -/
def ascii (s : String) : List UInt8 :=
  s.toList.map fun c ↦ UInt8.ofNat c.toNat

/-- A property of every byte of a text, by evaluation along the text. -/
theorem forall_mem_of_all {α : Type} {P : α → Prop} [DecidablePred P] {s : List α}
    (h : s.all (fun c ↦ decide (P c)) = true) : ∀ c ∈ s, P c :=
  fun c hc ↦ of_decide_eq_true (List.all_eq_true.1 h c hc)

/-- A buffer read as a string: up to the first zero. -/
def cstring (buf : List UInt8) : List UInt8 :=
  buf.takeWhile (· ≠ 0)

/-! ### Up to a byte -/

theorem takeWhile_ne_cons_self (c : UInt8) (s : List UInt8) : (c :: s).takeWhile (· ≠ c) = [] :=
  List.takeWhile_cons_of_neg fun h ↦ of_decide_eq_true h rfl

theorem takeWhile_ne_cons {b c : UInt8} (h : b ≠ c) (s : List UInt8) :
    (b :: s).takeWhile (· ≠ c) = b :: s.takeWhile (· ≠ c) := by
  rw [List.takeWhile_cons, if_pos (decide_eq_true h)]

/-- The text in front of the first of some byte. -/
theorem takeWhile_ne_append {c : UInt8} {s : List UInt8} (h : c ∉ s) (after : List UInt8) :
    (s ++ c :: after).takeWhile (· ≠ c) = s := by
  induction s with
  | nil => exact takeWhile_ne_cons_self c after
  | cons b s ih =>
    obtain ⟨hb, hs⟩ := List.ne_and_not_mem_of_not_mem_cons h
    rw [List.cons_append, takeWhile_ne_cons (Ne.symm hb), ih hs]

/-- A text without some byte. -/
theorem takeWhile_ne_eq_self {c : UInt8} {s : List UInt8} (h : c ∉ s) : s.takeWhile (· ≠ c) = s :=
  List.takeWhile_eq_self_iff.2 fun _ hb ↦ decide_eq_true fun hbc ↦ h (hbc ▸ hb)

/-- A text that has some byte, cut in front of the first one. -/
theorem exists_eq_append_cons {c : UInt8} {s : List UInt8} (h : c ∈ s) :
    ∃ after, s = s.takeWhile (· ≠ c) ++ c :: after := by
  induction s with
  | nil => exact absurd h List.not_mem_nil
  | cons b s ih =>
    rcases eq_or_ne b c with rfl | hne
    · exact ⟨s, by rw [takeWhile_ne_cons_self, List.nil_append]⟩
    · obtain ⟨after, hs⟩ := ih (List.mem_of_ne_of_mem hne.symm h)
      exact ⟨after, by rw [takeWhile_ne_cons hne, List.cons_append, ← hs]⟩

/-- A string, whatever stands behind its terminating zero. -/
theorem cstring_append_zero {s : List UInt8} (h : 0 ∉ s) (after : List UInt8) :
    cstring (s ++ 0 :: after) = s :=
  takeWhile_ne_append h after

/-- `strncmp(s, prefix, strlen(prefix)) == 0` -/
def startsWith (s pre : List UInt8) : Bool :=
  pre.isPrefixOf s

/-- `strstr(s, needle) != NULL` -/
def strstr (s needle : List UInt8) : Bool :=
  s.tails.any fun t ↦ needle.isPrefixOf t

/-- A word in the middle is found. -/
theorem strstr_append (s needle t : List UInt8) : strstr (s ++ (needle ++ t)) needle = true :=
  List.any_eq_true.2 ⟨needle ++ t, (List.mem_tails _ _).2 (List.suffix_append _ _),
    List.isPrefixOf_iff_prefix.2 (List.prefix_append _ _)⟩

/-- `strstr(s, needle) - s`: where the first occurrence is. -/
def strstrIndex (s needle : List UInt8) : Option ℕ :=
  s.tails.findIdx? fun t ↦ needle.isPrefixOf t

/-- The first place of a word, by one character. -/
theorem strstrIndex_cons (c : UInt8) (s needle : List UInt8) :
    strstrIndex (c :: s) needle =
      if needle <+: c :: s then some 0 else (strstrIndex s needle).map (· + 1) := by
  rw [strstrIndex, List.tails_cons, List.findIdx?_cons]
  simp only [List.isPrefixOf_iff_prefix]
  rfl

theorem strstrIndex_of_prefix {s needle : List UInt8} (h : needle <+: s) :
    strstrIndex s needle = some 0 := by
  cases s with
  | nil =>
    obtain rfl := List.prefix_nil.1 h
    rfl
  | cons c s => rw [strstrIndex_cons, if_pos h]

/-- What is found is an occurrence. -/
theorem prefix_of_strstrIndex {s needle : List UInt8} {i : ℕ} (h : strstrIndex s needle = some i) :
    needle <+: s.drop i := by
  induction s generalizing i with
  | nil =>
    rw [strstrIndex, List.tails, List.findIdx?_cons] at h
    split_ifs at h with hpre
    · rw [List.drop_nil]
      exact List.isPrefixOf_iff_prefix.1 hpre
    · exact absurd h (by simp)
  | cons c s ih =>
    rw [strstrIndex_cons] at h
    split_ifs at h with hpre
    · obtain rfl := Option.some.inj h
      exact hpre
    · obtain ⟨j, hj, rfl⟩ := Option.map_eq_some_iff.1 h
      exact ih hj

/-- A piece of text that no occurrence can begin in is passed over. -/
theorem strstrIndex_append {a needle : List UInt8}
    (h : ∀ t ∈ a.tails, t ≠ [] → ¬ needle <+: t ∧ ¬ t <+: needle) (b : List UInt8) :
    strstrIndex (a ++ b) needle = (strstrIndex b needle).map (· + a.length) := by
  induction a with
  | nil => exact (congrFun Option.map_id (strstrIndex b needle)).symm
  | cons c a ih =>
    rw [List.tails_cons, List.forall_mem_cons] at h
    obtain ⟨hneedle, ht⟩ := h.1 (List.cons_ne_nil c a)
    have hno : ¬ needle <+: c :: (a ++ b) := fun hpre ↦
      (List.prefix_or_prefix_of_prefix hpre (List.prefix_append (c :: a) b)).elim hneedle ht
    rw [List.cons_append, strstrIndex_cons, if_neg hno, ih h.2, Option.map_map]
    rfl

/-- What `isspace` accepts. -/
def isspace (c : UInt8) : Bool :=
  c = 32 || (9 ≤ c && c ≤ 13)

/-- What `isdigit` accepts. -/
def isdigit (c : UInt8) : Bool :=
  48 ≤ c && c ≤ 57

/-- `strtol(s, NULL, 10)` with a 64-bit `long`: white space, a sign, digits, clamped to the range. -/
def strtol (s : List UInt8) : ℤ :=
  let s := s.dropWhile isspace
  let negative := s.head? = some 0x2D
  let s := if negative ∨ s.head? = some 0x2B then s.tail else s
  let magnitude : ℤ :=
    (s.takeWhile isdigit).foldl (fun n d ↦ 10 * n + ((d.toNat : ℤ) - 48)) 0
  if negative then max (-magnitude) (-2 ^ 63) else min magnitude (2 ^ 63 - 1)

/-- `atoi(s)`: `strtol` converted to a 32-bit `int`. -/
def atoi (s : List UInt8) : ℤ :=
  (strtol s).bmod (2 ^ 32)

/-- The value of a hexadecimal digit. -/
def hexDigit (c : UInt8) : Option ℕ :=
  if 0x30 ≤ c ∧ c ≤ 0x39 then some (c.toNat - 0x30)
  else if 0x41 ≤ c ∧ c ≤ 0x46 then some (c.toNat - 0x41 + 10)
  else if 0x61 ≤ c ∧ c ≤ 0x66 then some (c.toNat - 0x61 + 10)
  else none

/-- The hexadecimal digits in front of a string, behind a number. -/
def hexValue (n : ℕ) : List UInt8 → ℕ
  | [] => n
  | c :: s =>
    match hexDigit c with
    | some d => hexValue (16 * n + d) s
    | none => n

/-- `strtol(s, NULL, 16)` for strings too short to leave the range: white space, a sign, `0x`, digits. -/
def strtolHex (s : List UInt8) : ℤ :=
  let s := s.dropWhile isspace
  let negative := s.head? = some 0x2D
  let s := if negative ∨ s.head? = some 0x2B then s.tail else s
  let s := if startsWith s (ascii "0x") ∨ startsWith s (ascii "0X") then s.drop 2 else s
  let magnitude : ℤ := hexValue 0 s
  if negative then -magnitude else magnitude

example : (strtolHex (ascii "00e9"), strtolHex (ascii " -0x"), strtolHex (ascii "0X1g")) =
    (0xE9, 0, 1) := by decide

example : (atoi (ascii " 96 H264/90000"), atoi (ascii "-1x"), atoi (ascii "4294967297")) =
    (96, -1, 1) := by decide

end CString
