import Camstream.Lib.Bytes
import Camstream.Lib.CString
import Camstream.Lib.Delimited
import Camstream.Lib.Utf8

/-!
# JSON strings

What stands between the quotation marks of a JSON string, and the text it denotes, both as the bytes of
UTF-8. A character of several bytes stands for itself; bytes that are no such character denote nothing.
-/

namespace JsonString

open Bytes CString Delimited Utf8

/-- The bytes of the characters that stand for themselves. -/
def IsUnescaped (c : UInt8) : Prop :=
  0x20 ≤ c ∧ c ≠ 0x22 ∧ c ≠ 0x5C

instance : DecidablePred IsUnescaped :=
  fun c ↦ inferInstanceAs (Decidable (0x20 ≤ c ∧ c ≠ 0x22 ∧ c ≠ 0x5C))

/-- The letters behind a backslash, each with what it denotes. -/
def escapes : List (UInt8 × UInt8) :=
  [(0x22, 0x22), (0x5C, 0x5C), (0x2F, 0x2F), (0x62, 8), (0x66, 12), (0x6E, 10), (0x72, 13), (0x74, 9)]

/-- A code unit, as four hexadecimal digits. -/
def hex4 (a b c d : UInt8) : Option ℕ := do
  let a ← hexDigit a
  let b ← hexDigit b
  let c ← hexDigit c
  let d ← hexDigit d
  some (((16 * a + b) * 16 + c) * 16 + d)

/-- The characters that stand for themselves. -/
def IsUnescapedChar (ch : Char) : Prop :=
  0x20 ≤ ch.val.toNat ∧ ch.val.toNat ≠ 0x22 ∧ ch.val.toNat ≠ 0x5C

/-- A character of the text. -/
def utf8 (n : ℕ) : List UInt8 :=
  String.utf8EncodeChar (Char.ofNat n)

/-- `Denotes body text`: between quotation marks, `body` is a JSON string for `text`. A surrogate that is
not part of a pair denotes nothing. -/
inductive Denotes : List UInt8 → List UInt8 → Prop
  | nil : Denotes [] []
  | unescaped {ch : Char} {t v : List UInt8} :
      IsUnescapedChar ch → Denotes t v →
        Denotes (String.utf8EncodeChar ch ++ t) (String.utf8EncodeChar ch ++ v)
  | escape {e c : UInt8} {t v : List UInt8} :
      (e, c) ∈ escapes → Denotes t v → Denotes (0x5C :: e :: t) (c :: v)
  | unicode {a b c d : UInt8} {n : ℕ} {t v : List UInt8} :
      hex4 a b c d = some n → ¬ (0xD800 ≤ n ∧ n < 0xE000) → Denotes t v →
        Denotes (0x5C :: 0x75 :: a :: b :: c :: d :: t) (utf8 n ++ v)
  | surrogates {a b c d a' b' c' d' : UInt8} {n n' : ℕ} {t v : List UInt8} :
      hex4 a b c d = some n → 0xD800 ≤ n ∧ n < 0xDC00 →
        hex4 a' b' c' d' = some n' → 0xDC00 ≤ n' ∧ n' < 0xE000 → Denotes t v →
          Denotes (0x5C :: 0x75 :: a :: b :: c :: d :: 0x5C :: 0x75 :: a' :: b' :: c' :: d' :: t)
            (utf8 (0x10000 + (n - 0xD800) * 0x400 + (n' - 0xDC00)) ++ v)

/-! ### Characters -/

/-- The bytes of a character that stands for itself. -/
theorem IsUnescapedChar.bytes {ch : Char} (h : IsUnescapedChar ch) :
    ∀ c ∈ String.utf8EncodeChar ch, IsUnescaped c := by
  intro c hc
  rcases utf8EncodeChar_cases ch with ⟨hlt, henc⟩ | ⟨-, hhigh⟩
  · obtain rfl := List.mem_singleton.1 (henc ▸ hc)
    have hval : (UInt8.ofNat ch.val.toNat).toNat = ch.val.toNat := by
      rw [UInt8.toNat_ofNat', Nat.mod_eq_of_lt (by omega)]
    refine ⟨?_, fun heq ↦ h.2.1 ?_, fun heq ↦ h.2.2 ?_⟩
    · rw [UInt8.le_iff_toNat_le, hval]
      exact h.1
    · rw [← hval, heq]
      rfl
    · rw [← hval, heq]
      rfl
  · have hle := hhigh c hc
    refine ⟨UInt8.le_trans (by decide) hle, ?_, ?_⟩
    · rintro rfl
      exact absurd hle (by decide)
    · rintro rfl
      exact absurd hle (by decide)

/-- An ASCII byte that stands for itself. -/
theorem Denotes.ascii {c : UInt8} {t v : List UInt8} (hc : IsUnescaped c) (hascii : c < 0x80)
    (h : Denotes t v) : Denotes (c :: t) (c :: v) := by
  obtain ⟨ch, hval, henc⟩ := exists_char hascii
  have hchar : IsUnescapedChar ch := by
    rw [IsUnescapedChar, hval]
    refine ⟨UInt8.le_iff_toNat_le.1 hc.1, fun heq ↦ hc.2.1 ?_, fun heq ↦ hc.2.2 ?_⟩
    · exact UInt8.toNat_inj.1 heq
    · exact UInt8.toNat_inj.1 heq
  have hdenotes := Denotes.unescaped hchar h
  rwa [henc] at hdenotes

/-- A spelling of one byte. -/
inductive Spells (c : UInt8) : List UInt8 → Prop
  | unescaped : IsUnescaped c → Spells c [c]
  | escape {e : UInt8} : (e, c) ∈ escapes → Spells c [0x5C, e]

/-- **A text that is spelled byte by byte** is denoted by what is written, if the bytes from `0x80` on are
written as they are. -/
theorem denotes_flatMap {spell : UInt8 → List UInt8} (hhigh : ∀ c, 0x80 ≤ c → spell c = [c])
    {s : List UInt8} (hs : IsUtf8 s) (h : ∀ c ∈ s, Spells c (spell c)) : Denotes (s.flatMap spell) s := by
  obtain ⟨cs, rfl⟩ := hs
  induction cs with
  | nil => exact .nil
  | cons ch cs ih =>
    rw [List.flatMap_cons] at h ⊢
    rw [List.forall_mem_append] at h
    have hrest := ih h.2
    obtain ⟨hch, -⟩ := h
    rw [List.flatMap_append]
    -- By characters: one byte that is spelled somehow, or several that are copied.
    rcases utf8EncodeChar_cases ch with ⟨hlt, henc⟩ | ⟨hle, hbytes⟩
    · rw [henc] at hch ⊢
      have hc := hch _ List.mem_cons_self
      rw [List.flatMap_singleton, List.singleton_append]
      set c := UInt8.ofNat ch.val.toNat
      generalize spell c = t at hc
      cases hc with
      | unescaped hc =>
        refine .ascii hc ?_ hrest
        rw [UInt8.lt_iff_toNat_lt, UInt8.toNat_ofNat', Nat.mod_eq_of_lt (by omega)]
        exact hlt
      | escape he => exact .escape he hrest
    · have hcopy : (String.utf8EncodeChar ch).flatMap spell = String.utf8EncodeChar ch := by
        rw [List.flatMap_congr fun c hc ↦ hhigh c (hbytes c hc)]
        exact List.flatMap_singleton' _
      rw [hcopy]
      exact .unescaped ⟨by omega, by omega, by omega⟩ hrest

/-! ### Hexadecimal digits -/

/-- What a hexadecimal digit is, and what it is not. -/
theorem spec_of_hexDigit {c : UInt8} {n : ℕ} (h : hexDigit c = some n) :
    n < 16 ∧ IsUnescaped c ∧ isspace c = false ∧ c ∉ ascii "+-xX" := by
  have hall : ∀ c, (hexDigit c).all (fun n ↦ decide (n < 16 ∧ IsUnescaped c ∧ isspace c = false ∧
      c ∉ ascii "+-xX")) = true := forall_byte (by decide +kernel)
  have hc := hall c
  rw [h] at hc
  exact of_decide_eq_true hc

theorem lt_of_hexDigit {c : UInt8} {n : ℕ} (h : hexDigit c = some n) : c < 0x80 := by
  have hall : ∀ c, (hexDigit c).all (fun _ ↦ decide (c < 0x80)) = true := forall_byte (by decide +kernel)
  have hc := hall c
  rw [h] at hc
  exact of_decide_eq_true hc

/-- Four digits are four nibbles. -/
theorem hex4_eq_some {a b c d : UInt8} {n : ℕ} (h : hex4 a b c d = some n) :
    ∃ na nb nc nd, hexDigit a = some na ∧ hexDigit b = some nb ∧ hexDigit c = some nc ∧
      hexDigit d = some nd ∧ n = ((16 * na + nb) * 16 + nc) * 16 + nd := by
  simp only [hex4, Option.bind_eq_bind, Option.bind_eq_some_iff, Option.some.injEq] at h
  obtain ⟨na, ha, nb, hb, nc, hc, nd, hd, hn⟩ := h
  exact ⟨na, nb, nc, nd, ha, hb, hc, hd, hn.symm⟩

theorem lt_of_hex4 {a b c d : UInt8} {n : ℕ} (h : hex4 a b c d = some n) : n < 0x10000 := by
  obtain ⟨na, nb, nc, nd, ha, hb, hc, hd, rfl⟩ := hex4_eq_some h
  have hna := (spec_of_hexDigit ha).1
  have hnb := (spec_of_hexDigit hb).1
  have hnc := (spec_of_hexDigit hc).1
  have hnd := (spec_of_hexDigit hd).1
  omega

theorem isUnescaped_of_hex4 {a b c d : UInt8} {n : ℕ} (h : hex4 a b c d = some n) :
    ∀ x ∈ [a, b, c, d], IsUnescaped x := by
  obtain ⟨na, nb, nc, nd, ha, hb, hc, hd, -⟩ := hex4_eq_some h
  simp only [List.forall_mem_cons]
  exact ⟨(spec_of_hexDigit ha).2.1, (spec_of_hexDigit hb).2.1, (spec_of_hexDigit hc).2.1,
    (spec_of_hexDigit hd).2.1, List.forall_mem_nil _⟩

/-- **`strtol` reads the four digits.** -/
theorem strtolHex_of_hex4 {a b c d : UInt8} {n : ℕ} (h : hex4 a b c d = some n) :
    strtolHex [a, b, c, d] = n := by
  obtain ⟨na, nb, nc, nd, ha, hb, hc, hd, rfl⟩ := hex4_eq_some h
  obtain ⟨-, -, hspace, hsign⟩ := spec_of_hexDigit ha
  obtain ⟨-, -, -, hx⟩ := spec_of_hexDigit hb
  have hnegative : a ≠ 0x2D := fun heq ↦ hsign (heq ▸ by decide)
  have hpositive : a ≠ 0x2B := fun heq ↦ hsign (heq ▸ by decide)
  have hlower : b ≠ 0x78 := fun heq ↦ hx (heq ▸ by decide)
  have hupper : b ≠ 0x58 := fun heq ↦ hx (heq ▸ by decide)
  have hskip : [a, b, c, d].dropWhile isspace = [a, b, c, d] := by
    rw [List.dropWhile_cons, hspace]
    rfl
  have hpre : ∀ x : UInt8, b ≠ x → startsWith [a, b, c, d] [0x30, x] = false := fun x hne ↦ by
    simp [startsWith, List.isPrefixOf, hne.symm]
  have hhex : (ascii "0x", ascii "0X") = ([0x30, 0x78], [0x30, 0x58]) := by decide
  rw [Prod.mk.injEq] at hhex
  simp only [strtolHex, hskip, List.head?_cons, Option.some.injEq, hnegative, hpositive, or_self, if_false,
    hhex.1, hhex.2, hpre _ hlower, hpre _ hupper, Bool.false_eq_true, hexValue, ha, hb, hc, hd]
  omega

theorem le_of_mem_escapes : ∀ p ∈ escapes, 0x20 ≤ p.1 :=
  forall_mem_of_all (by decide)

/-- **No control character** is in a JSON string, whatever it denotes. -/
theorem Denotes.le {t v : List UInt8} (h : Denotes t v) : ∀ c ∈ t, 0x20 ≤ c := by
  have hbackslash : (0x20 : UInt8) ≤ 0x5C := by decide
  have hu : (0x20 : UInt8) ≤ 0x75 := by decide
  induction h with
  | nil => exact List.forall_mem_nil _
  | unescaped hc _ ih => exact List.forall_mem_append.2 ⟨fun c hmem ↦ (hc.bytes c hmem).1, ih⟩
  | escape he _ ih =>
    exact List.forall_mem_cons.2 ⟨hbackslash, List.forall_mem_cons.2 ⟨le_of_mem_escapes _ he, ih⟩⟩
  | unicode hn _ _ ih =>
    have hdigits := isUnescaped_of_hex4 hn
    simp only [List.forall_mem_cons] at hdigits ⊢
    exact ⟨hbackslash, hu, hdigits.1.1, hdigits.2.1.1, hdigits.2.2.1.1, hdigits.2.2.2.1.1, ih⟩
  | surrogates hn _ hn' _ _ ih =>
    have hdigits := isUnescaped_of_hex4 hn
    have hdigits' := isUnescaped_of_hex4 hn'
    simp only [List.forall_mem_cons] at hdigits hdigits' ⊢
    exact ⟨hbackslash, hu, hdigits.1.1, hdigits.2.1.1, hdigits.2.2.1.1, hdigits.2.2.2.1.1, hbackslash, hu,
      hdigits'.1.1, hdigits'.2.1.1, hdigits'.2.2.1.1, hdigits'.2.2.2.1.1, ih⟩

/-! ### Quotation marks -/

/-- Text without quotes in front of an escaped text. -/
theorem escaped_append {l t : List UInt8} (hl : ∀ c ∈ l, c ≠ 0x22) (h : Escaped 0x22 0x5C t) :
    Escaped 0x22 0x5C (l ++ t) := by
  induction l with
  | nil => exact h
  | cons c l ih =>
    rw [List.forall_mem_cons] at hl
    exact .char hl.1 (ih hl.2)

theorem escaped_digits {a b c d : UInt8} {n : ℕ} (hn : hex4 a b c d = some n) {t : List UInt8}
    (h : Escaped 0x22 0x5C t) : Escaped 0x22 0x5C (0x5C :: 0x75 :: a :: b :: c :: d :: t) := by
  have hbackslash : (0x5C : UInt8) ≠ 0x22 := by decide
  have hu : (0x75 : UInt8) ≠ 0x22 := by decide
  have hdigits := isUnescaped_of_hex4 hn
  exact .char hbackslash (.char hu (escaped_append (l := [a, b, c, d]) (fun x hx ↦ (hdigits x hx).2.1) h))

/-- **A quotation mark in a JSON string** has a backslash in front. -/
theorem Denotes.escaped {t v : List UInt8} (h : Denotes t v) : Escaped 0x22 0x5C t := by
  have hbackslash : (0x5C : UInt8) ≠ 0x22 := by decide
  induction h with
  | nil => exact .nil
  | unescaped hc _ ih => exact escaped_append (fun c hmem ↦ (hc.bytes c hmem).2.1) ih
  | @escape e _ _ _ _ _ ih =>
    rcases eq_or_ne e 0x22 with rfl | he
    · exact .delimiter ih
    · exact .char hbackslash (.char he ih)
  | unicode hn _ _ ih => exact escaped_digits hn ih
  | surrogates hn _ hn' _ _ ih => exact escaped_digits hn (escaped_digits hn' ih)

/-- Without escapes the text stands for itself. -/
theorem Denotes.eq_of_unescaped {t v : List UInt8} (h : Denotes t v) (ht : ∀ c ∈ t, IsUnescaped c) :
    v = t := by
  have hbackslash : ¬ IsUnescaped 0x5C := fun hc ↦ hc.2.2 rfl
  induction h with
  | nil => rfl
  | unescaped _ _ ih => rw [ih (List.forall_mem_append.1 ht).2]
  | escape _ _ _ => exact absurd (List.forall_mem_cons.1 ht).1 hbackslash
  | unicode _ _ _ _ => exact absurd (List.forall_mem_cons.1 ht).1 hbackslash
  | surrogates _ _ _ _ _ _ => exact absurd (List.forall_mem_cons.1 ht).1 hbackslash

/-- Plain ASCII denotes itself. -/
theorem denotes_self {s : List UInt8} (h : ∀ c ∈ s, IsUnescaped c ∧ c < 0x80) : Denotes s s := by
  induction s with
  | nil => exact .nil
  | cons c s ih =>
    rw [List.forall_mem_cons] at h
    exact .ascii h.1.1 h.1.2 (ih h.2)

/-- **What a JSON string is written in** is UTF-8. -/
theorem Denotes.isUtf8 {t v : List UInt8} (h : Denotes t v) : IsUtf8 t := by
  have hdigits {a b c d : UInt8} {n : ℕ} (hn : hex4 a b c d = some n) :
      ∀ x ∈ [0x5C, 0x75, a, b, c, d], x < 0x80 := by
    obtain ⟨na, nb, nc, nd, ha, hb, hc, hd, -⟩ := hex4_eq_some hn
    simp only [List.forall_mem_cons]
    exact ⟨by decide, by decide, lt_of_hexDigit ha, lt_of_hexDigit hb, lt_of_hexDigit hc, lt_of_hexDigit hd,
      List.forall_mem_nil _⟩
  induction h with
  | nil => exact isUtf8_nil
  | unescaped _ _ ih => exact (isUtf8_char _).append ih
  | @escape e _ t _ he _ ih =>
    have hescape : ∀ p ∈ escapes, p.1 < 0x80 := forall_mem_of_all (by decide)
    refine (isUtf8_append_iff_of_ascii (l := [0x5C, e]) ?_).2 ih
    simp only [List.forall_mem_cons]
    exact ⟨by decide, hescape _ he, List.forall_mem_nil _⟩
  | unicode hn _ _ ih => exact (isUtf8_append_iff_of_ascii (hdigits hn)).2 ih
  | surrogates hn _ hn' _ _ ih =>
    exact (isUtf8_append_iff_of_ascii (hdigits hn)).2 ((isUtf8_append_iff_of_ascii (hdigits hn')).2 ih)

/-! ### ASCII -/

/-- A character whose bytes are ASCII. -/
theorem utf8_eq_of_ascii {n : ℕ} (hn : n.isValidChar) (h : ∀ c ∈ utf8 n, c < 0x80) :
    n < 128 ∧ utf8 n = [UInt8.ofNat n] := by
  have hval : (Char.ofNat n).val.toNat = n := by
    rw [Char.ofNat, dif_pos hn]
    rfl
  -- The first byte of a longer character is at least `0xC0`.
  have hlead : ∀ k : ℕ, 0xC0 ≤ k → k < 0x100 → ¬ UInt8.ofNat k < 0x80 := fun k hle hlt ↦ by
    simp only [UInt8.lt_iff_toNat_lt, UInt8.toNat_ofNat', Nat.mod_eq_of_lt hlt, UInt8.reduceToNat]
    omega
  rw [utf8, String.utf8EncodeChar] at h ⊢
  simp only [hval] at h ⊢
  split_ifs at h ⊢ with hone htwo hthree
  · exact ⟨by omega, rfl⟩
  · exact absurd (h _ List.mem_cons_self) (hlead _ (by omega) (by omega))
  · exact absurd (h _ List.mem_cons_self) (hlead _ (by omega) (by omega))
  · exact absurd (h _ List.mem_cons_self) (hlead _ (by omega) (by omega))

end JsonString
