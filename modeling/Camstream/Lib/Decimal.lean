import Camstream.Lib.CString

/-!
# Numbers in text

What `%u` and `%d` print, and that `atoi` reads it back. The digits are those of `Nat.toDigits`.

`Numeral` says which texts are decimal integers, and `strtolRest_eq_nil_iff` that `strtol` reads these to the
end and no others, apart from the empty one.
-/

namespace CString

/-- `%u`, `%zu` -/
def decimal (n : ℕ) : List UInt8 :=
  (Nat.toDigits 10 n).map fun c ↦ UInt8.ofNat c.toNat

/-- `%d` -/
def formatInt (z : ℤ) : List UInt8 :=
  if z < 0 then 0x2D :: decimal z.natAbs else decimal z.natAbs

theorem formatInt_natCast (n : ℕ) : formatInt n = decimal n :=
  if_neg (Int.not_lt.2 (Int.natCast_nonneg n))

/-- One digit. -/
theorem decimal_of_lt {n : ℕ} (h : n < 10) : decimal n = [UInt8.ofNat (48 + n)] := by
  rw [decimal, Nat.toDigits_of_lt_base h, List.map_singleton, Nat.toNat_digitChar_of_lt_ten h]

/-- The last digit, and those in front of it. -/
theorem decimal_of_le {n : ℕ} (h : 10 ≤ n) :
    decimal n = decimal (n / 10) ++ [UInt8.ofNat (48 + n % 10)] := by
  rw [decimal, Nat.toDigits_of_base_le (by decide) h, List.map_append, List.map_singleton,
    Nat.toNat_digitChar_of_lt_ten (Nat.mod_lt n (by decide)), decimal]

theorem decimal_ne_nil (n : ℕ) : decimal n ≠ [] := by
  rw [decimal, ne_eq, List.map_eq_nil_iff]
  exact Nat.toDigits_ne_nil

/-- At most `k` digits are written of a number below `10 ^ k`. -/
theorem length_decimal_le_iff {n k : ℕ} (hk : 0 < k) : (decimal n).length ≤ k ↔ n < 10 ^ k := by
  rw [decimal, List.length_map, Nat.length_toDigits_le_iff (by decide) hk]

theorem toNat_digit {d : ℕ} (h : d < 10) : (UInt8.ofNat (48 + d)).toNat = 48 + d := by
  rw [UInt8.toNat_ofNat']
  omega

theorem isdigit_digit {d : ℕ} (h : d < 10) : isdigit (UInt8.ofNat (48 + d)) = true := by
  rw [isdigit, Bool.and_eq_true, decide_eq_true_eq, decide_eq_true_eq, UInt8.le_iff_toNat_le,
    UInt8.le_iff_toNat_le, toNat_digit h]
  exact ⟨Nat.le_add_right 48 d, Nat.add_le_add_left (Nat.le_of_lt_succ h) 48⟩

/-- Only digits are printed. -/
theorem isdigit_of_mem_decimal {n : ℕ} {c : UInt8} (h : c ∈ decimal n) : isdigit c = true := by
  induction n using Nat.strong_induction_on with
  | _ n ih =>
    rcases Nat.lt_or_ge n 10 with hlt | hge
    · rw [decimal_of_lt hlt, List.mem_singleton] at h
      exact h ▸ isdigit_digit hlt
    · rw [decimal_of_le hge, List.mem_append, List.mem_singleton] at h
      rcases h with h | rfl
      · exact ih (n / 10) (by omega) h
      · exact isdigit_digit (Nat.mod_lt n (by decide))

/-- A byte that is no digit is not printed. -/
theorem notMem_decimal {c : UInt8} (h : isdigit c = false) (n : ℕ) : c ∉ decimal n :=
  fun hc ↦ Bool.false_ne_true (h.symm.trans (isdigit_of_mem_decimal hc))

/-! ### Reading a number back -/

/-- The value `strtol` gives to a string of digits. -/
def digitsValue (ds : List UInt8) : ℤ :=
  ds.foldl (fun n d ↦ 10 * n + ((d.toNat : ℤ) - 48)) 0

/-- One digit more is ten times the value and the digit. -/
theorem digitsValue_append_digit (ds : List UInt8) {d : ℕ} (h : d < 10) :
    digitsValue (ds ++ [UInt8.ofNat (48 + d)]) = 10 * digitsValue ds + d := by
  rw [digitsValue, List.foldl_append, List.foldl_cons, List.foldl_nil, toNat_digit h, digitsValue]
  omega

/-- The digits of a number have its value. -/
theorem digitsValue_decimal (n : ℕ) : digitsValue (decimal n) = n := by
  induction n using Nat.strong_induction_on with
  | _ n ih =>
    rcases Nat.lt_or_ge n 10 with hlt | hge
    · rw [decimal_of_lt hlt]
      exact (digitsValue_append_digit [] hlt).trans (by simp [digitsValue])
    · rw [decimal_of_le hge, digitsValue_append_digit _ (Nat.mod_lt n (by decide)),
        ih (n / 10) (by omega)]
      omega

/-- So different numbers have different digits. -/
theorem decimal_injective {m n : ℕ} (h : decimal m = decimal n) : m = n := by
  have := congrArg digitsValue h
  rw [digitsValue_decimal, digitsValue_decimal] at this
  exact Int.ofNat.inj this

/-- The digits of a printed number, in front of something else. -/
theorem takeWhile_decimal_append (n : ℕ) {rest : List UInt8}
    (hrest : ∀ c ∈ rest.head?, isdigit c = false) :
    (decimal n ++ rest).takeWhile isdigit = decimal n := by
  rw [List.takeWhile_append_of_pos fun c hc ↦ isdigit_of_mem_decimal hc]
  cases rest with
  | nil => exact List.append_nil _
  | cons c rest =>
    rw [List.takeWhile_cons, hrest c rfl]
    exact List.append_nil _

/-- What `strtol(s, &end, 10)` reads behind white space: whether there is a minus sign, and the digits. -/
def strtolDigits (s : List UInt8) : Bool × List UInt8 :=
  let s := s.dropWhile isspace
  let negative := s.head? = some 0x2D
  let s := if negative ∨ s.head? = some 0x2B then s.tail else s
  (negative, s.takeWhile isdigit)

/-- `strtol(s, &end, 10)` with a `long` of so many bits, clamped to its range; `none` is `end == s`, where
there are no digits. -/
def strtolLong (bits : ℕ) (s : List UInt8) : Option ℤ :=
  let (negative, digits) := strtolDigits s
  if digits = [] then none
  else
    let magnitude := digitsValue digits
    some (if negative then max (-magnitude) (-2 ^ (bits - 1)) else min magnitude (2 ^ (bits - 1) - 1))

/-- `strtol` saturates at both ends of `long`. -/
theorem strtol_eq (s : List UInt8) :
    strtol s = if (strtolDigits s).1 then max (-digitsValue (strtolDigits s).2) (-2 ^ 63)
      else min (digitsValue (strtolDigits s).2) (2 ^ 63 - 1) := by
  simp only [strtol, strtolDigits, digitsValue, decide_eq_true_eq]

/-- The digits of a printed number are found, up to the first byte that is no digit. -/
theorem strtolDigits_decimal (n : ℕ) {rest : List UInt8} (hrest : ∀ c ∈ rest.head?, isdigit c = false) :
    strtolDigits (decimal n ++ rest) = (false, decimal n) := by
  have hdigits := takeWhile_decimal_append n hrest
  obtain ⟨d, ds, hd⟩ := List.exists_cons_of_ne_nil (decimal_ne_nil n)
  have hdigit : isdigit d = true := isdigit_of_mem_decimal (hd ▸ List.mem_cons_self)
  rw [isdigit, Bool.and_eq_true, decide_eq_true_eq, decide_eq_true_eq] at hdigit
  have hspace : ¬ isspace d = true := by
    rw [isspace, Bool.or_eq_true, Bool.and_eq_true, decide_eq_true_eq, decide_eq_true_eq,
      decide_eq_true_eq]
    grind
  have hdrop : (decimal n ++ rest).dropWhile isspace = decimal n ++ rest := by
    rw [hd, List.cons_append, List.dropWhile_cons_of_neg hspace]
  have hhead : (decimal n ++ rest).head? = some d := by
    rw [hd, List.cons_append, List.head?_cons]
  have hminus : ¬ some d = some 0x2D := by grind
  have hplus : ¬ some d = some 0x2B := by grind
  simp only [strtolDigits]
  rw [hdrop, hhead, if_neg (not_or.2 ⟨hminus, hplus⟩), hdigits, decide_eq_false hminus]

/-- `strtol` reads a printed number back, up to the first byte that is no digit. -/
theorem strtol_decimal {n : ℕ} (h : n < 2 ^ 63) {rest : List UInt8}
    (hrest : ∀ c ∈ rest.head?, isdigit c = false) : strtol (decimal n ++ rest) = n := by
  rw [strtol_eq, strtolDigits_decimal n hrest, if_neg Bool.false_ne_true, digitsValue_decimal]
  omega

/-- **What `strtol` reads of a printed number**: the largest `long` when the number is larger. -/
theorem strtolLong_decimal (bits n : ℕ) {rest : List UInt8}
    (hrest : ∀ c ∈ rest.head?, isdigit c = false) :
    strtolLong bits (decimal n ++ rest) = some ((min n (2 ^ (bits - 1) - 1) : ℕ) : ℤ) := by
  have hpow : ((2 ^ (bits - 1) : ℕ) : ℤ) = 2 ^ (bits - 1) := Int.natCast_pow 2 (bits - 1)
  have hpos : 1 ≤ 2 ^ (bits - 1) := Nat.one_le_two_pow
  rw [strtolLong, strtolDigits_decimal n hrest]
  dsimp only
  rw [if_neg (decimal_ne_nil n), if_neg Bool.false_ne_true, digitsValue_decimal, Option.some.injEq]
  omega

/-- **`atoi` undoes `%d`**, up to the first byte that is no digit. -/
theorem atoi_decimal {n : ℕ} (h : n < 2 ^ 31) {rest : List UInt8}
    (hrest : ∀ c ∈ rest.head?, isdigit c = false) : atoi (decimal n ++ rest) = n := by
  rw [atoi, strtol_decimal (by omega) hrest]
  exact Int.bmod_eq_of_le (by omega) (by omega)

/-- `atoi` gives an `int`. -/
theorem atoi_lt (s : List UInt8) : atoi s < 2 ^ 31 :=
  Int.bmod_lt (by decide)

/-! ### Numerals -/

/-- What is behind the number that `strtol(s, &end, 10)` reads: the text at `end`, which is all of it where
there are no digits. -/
def strtolRest (s : List UInt8) : List UInt8 :=
  let t := s.dropWhile isspace
  let t := if t.head? = some 0x2D ∨ t.head? = some 0x2B then t.tail else t
  if t.takeWhile isdigit = [] then s else t.dropWhile isdigit

/-- A decimal integer as `strtol` accepts it: white space, a sign, digits. -/
inductive Numeral : List UInt8 → ℤ → Prop
  | digits {ds : List UInt8} (hne : ds ≠ []) (hds : ∀ c ∈ ds, isdigit c = true) : Numeral ds (digitsValue ds)
  | plus {ds : List UInt8} (hne : ds ≠ []) (hds : ∀ c ∈ ds, isdigit c = true) :
    Numeral (0x2B :: ds) (digitsValue ds)
  | minus {ds : List UInt8} (hne : ds ≠ []) (hds : ∀ c ∈ ds, isdigit c = true) :
    Numeral (0x2D :: ds) (-digitsValue ds)
  | space {c : UInt8} {s : List UInt8} {z : ℤ} (hc : isspace c = true) (h : Numeral s z) : Numeral (c :: s) z

/-- A `long` of so many bits holds what is nearest to a number. -/
def clampLong (bits : ℕ) (z : ℤ) : ℤ :=
  if z < 0 then max z (-2 ^ (bits - 1)) else min z (2 ^ (bits - 1) - 1)

theorem digitsValue_nonneg {ds : List UInt8} (h : ∀ c ∈ ds, isdigit c = true) : 0 ≤ digitsValue ds := by
  induction ds using List.reverseRecOn with
  | nil => exact Int.le_refl 0
  | append_singleton ds d ih =>
    have hd := h d (List.mem_append_right _ List.mem_cons_self)
    have hds := ih fun c hc ↦ h c (List.mem_append_left _ hc)
    rw [isdigit, Bool.and_eq_true, decide_eq_true_eq, decide_eq_true_eq, UInt8.le_iff_toNat_le] at hd
    have h48 : 48 ≤ d.toNat := hd.1
    have happend : digitsValue (ds ++ [d]) = 10 * digitsValue ds + (d.toNat - 48) := by
      rw [digitsValue, List.foldl_append, List.foldl_cons, List.foldl_nil, digitsValue]
    omega

/-- Behind digits only there is nothing, and they are the digits. -/
theorem strtol_digits {ds : List UInt8} (hne : ds ≠ []) (hds : ∀ c ∈ ds, isdigit c = true) :
    ds.takeWhile isdigit = ds ∧ ds.dropWhile isdigit = [] ∧ ds.dropWhile isspace = ds ∧
      ds.head? ≠ some 0x2D ∧ ds.head? ≠ some 0x2B := by
  obtain ⟨d, ds, rfl⟩ := List.exists_cons_of_ne_nil hne
  have hdigit := hds d List.mem_cons_self
  rw [isdigit, Bool.and_eq_true, decide_eq_true_eq, decide_eq_true_eq] at hdigit
  have hspace : ¬ isspace d = true := by
    rw [isspace, Bool.or_eq_true, Bool.and_eq_true, decide_eq_true_eq, decide_eq_true_eq, decide_eq_true_eq]
    grind
  refine ⟨List.takeWhile_eq_self_iff.2 hds, List.dropWhile_eq_nil_iff.2 hds,
    List.dropWhile_cons_of_neg hspace, ?_, ?_⟩
  · rw [List.head?_cons]
    grind
  · rw [List.head?_cons]
    grind

/-- The text behind white space and a sign. -/
def unsigned (s : List UInt8) : List UInt8 :=
  let t := s.dropWhile isspace
  if t.head? = some 0x2D ∨ t.head? = some 0x2B then t.tail else t

theorem Numeral.unsigned_eq {s : List UInt8} {z : ℤ} (h : Numeral s z) :
    (unsigned s).takeWhile isdigit ≠ [] ∧ (unsigned s).dropWhile isdigit = [] ∧
      z = if (s.dropWhile isspace).head? = some 0x2D then -digitsValue ((unsigned s).takeWhile isdigit)
        else digitsValue ((unsigned s).takeWhile isdigit) := by
  induction h with
  | digits hne hds =>
    obtain ⟨htake, hdrop, hspace, hminus, hplus⟩ := strtol_digits hne hds
    rw [unsigned, hspace, if_neg (not_or.2 ⟨hminus, hplus⟩), htake, if_neg hminus]
    exact ⟨hne, hdrop, rfl⟩
  | @plus ds hne hds =>
    obtain ⟨htake, hdrop, -, -, -⟩ := strtol_digits hne hds
    have hspace : (0x2B :: ds).dropWhile isspace = 0x2B :: ds := rfl
    rw [unsigned, hspace, List.head?_cons, if_pos (.inr rfl), List.tail_cons, htake, if_neg (by decide)]
    exact ⟨hne, hdrop, rfl⟩
  | @minus ds hne hds =>
    obtain ⟨htake, hdrop, -, -, -⟩ := strtol_digits hne hds
    have hspace : (0x2D :: ds).dropWhile isspace = 0x2D :: ds := rfl
    rw [unsigned, hspace, List.head?_cons, if_pos (.inl rfl), List.tail_cons, htake, if_pos rfl]
    exact ⟨hne, hdrop, rfl⟩
  | space hc _ ih =>
    rw [unsigned, List.dropWhile_cons_of_pos hc]
    exact ih

/-- What `%u` prints is a numeral. -/
theorem numeral_decimal (n : ℕ) : Numeral (decimal n) n := by
  have h := Numeral.digits (decimal_ne_nil n) fun c hc ↦ isdigit_of_mem_decimal hc
  rwa [digitsValue_decimal] at h

/-- A text is a numeral of one number at most. -/
theorem Numeral.unique {s : List UInt8} {z z' : ℤ} (h : Numeral s z) (h' : Numeral s z') : z = z' :=
  h.unsigned_eq.2.2.trans h'.unsigned_eq.2.2.symm

theorem not_numeral_nil {z : ℤ} : ¬ Numeral [] z :=
  fun h ↦ h.unsigned_eq.1 rfl

/-- **What `strtol` makes of a numeral**: it reads all of it. -/
theorem Numeral.strtolLong_eq {s : List UInt8} {z : ℤ} (h : Numeral s z) :
    strtolRest s = [] ∧ ∀ bits, strtolLong bits s = some (clampLong bits z) := by
  obtain ⟨htake, hdrop, hz⟩ := h.unsigned_eq
  refine ⟨(if_neg htake).trans hdrop, fun bits ↦ ?_⟩
  have hvalue := digitsValue_nonneg fun c hc ↦ List.mem_takeWhile_imp (l := unsigned s) hc
  have hpow : (0 : ℤ) < 2 ^ (bits - 1) := Int.pow_pos (by decide)
  have hdigits : strtolDigits s =
      (decide ((s.dropWhile isspace).head? = some 0x2D), (unsigned s).takeWhile isdigit) := rfl
  rw [strtolLong, hdigits]
  dsimp only
  rw [if_neg htake, clampLong, hz, Option.some.injEq]
  generalize digitsValue ((unsigned s).takeWhile isdigit) = v at hvalue
  generalize (2 : ℤ) ^ (bits - 1) = m at hpow
  rcases em ((s.dropWhile isspace).head? = some 0x2D) with hminus | hplus
  · rw [decide_eq_true hminus, if_pos rfl, if_pos hminus]
    split_ifs <;> omega
  · rw [decide_eq_false hplus, if_neg Bool.false_ne_true, if_neg hplus, if_neg (Int.not_lt.2 hvalue)]

theorem numeral_of_dropWhile {s : List UInt8} {z : ℤ} (h : Numeral (s.dropWhile isspace) z) : Numeral s z := by
  induction s with
  | nil => exact h
  | cons c s ih =>
    rcases hc : isspace c with - | -
    · rwa [List.dropWhile_cons_of_neg (by rw [hc]; exact Bool.false_ne_true)] at h
    · rw [List.dropWhile_cons_of_pos hc] at h
      exact .space hc (ih h)

/-- **What `strtol` reads to the end** is a numeral, or nothing at all. -/
theorem strtolRest_eq_nil_iff {s : List UInt8} : strtolRest s = [] ↔ s = [] ∨ ∃ z, Numeral s z := by
  constructor
  · intro hrest
    have hrest : (if (unsigned s).takeWhile isdigit = [] then s else (unsigned s).dropWhile isdigit) = [] := hrest
    split_ifs at hrest with hnone
    · exact .inl hrest
    · have hds := List.dropWhile_eq_nil_iff.1 hrest
      have hne : unsigned s ≠ [] := fun hnil ↦ hnone (by rw [hnil, List.takeWhile_nil])
      refine .inr ?_
      -- Behind the blanks comes a minus sign, a plus sign, or a digit.
      rcases ht : s.dropWhile isspace with - | ⟨c, t⟩
      · rw [unsigned, ht] at hne
        exact absurd rfl hne
      · rw [unsigned, ht, List.head?_cons, List.tail_cons] at hds hne
        rcases eq_or_ne c 0x2D with rfl | hminus
        · rw [if_pos (.inl rfl)] at hds hne
          have h := Numeral.minus hne hds
          rw [← ht] at h
          exact ⟨_, numeral_of_dropWhile h⟩
        · rcases eq_or_ne c 0x2B with rfl | hplus
          · rw [if_pos (.inr rfl)] at hds hne
            have h := Numeral.plus hne hds
            rw [← ht] at h
            exact ⟨_, numeral_of_dropWhile h⟩
          · have hsign : ¬ (some c = some 0x2D ∨ some c = some 0x2B) :=
              not_or.2 ⟨mt Option.some.inj hminus, mt Option.some.inj hplus⟩
            rw [if_neg hsign] at hds hne
            have h := Numeral.digits hne hds
            rw [← ht] at h
            exact ⟨_, numeral_of_dropWhile h⟩
  · rintro (rfl | ⟨z, hz⟩)
    · rfl
    · exact hz.strtolLong_eq.1

example : (decimal 0, decimal 127, formatInt (-12)) = (ascii "0", ascii "127", ascii "-12") := by decide

end CString
