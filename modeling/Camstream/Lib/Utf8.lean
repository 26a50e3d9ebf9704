import Mathlib.Data.List.Basic
import Mathlib.Tactic.SplitIfs

/-!
# UTF-8

Lists of bytes that are texts of characters. A byte below `0x80` is a character of its own and part of no
other, so a text can be cut at it (`isUtf8_append_cons_iff`); and a rewriting that leaves the bytes from
`0x80` on as they are, and makes ASCII of the others, makes texts of texts and of nothing else
(`isUtf8_flatMap_iff`).
-/

namespace Utf8

/-- A text of characters. -/
def IsUtf8 (l : List UInt8) : Prop :=
  ∃ cs : List Char, l = cs.flatMap String.utf8EncodeChar

/-- **A character is an ASCII byte, or its bytes are all from `0x80` on.** -/
theorem utf8EncodeChar_cases (ch : Char) :
    (ch.val.toNat < 0x80 ∧ String.utf8EncodeChar ch = [UInt8.ofNat ch.val.toNat]) ∨
      (0x80 ≤ ch.val.toNat ∧ ∀ c ∈ String.utf8EncodeChar ch, 0x80 ≤ c) := by
  have hhigh : ∀ k : ℕ, 0x80 ≤ k → k < 0x100 → 0x80 ≤ UInt8.ofNat k := fun k hle hlt ↦ by
    simp only [UInt8.le_iff_toNat_le, UInt8.toNat_ofNat', Nat.mod_eq_of_lt hlt, UInt8.reduceToNat]
    exact hle
  rw [String.utf8EncodeChar]
  split_ifs with hone htwo hthree
  · exact .inl ⟨by omega, rfl⟩
  · refine .inr ⟨by omega, ?_⟩
    simp only [List.forall_mem_cons]
    exact ⟨hhigh _ (by omega) (by omega), hhigh _ (by omega) (by omega), List.forall_mem_nil _⟩
  · refine .inr ⟨by omega, ?_⟩
    simp only [List.forall_mem_cons]
    exact ⟨hhigh _ (by omega) (by omega), hhigh _ (by omega) (by omega), hhigh _ (by omega) (by omega),
      List.forall_mem_nil _⟩
  · refine .inr ⟨by omega, ?_⟩
    simp only [List.forall_mem_cons]
    exact ⟨hhigh _ (by omega) (by omega), hhigh _ (by omega) (by omega), hhigh _ (by omega) (by omega),
      hhigh _ (by omega) (by omega), List.forall_mem_nil _⟩

/-- The character of an ASCII byte. -/
theorem exists_char {c : UInt8} (h : c < 0x80) :
    ∃ ch : Char, ch.val.toNat = c.toNat ∧ String.utf8EncodeChar ch = [c] := by
  have hlt : c.toNat < 0x80 := UInt8.lt_iff_toNat_lt.1 h
  have hval : (Char.ofNat c.toNat).val.toNat = c.toNat := by
    rw [Char.ofNat, dif_pos (Or.inl (by omega))]
    rfl
  refine ⟨Char.ofNat c.toNat, hval, ?_⟩
  rcases utf8EncodeChar_cases (Char.ofNat c.toNat) with ⟨-, henc⟩ | ⟨hle, -⟩
  · rw [henc, hval, UInt8.ofNat_toNat]
  · rw [hval] at hle
    exact absurd hlt (Nat.not_lt.2 hle)

theorem isUtf8_nil : IsUtf8 [] :=
  ⟨[], rfl⟩

theorem isUtf8_char (ch : Char) : IsUtf8 (String.utf8EncodeChar ch) :=
  ⟨[ch], (List.flatMap_singleton _ _).symm⟩

theorem IsUtf8.append {l r : List UInt8} (hl : IsUtf8 l) (hr : IsUtf8 r) : IsUtf8 (l ++ r) := by
  obtain ⟨cs, rfl⟩ := hl
  obtain ⟨ds, rfl⟩ := hr
  exact ⟨cs ++ ds, List.flatMap_append.symm⟩

theorem isUtf8_of_ascii {l : List UInt8} (h : ∀ c ∈ l, c < 0x80) : IsUtf8 l := by
  induction l with
  | nil => exact isUtf8_nil
  | cons c l ih =>
    rw [List.forall_mem_cons] at h
    obtain ⟨ch, -, hch⟩ := exists_char h.1
    exact (hch ▸ isUtf8_char ch).append (r := l) (ih h.2)

/-- **A text can be cut at an ASCII byte.** -/
theorem isUtf8_append_cons_iff {l r : List UInt8} {c : UInt8} (hc : c < 0x80) :
    IsUtf8 (l ++ c :: r) ↔ IsUtf8 l ∧ IsUtf8 r := by
  constructor
  · rintro ⟨cs, hcs⟩
    induction cs generalizing l with
    | nil => exact absurd hcs (List.append_ne_nil_of_right_ne_nil l (List.cons_ne_nil c r))
    | cons ch cs ih =>
      rw [List.flatMap_cons] at hcs
      rcases List.append_eq_append_iff.1 hcs with ⟨m, hch, hrest⟩ | ⟨m, rfl, hrest⟩
      · -- The first character reaches behind `l`, so it is the byte `c` itself or ends before it.
        cases m with
        | nil =>
          rw [List.append_nil] at hch
          obtain ⟨-, hr⟩ := ih (l := []) hrest
          exact ⟨hch ▸ isUtf8_char ch, hr⟩
        | cons d m =>
          obtain ⟨rfl, rfl⟩ := List.cons.inj hrest
          rcases utf8EncodeChar_cases ch with ⟨-, henc⟩ | ⟨-, hhigh⟩
          · rw [henc] at hch
            obtain ⟨rfl, hm⟩ := List.append_eq_singleton_iff.1 hch.symm |>.resolve_right fun h ↦
              absurd h.2 (List.cons_ne_nil _ _)
            obtain ⟨-, rfl⟩ := List.cons.inj hm
            exact ⟨isUtf8_nil, cs, rfl⟩
          · have hmem : c ∈ String.utf8EncodeChar ch := by
              rw [hch]
              exact List.mem_append_right _ List.mem_cons_self
            exact absurd hc (UInt8.not_lt.2 (hhigh c hmem))
      · obtain ⟨hl, hr⟩ := ih hrest.symm
        exact ⟨(isUtf8_char ch).append hl, hr⟩
  · rintro ⟨hl, hr⟩
    obtain ⟨ch, -, hch⟩ := exists_char hc
    exact hl.append ((hch ▸ isUtf8_char ch).append (r := r) hr)

/-- ASCII in front of a text plays no part. -/
theorem isUtf8_append_iff_of_ascii {l r : List UInt8} (h : ∀ c ∈ l, c < 0x80) : IsUtf8 (l ++ r) ↔ IsUtf8 r := by
  induction l with
  | nil => rfl
  | cons c l ih =>
    rw [List.forall_mem_cons] at h
    rw [List.cons_append, ← List.nil_append (c :: (l ++ r)), isUtf8_append_cons_iff h.1, and_iff_right isUtf8_nil,
      ih h.2]

/-- **Rewriting ASCII as ASCII** keeps what is a text and what is none. -/
theorem isUtf8_flatMap_iff {f : UInt8 → List UInt8} (hhigh : ∀ c, 0x80 ≤ c → f c = [c])
    (hascii : ∀ c < 0x80, f c ≠ [] ∧ ∀ d ∈ f c, d < 0x80) (s : List UInt8) :
    IsUtf8 (s.flatMap f) ↔ IsUtf8 s := by
  suffices h : ∀ l : List UInt8, IsUtf8 (l ++ s.flatMap f) ↔ IsUtf8 (l ++ s) from h []
  induction s with
  | nil => exact fun l ↦ Iff.rfl
  | cons c s ih =>
    intro l
    rw [List.flatMap_cons]
    by_cases hc : c < 0x80
    · obtain ⟨hne, hlow⟩ := hascii c hc
      obtain ⟨d, t, hd⟩ := List.exists_cons_of_ne_nil hne
      rw [hd, List.forall_mem_cons] at hlow
      rw [hd, List.cons_append, isUtf8_append_cons_iff hlow.1, isUtf8_append_iff_of_ascii hlow.2,
        isUtf8_append_cons_iff hc]
      exact and_congr_right' (ih [])
    · rw [hhigh c (UInt8.not_lt.1 hc), List.append_cons l c s, ← List.append_assoc]
      exact ih (l ++ [c])

end Utf8
