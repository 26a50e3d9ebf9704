import Mathlib.Algebra.BigOperators.Group.Finset.Basic
import Mathlib.Algebra.Order.BigOperators.Group.Finset
import Mathlib.Order.Interval.Finset.Nat

/-!
# Displaced images

Two images of `w` by `h` pixels, where a pixel of the one is compared with the pixel `d` further on in the
other. What is `kept` of a row are the pixels for which both are there; `mismatch` is the sum of the differences
over all of them.

An image is a function on all of the plane, of which only the pixels inside the rectangle are looked at.
-/

namespace Displacement

/-- The positions `x` of a row of `n` for which `x + d` is in the row as well. -/
def kept (n : ℕ) (d : ℤ) : Finset ℕ :=
  (Finset.range n).filter fun x ↦ 0 ≤ x + d ∧ x + d < n

/-- The places that both rows have. -/
theorem mem_kept {n x : ℕ} {d : ℤ} : x ∈ kept n d ↔ x < n ∧ 0 ≤ x + d ∧ x + d < n := by
  rw [kept, Finset.mem_filter, Finset.mem_range]

theorem kept_eq_Ico (n : ℕ) (d : ℤ) : kept n d = Finset.Ico (-d).toNat (n - d.toNat) := by
  ext x
  rw [mem_kept, Finset.mem_Ico]
  omega

/-- A displacement takes away as many places as it is long. -/
theorem card_kept (n : ℕ) (d : ℤ) : (kept n d).card = n - d.natAbs := by
  rw [kept_eq_Ico, Nat.card_Ico]
  omega

/-- The pixels of a rectangle that are still in it after a displacement. -/
def keptPixels (w h : ℕ) (d : ℤ × ℤ) : Finset (ℕ × ℕ) :=
  kept w d.1 ×ˢ kept h d.2

theorem mem_keptPixels {w h : ℕ} {d : ℤ × ℤ} {p : ℕ × ℕ} :
    p ∈ keptPixels w h d ↔ p.1 ∈ kept w d.1 ∧ p.2 ∈ kept h d.2 :=
  Finset.mem_product

theorem card_keptPixels_le (w h : ℕ) (d : ℤ × ℤ) : (keptPixels w h d).card ≤ w * h := by
  rw [keptPixels, Finset.card_product, card_kept, card_kept]
  exact Nat.mul_le_mul (Nat.sub_le _ _) (Nat.sub_le _ _)

variable {α : Type*} (diff : α → α → ℕ) (f g : ℤ → ℤ → α)

/-- How much `g` differs from `f` displaced by `d`. -/
def mismatch (w h : ℕ) (d : ℤ × ℤ) : ℕ :=
  ∑ p ∈ keptPixels w h d, diff (f p.1 p.2) (g (p.1 + d.1) (p.2 + d.2))

variable {diff f g} {w h : ℕ} {d : ℤ × ℤ}

/-- There is no mismatch exactly where all pixels agree. -/
theorem mismatch_eq_zero_iff (hdiff : ∀ a b, diff a b = 0 ↔ a = b) :
    mismatch diff f g w h d = 0 ↔
      ∀ p ∈ keptPixels w h d, f p.1 p.2 = g (p.1 + d.1) (p.2 + d.2) := by
  rw [mismatch, Finset.sum_eq_zero_iff]
  exact forall₂_congr fun p _ ↦ hdiff _ _

/-- An image agrees with itself where it is. -/
theorem mismatch_self (hdiff : ∀ a, diff a a = 0) : mismatch diff f f w h (0, 0) = 0 := by
  refine Finset.sum_eq_zero fun p _ ↦ ?_
  rw [Int.add_zero, Int.add_zero]
  exact hdiff _

/-- Each pixel in common adds the greatest difference at most. -/
theorem mismatch_le {m : ℕ} (hdiff : ∀ a b, diff a b ≤ m) : mismatch diff f g w h d ≤ w * h * m :=
  calc mismatch diff f g w h d
      ≤ (keptPixels w h d).card * m := Finset.sum_le_card_nsmul _ _ _ fun _ _ ↦ hdiff _ _
    _ ≤ w * h * m := Nat.mul_le_mul_right m (card_keptPixels_le w h d)

end Displacement
