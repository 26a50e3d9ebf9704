import Mathlib.Tactic.Common

/-!
# Fixed-point clocks

A clock that counts `units` to the second is written as a fixed-point number with `scale` steps to the
second, rounded down. When there are at least two steps to a unit nothing is lost: the nearest unit is
the one that was written (`nearest_toFixed`). The seconds stand in front of the fraction
(`toFixed_add_mul`), so a field that keeps only some of them keeps the time of day of a longer period
(`toFixed_mod`).
-/

namespace FixedPoint

variable {scale units : ℕ}

/-- The steps that `t` units take, rounded down. -/
def toFixed (scale units t : ℕ) : ℕ :=
  t * scale / units

/-- The number of units nearest to `v` steps. -/
def nearest (scale units v : ℕ) : ℕ :=
  (v * units + scale / 2) / scale

/-- The rounding loses less than a unit of the product. -/
theorem toFixed_bounds (scale : ℕ) (hu : 0 < units) (t : ℕ) :
    toFixed scale units t * units ≤ t * scale ∧
      t * scale < toFixed scale units t * units + units := by
  have hdm := Nat.div_add_mod' (t * scale) units
  have hlt := Nat.mod_lt (t * scale) hu
  rw [toFixed]
  omega

/-- **The order of the times is that of the numbers**, when there is at least a step to a unit. -/
theorem toFixed_lt_toFixed (hu : 0 < units) (h : units ≤ scale) {t t' : ℕ} (ht : t < t') :
    toFixed scale units t < toFixed scale units t' := by
  have hgap : t * scale + scale ≤ t' * scale := by
    rw [← Nat.succ_mul]
    exact Nat.mul_le_mul_right scale ht
  refine Nat.lt_of_succ_le ((Nat.le_div_iff_mul_le hu).2 ?_)
  have hlow := (toFixed_bounds scale hu t).1
  rw [Nat.succ_mul]
  omega

/-- **The nearest unit is the one that was written.** -/
theorem nearest_toFixed (hu : 0 < units) (h : 2 * units ≤ scale) (t : ℕ) :
    nearest scale units (toFixed scale units t) = t := by
  obtain ⟨hlow, hhigh⟩ := toFixed_bounds scale hu t
  have hnext : (t + 1) * scale = t * scale + scale := Nat.succ_mul t scale
  rw [nearest]
  exact Nat.div_eq_of_lt_le (by omega) (by omega)

/-- Whole seconds stand in front of the fraction. -/
theorem toFixed_add_mul (hu : 0 < units) (q r : ℕ) :
    toFixed scale units (q * units + r) = q * scale + toFixed scale units r := by
  have hsplit : (q * units + r) * scale = r * scale + q * scale * units := by
    rw [Nat.add_mul, Nat.mul_right_comm, Nat.add_comm]
  rw [toFixed, hsplit, Nat.add_mul_div_right _ _ hu, Nat.add_comm, toFixed]

/-- The fraction of less than `n` seconds fits. -/
theorem toFixed_lt (hu : 0 < units) (hs : 0 < scale) {n r : ℕ} (hr : r < n * units) :
    toFixed scale units r < n * scale := by
  rw [toFixed, Nat.div_lt_iff_lt_mul hu, Nat.mul_right_comm]
  exact Nat.mul_lt_mul_of_pos_right hr hs

/-- **A number that keeps `n` seconds** is that of the time in a period of `n` seconds. -/
theorem toFixed_mod (hu : 0 < units) (hs : 0 < scale) {n : ℕ} (hn : 0 < n) (t : ℕ) :
    toFixed scale units t % (n * scale) = toFixed scale units (t % (n * units)) := by
  have hperiod : t = t / (n * units) * n * units + t % (n * units) := by
    rw [Nat.mul_assoc, Nat.div_add_mod']
  have hlt := toFixed_lt hu hs (Nat.mod_lt t (Nat.mul_pos hn hu))
  conv_lhs => rw [hperiod]
  rw [toFixed_add_mul hu, Nat.mul_assoc, Nat.mul_add_mod_self_right, Nat.mod_eq_of_lt hlt]

end FixedPoint
