import Mathlib.Algebra.GroupWithZero.Nat
import Mathlib.Algebra.Order.BigOperators.Group.List
import Mathlib.Algebra.Order.Group.Nat

/-!
# Samples by key

Samples that arrive one by one, each under a key: `tally cs k` is what has arrived under `k`. Order matters
only within a key, so that a total over `tally cs k` is the same for every order of arrival (`tally_perm`).
-/

namespace Tally

variable {κ α : Type*} [DecidableEq κ]

/-- The samples that arrived under a key. -/
def tally (cs : List (κ × α)) (k : κ) : List α :=
  cs.filterMap fun c ↦ if c.1 = k then some c.2 else none

@[simp] theorem tally_nil (k : κ) : tally ([] : List (κ × α)) k = [] := rfl

theorem tally_append (cs cs' : List (κ × α)) (k : κ) : tally (cs ++ cs') k = tally cs k ++ tally cs' k :=
  List.filterMap_append

theorem tally_singleton_self (k : κ) (v : α) : tally [(k, v)] k = [v] := by
  rw [tally, List.filterMap_cons, if_pos rfl, List.filterMap_nil]

theorem tally_singleton_of_ne {k k' : κ} (h : k' ≠ k) (v : α) : tally [(k', v)] k = [] := by
  rw [tally, List.filterMap_cons, if_neg h, List.filterMap_nil]

/-- **The order of arrival does not matter.** -/
theorem tally_perm {cs cs' : List (κ × α)} (h : cs.Perm cs') (k : κ) : (tally cs k).Perm (tally cs' k) :=
  h.filterMap _

theorem sum_le_length_mul {vs : List ℕ} {hi : ℕ} (h : ∀ v ∈ vs, v ≤ hi) : vs.sum ≤ vs.length * hi :=
  List.sum_le_card_nsmul vs hi h

theorem length_mul_le_sum {vs : List ℕ} {lo : ℕ} (h : ∀ v ∈ vs, lo ≤ v) : vs.length * lo ≤ vs.sum :=
  List.card_nsmul_le_sum vs lo h

/-- A mean is between its samples. -/
theorem le_mean {vs : List ℕ} {lo : ℕ} (hne : vs ≠ []) (h : ∀ v ∈ vs, lo ≤ v) : lo ≤ vs.sum / vs.length := by
  rw [Nat.le_div_iff_mul_le (List.length_pos_iff.2 hne), Nat.mul_comm]
  exact length_mul_le_sum h

theorem mean_le {vs : List ℕ} {hi : ℕ} (h : ∀ v ∈ vs, v ≤ hi) : vs.sum / vs.length ≤ hi :=
  Nat.div_le_of_le_mul (sum_le_length_mul h)

end Tally
