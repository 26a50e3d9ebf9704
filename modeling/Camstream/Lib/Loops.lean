import Mathlib.Data.List.Basic
import Mathlib.Data.UInt

/-!
# Loops

The loops of a program as lists of what they come to: a counter of 32 bits, a condition that may end the
loop before the counter does (`mem_takeWhile_map_range`), and turns that may fail (`exists_mapM_iff`,
`mem_mapM`).
-/

namespace Loops

/-- `for (uint32_t i = 0; i < n; i++)` -/
def countUp (n : UInt32) : List UInt32 :=
  (List.range n.toNat).map UInt32.ofNat

/-- What a counted loop does is done in one of its turns. -/
theorem mem_flatMap_countUp {α : Type*} {n : UInt32} {f : UInt32 → List α} {a : α} :
    a ∈ (countUp n).flatMap f ↔ ∃ k < n.toNat, a ∈ f (UInt32.ofNat k) := by
  simp only [countUp, List.flatMap_map, List.mem_flatMap, List.mem_range]

theorem toNat_ofNat_of_lt_toNat {n : UInt32} {k : ℕ} (h : k < n.toNat) : (UInt32.ofNat k).toNat = k :=
  UInt32.toNat_ofNat_of_lt (h.trans n.toNat_lt)

/-- What a loop gets to whose condition may end it early. -/
theorem mem_takeWhile_map_range {α : Type*} {n : ℕ} {f : ℕ → α} {p : α → Bool} {a : α} :
    a ∈ ((List.range n).map f).takeWhile p ↔ ∃ k < n, a = f k ∧ ∀ j ≤ k, p (f j) = true := by
  induction n generalizing f with
  | zero => exact iff_of_false List.not_mem_nil fun ⟨k, hk, _⟩ ↦ Nat.not_lt_zero k hk
  | succ n ih =>
    rw [List.range_succ_eq_map, List.map_cons, List.map_map]
    rcases hp : p (f 0) with - | -
    · rw [List.takeWhile_cons_of_neg (by rw [hp]; exact Bool.false_ne_true)]
      refine iff_of_false List.not_mem_nil ?_
      rintro ⟨k, -, -, hall⟩
      exact Bool.false_ne_true (hp.symm.trans (hall 0 (Nat.zero_le k)))
    · rw [List.takeWhile_cons_of_pos hp, List.mem_cons, ih]
      constructor
      · rintro (rfl | ⟨k, hk, rfl, hall⟩)
        · exact ⟨0, Nat.succ_pos n, rfl, fun j hj ↦ Nat.le_zero.1 hj ▸ hp⟩
        · refine ⟨k + 1, Nat.succ_lt_succ hk, rfl, fun j hj ↦ ?_⟩
          rcases j with - | j
          · exact hp
          · exact hall j (Nat.le_of_succ_le_succ hj)
      · rintro ⟨k, hk, rfl, hall⟩
        rcases k with - | k
        · exact .inl rfl
        · exact .inr ⟨k, Nat.lt_of_succ_lt_succ hk, rfl, fun j hj ↦ hall (j + 1) (Nat.succ_le_succ hj)⟩

variable {α β : Type*} {f : α → Option β} {l : List α}

/-- A loop gets through if every turn does. -/
theorem exists_mapM_iff : (∃ bs, l.mapM f = some bs) ↔ ∀ a ∈ l, ∃ b, f a = some b := by
  induction l with
  | nil => exact iff_of_true ⟨[], rfl⟩ fun a ha ↦ absurd ha List.not_mem_nil
  | cons a l ih =>
    rw [List.forall_mem_cons, ← ih, List.mapM_cons]
    rcases f a with - | b
    · exact iff_of_false (fun ⟨bs, h⟩ ↦ absurd h.symm (Option.some_ne_none bs))
        fun ⟨⟨b, h⟩, _⟩ ↦ absurd h.symm (Option.some_ne_none b)
    · rcases l.mapM f with - | bs
      · exact iff_of_false (fun ⟨bs, h⟩ ↦ absurd h.symm (Option.some_ne_none bs))
          fun ⟨_, bs, h⟩ ↦ absurd h.symm (Option.some_ne_none bs)
      · exact iff_of_true ⟨_, rfl⟩ ⟨⟨b, rfl⟩, bs, rfl⟩

/-- What it collects comes from one of its turns. -/
theorem mem_mapM {bs : List β} (h : l.mapM f = some bs) {b : β} : b ∈ bs ↔ ∃ a ∈ l, f a = some b := by
  induction l generalizing bs with
  | nil =>
    obtain rfl := Option.some.inj h
    exact iff_of_false List.not_mem_nil fun ⟨a, ha, _⟩ ↦ absurd ha List.not_mem_nil
  | cons a l ih =>
    rw [List.mapM_cons, Option.bind_eq_bind, Option.bind_eq_some_iff] at h
    obtain ⟨b', hb', h⟩ := h
    rw [Option.bind_eq_bind, Option.bind_eq_some_iff] at h
    obtain ⟨bs', hbs', h⟩ := h
    obtain rfl := Option.some.inj h
    rw [List.mem_cons, ih hbs', List.exists_mem_cons_iff, hb', Option.some.injEq, eq_comm]

theorem getElem?_snoc_iff {α : Type*} {l : List α} {a b : α} {k : ℕ} :
    (l ++ [a])[k]? = some b ↔ l[k]? = some b ∨ k = l.length ∧ a = b := by
  rcases Nat.lt_trichotomy k l.length with hlt | rfl | hgt
  · rw [List.getElem?_append_left hlt]
    exact (or_iff_left fun h ↦ Nat.ne_of_lt hlt h.1).symm
  · rw [List.getElem?_append_right (Nat.le_refl _), Nat.sub_self, List.getElem?_cons_zero,
      List.getElem?_eq_none (Nat.le_refl _), Option.some.injEq]
    exact ⟨fun h ↦ .inr ⟨rfl, h⟩, fun h ↦ h.elim (fun h ↦ absurd h.symm (Option.some_ne_none b)) And.right⟩
  · have hnone : l[k]? = none := List.getElem?_eq_none (Nat.le_of_lt hgt)
    have hnone' : (l ++ [a])[k]? = none := List.getElem?_eq_none (by
      rw [List.length_append, List.length_singleton]
      omega)
    rw [hnone, hnone']
    exact iff_of_false (fun h ↦ absurd h.symm (Option.some_ne_none b)) fun h ↦
      h.elim (fun h ↦ absurd h.symm (Option.some_ne_none b)) fun h ↦ Nat.ne_of_gt hgt h.1

end Loops
