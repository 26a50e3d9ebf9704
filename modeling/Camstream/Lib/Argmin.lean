import Camstream.Lib.Run
import Mathlib.Data.Finset.Max
import Mathlib.Data.Prod.Lex

/-!
# Scans for a minimum

A scan keeps the cheapest candidate so far and replaces it only by a strictly cheaper one. A candidate
can be passed over, and its cost can fail to exist, in which case the scan fails as a whole.

`Found` is all that such a scan guarantees: either nothing was cheaper than the start, or what was found is
the first candidate of least cost. It rests on the strict comparison alone. `FirstLeast` says the same of a set
of candidates, without a scan.
-/

namespace Argmin

open Run

variable {α β : Type*} [LT β]

/-- Look at one more candidate. `some none` is a candidate that is passed over. -/
def scanStep [DecidableLT β] (cost : α → Option (Option β)) (best : β × α) (a : α) : Option (β × α) :=
  (cost a).map fun
    | some c => if c < best.1 then (c, a) else best
    | none => best

variable {cost : α → Option (Option β)} {start best : β × α} {l : List α}

/-- A scan whose candidates all have a cost, or are passed over, comes to an end. -/
theorem exists_scan [DecidableLT β] (start : β × α) (h : ∀ a ∈ l, ∃ c, cost a = some c) :
    ∃ best, exec (scanStep cost) start l = some best := by
  refine exists_exec (fun a ha best ↦ ?_) start
  obtain ⟨c, hc⟩ := h a ha
  rw [scanStep, hc]
  exact ⟨_, rfl⟩

variable [LE β]

/-- Nothing is cheaper than the start, or `best` is the first candidate of least cost. -/
def Found (cost : α → Option (Option β)) (start : β × α) (l : List α) (best : β × α) : Prop :=
  (best = start ∧ ∀ a ∈ l, ∀ c, cost a = some (some c) → start.1 ≤ c) ∨
    ∃ before after, l = before ++ best.2 :: after ∧ cost best.2 = some (some best.1) ∧
      best.1 < start.1 ∧ (∀ a ∈ before, ∀ c, cost a = some (some c) → best.1 < c) ∧
      ∀ a ∈ after, ∀ c, cost a = some (some c) → best.1 ≤ c

/-- A candidate that is not cheaper changes nothing. -/
theorem Found.keep (h : Found cost start l best) {a : α}
    (hle : ∀ c, cost a = some (some c) → best.1 ≤ c) : Found cost start (l ++ [a]) best := by
  rcases h with ⟨rfl, hall⟩ | ⟨before, after, rfl, hcost, hlt, hbefore, hafter⟩
  · refine .inl ⟨rfl, fun b hb ↦ ?_⟩
    rcases List.mem_append.1 hb with hb | hb
    · exact hall b hb
    · rw [List.mem_singleton.1 hb]
      exact hle
  · refine .inr ⟨before, after ++ [a], List.append_assoc _ _ _, hcost, hlt, hbefore, fun b hb ↦ ?_⟩
    rcases List.mem_append.1 hb with hb | hb
    · exact hafter b hb
    · rw [List.mem_singleton.1 hb]
      exact hle

variable [Std.IsLinearOrder β] [Std.LawfulOrderLT β]

/-- A candidate that is cheaper is cheaper than all before it. -/
theorem Found.replace (h : Found cost start l best) {a : α} {c : β} (hc : cost a = some (some c))
    (hlt : c < best.1) : Found cost start (l ++ [a]) (c, a) := by
  have hstart : c < start.1 := by
    rcases h with ⟨rfl, -⟩ | ⟨-, -, -, -, hbest, -, -⟩
    · exact hlt
    · exact Std.lt_trans hlt hbest
  refine .inr ⟨l, [], rfl, hc, hstart, fun b hb d hd ↦ ?_, fun b hb ↦ absurd hb List.not_mem_nil⟩
  rcases h with ⟨rfl, hall⟩ | ⟨before, after, rfl, hcost, -, hbefore, hafter⟩
  · exact Std.lt_of_lt_of_le hlt (hall b hb d hd)
  · rcases List.mem_append.1 hb with hb | hb
    · exact Std.lt_trans hlt (hbefore b hb d hd)
    · rcases List.mem_cons.1 hb with rfl | hb
      · rw [hcost] at hd
        exact Option.some.inj (Option.some.inj hd) ▸ hlt
      · exact Std.lt_of_lt_of_le hlt (hafter b hb d hd)

/-! ### First least elements -/

section FirstLeast

/-- An element of least cost, and the first one among those of the same cost. -/
structure FirstLeast {γ : Type*} [LE β] [LT γ] (s : Finset α) (cost : α → β) (place : α → γ) (a : α) :
    Prop where
  mem : a ∈ s
  le : ∀ b ∈ s, cost a ≤ cost b
  lt_of_place : ∀ b ∈ s, place b < place a → cost a < cost b

variable {γ : Type*} {s : Finset α} {place : α → γ} {a b : α} {c : α → β}

/-- **A scan in order finds the first least candidate**, unless nothing is cheaper than the start. -/
theorem firstLeast_of_found [Preorder γ] (h : Found cost start l best)
    (hsorted : l.Pairwise fun a b ↦ place a < place b) (hmem : ∀ a ∈ s, a ∈ l)
    (hcost : ∀ a ∈ s, cost a = some (some (c a)))
    (hskip : ∀ a ∈ l, a ∉ s → cost a = some none) :
    (best = start ∧ ∀ a ∈ s, start.1 ≤ c a) ∨
      FirstLeast s c place best.2 ∧ c best.2 = best.1 ∧ best.1 < start.1 := by
  rcases h with ⟨rfl, hall⟩ | ⟨before, after, rfl, hbest, hlt, hbefore, hafter⟩
  · exact .inl ⟨rfl, fun a ha ↦ hall a (hmem a ha) _ (hcost a ha)⟩
  -- The best is an element, since what is none has been passed over.
  · have hs : best.2 ∈ s := by
      by_contra hnot
      rw [hskip _ (List.mem_append_right _ List.mem_cons_self) hnot] at hbest
      exact absurd (Option.some.inj hbest).symm (Option.some_ne_none _)
    have hc : c best.2 = best.1 := Option.some.inj (Option.some.inj ((hcost _ hs).symm.trans hbest))
    obtain ⟨-, hrest, -⟩ := List.pairwise_append.1 hsorted
    refine .inr ⟨⟨hs, fun b hb ↦ ?_, fun b hb hplace ↦ ?_⟩, hc, hlt⟩
    · rw [hc]
      rcases List.mem_append.1 (hmem b hb) with hb' | hb'
      · exact Std.le_of_lt (hbefore b hb' _ (hcost b hb))
      · rcases List.mem_cons.1 hb' with rfl | hb'
        · exact hc ▸ Std.le_refl _
        · exact hafter b hb' _ (hcost b hb)
    · rw [hc]
      rcases List.mem_append.1 (hmem b hb) with hb' | hb'
      · exact hbefore b hb' _ (hcost b hb)
      · rcases List.mem_cons.1 hb' with rfl | hb'
        · exact absurd hplace (lt_irrefl _)
        · exact absurd ((List.pairwise_cons.1 hrest).1 b hb') (lt_asymm hplace)

end FirstLeast

section LinearOrder

variable {β γ : Type*} [LinearOrder β] [LinearOrder γ] {s : Finset α} {place : α → γ} {a b : α} {c : α → β}

/-- There is one first least element, if no two have the same place. -/
theorem FirstLeast.unique (hplace : Function.Injective place) (ha : FirstLeast s c place a)
    (hb : FirstLeast s c place b) : a = b := by
  refine hplace ?_
  by_contra hne
  rcases lt_or_gt_of_ne hne with hlt | hlt
  · exact absurd (ha.le b hb.mem) (not_le.2 (hb.lt_of_place a ha.mem hlt))
  · exact absurd (hb.le a ha.mem) (not_le.2 (ha.lt_of_place b hb.mem hlt))

/-- It is the least element for the lexicographic order. -/
theorem exists_firstLeast (hs : s.Nonempty) (c : α → β) (place : α → γ) : ∃ a, FirstLeast s c place a := by
  obtain ⟨a, ha, hleast⟩ := s.exists_min_image (fun a ↦ toLex (c a, place a)) hs
  refine ⟨a, ha, fun b hb ↦ ?_, fun b hb hlt ↦ ?_⟩
  · rcases Prod.Lex.toLex_le_toLex.1 (hleast b hb) with h | ⟨h, -⟩
    · exact le_of_lt h
    · exact le_of_eq h
  · rcases Prod.Lex.toLex_le_toLex.1 (hleast b hb) with h | ⟨-, h⟩
    · exact h
    · exact absurd hlt (not_lt.2 h)

end LinearOrder

/-! ### Scans -/

variable [DecidableLT β]

/-- **What a scan finds.** The induction is from the end of the list. -/
theorem found_of_scan (h : exec (scanStep cost) start l = some best) : Found cost start l best := by
  induction l using List.reverseRecOn generalizing best with
  | nil =>
    obtain rfl := Option.some.inj h
    exact .inl ⟨rfl, fun a ha ↦ absurd ha List.not_mem_nil⟩
  | append_singleton l a ih =>
    obtain ⟨prior, hprior, hstep⟩ := exists_of_exec_snoc h
    obtain ⟨c, hc, rfl⟩ := Option.map_eq_some_iff.1 hstep
    rcases c with - | c
    · refine (ih hprior).keep fun d hd ↦ ?_
      rw [hc] at hd
      exact absurd (Option.some.inj hd) (Option.some_ne_none d).symm
    · dsimp only
      split_ifs with hlt
      · exact (ih hprior).replace hc hlt
      · refine (ih hprior).keep fun d hd ↦ ?_
        rw [hc] at hd
        rw [← Option.some.inj (Option.some.inj hd)]
        exact Std.not_lt.1 hlt

/-- **A first candidate that nothing can beat is what is found.** -/
theorem eq_head_of_scan {a : α} {c : β} (h : exec (scanStep cost) start (a :: l) = some best)
    (ha : cost a = some (some c)) (hlt : c < start.1) (hleast : ∀ d, c ≤ d) : best = (c, a) := by
  rcases found_of_scan h with ⟨rfl, hall⟩ | ⟨before, after, hl, hcost, -, hbefore, -⟩
  · exact absurd hlt (Std.not_lt.2 (hall a List.mem_cons_self c ha))
  · rcases before with - | ⟨b, before⟩
    · obtain ⟨he, -⟩ := List.cons.inj hl
      rw [← he, ha] at hcost
      rw [Option.some.inj (Option.some.inj hcost), he]
    · obtain ⟨rfl, -⟩ := List.cons.inj hl
      exact absurd (hbefore a List.mem_cons_self c ha) (Std.not_lt.2 (hleast _))

end Argmin
