import Mathlib.Data.Finset.Card
import Mathlib.Data.Multiset.Count
import Mathlib.Data.Multiset.ZeroCons
import Mathlib.Data.Finset.Dedup

/-!
# Reference counting over a fixed set of buffers

A pool as the user of one thinks of it: a finite set `U` of buffers, the **multiset of references**
currently held — a buffer occurs in it once for every holder — and the list of free buffers. The free
list is the buffers nobody references, each once; this is carried by the structure, so a pool that
leaks a buffer, lists it twice or recycles it early cannot be built.

Three operations, each with the side condition under which it makes sense:

* `acquire` takes the head of the free list and references it once;
* `share` adds a reference to a buffer that has one;
* `release` drops a reference, and returns the buffer to the free list when it was the last.

Nothing is said about how references are counted or where the free list is stored.
-/

/-- A pool over the buffers `U`. -/
structure RefPool {ι : Type*} [DecidableEq ι] (U : Finset ι) where
  /-- The free buffers, next one first. -/
  free : List ι
  /-- The references held, with multiplicity. -/
  refs : Multiset ι
  /-- No buffer is listed twice. -/
  nodup_free : free.Nodup
  /-- The free buffers are the unreferenced ones. -/
  mem_free : ∀ i, i ∈ free ↔ i ∈ U ∧ i ∉ refs
  /-- Only buffers of the pool are referenced. -/
  refs_subset : ∀ i ∈ refs, i ∈ U

namespace RefPool

variable {ι : Type*} [DecidableEq ι] {U : Finset ι}

/-! ### Operations -/

/-- The pool nobody has taken a buffer from, its free list in any order. -/
def fresh (l : List ι) (hl : l.Nodup) (hU : ∀ i, i ∈ l ↔ i ∈ U) : RefPool U where
  free := l
  refs := 0
  nodup_free := hl
  mem_free i := by
    rw [hU i, and_iff_left (Multiset.notMem_zero i)]
  refs_subset i hi := absurd hi (Multiset.notMem_zero i)

variable (a : RefPool U)

/-- Take the head of the free list. -/
def acquire {i : ι} {rest : List ι} (h : a.free = i :: rest) : RefPool U where
  free := rest
  refs := i ::ₘ a.refs
  nodup_free := (List.nodup_cons.1 (h ▸ a.nodup_free)).2
  mem_free j := by
    have hi := (List.nodup_cons.1 (h ▸ a.nodup_free)).1
    have hj := a.mem_free j
    rw [h, List.mem_cons] at hj
    rw [Multiset.mem_cons, not_or]
    constructor
    · intro hmem
      have hfree := hj.1 (Or.inr hmem)
      refine ⟨hfree.1, ?_, hfree.2⟩
      rintro rfl
      exact hi hmem
    · rintro ⟨hU, hne, hrefs⟩
      exact (hj.2 ⟨hU, hrefs⟩).resolve_left hne
  refs_subset j hj := by
    rcases Multiset.mem_cons.1 hj with rfl | hj
    · exact ((a.mem_free j).1 (h ▸ List.mem_cons_self)).1
    · exact a.refs_subset j hj

/-- Add a reference to a referenced buffer. -/
def share {i : ι} (h : i ∈ a.refs) : RefPool U where
  free := a.free
  refs := i ::ₘ a.refs
  nodup_free := a.nodup_free
  mem_free j := by
    rw [a.mem_free j, Multiset.mem_cons, not_or]
    constructor
    · rintro ⟨hU, hj⟩
      refine ⟨hU, ?_, hj⟩
      rintro rfl
      exact hj h
    · rintro ⟨hU, -, hj⟩
      exact ⟨hU, hj⟩
  refs_subset j hj := by
    rcases Multiset.mem_cons.1 hj with rfl | hj
    · exact a.refs_subset j h
    · exact a.refs_subset j hj

/-- Drop a reference; the last one returns the buffer. -/
def release {i : ι} (h : i ∈ a.refs) : RefPool U where
  free := if i ∈ a.refs.erase i then a.free else i :: a.free
  refs := a.refs.erase i
  nodup_free := by
    split_ifs
    · exact a.nodup_free
    · exact List.nodup_cons.2 ⟨fun hi ↦ ((a.mem_free i).1 hi).2 h, a.nodup_free⟩
  mem_free j := by
    by_cases hji : j = i
    · subst hji
      split_ifs with hmem
      · rw [a.mem_free j]
        simp [h, hmem]
      · simp [a.refs_subset j h, hmem]
    · rw [Multiset.mem_erase_of_ne hji]
      split_ifs
      · exact a.mem_free j
      · rw [List.mem_cons, or_iff_right hji]
        exact a.mem_free j
  refs_subset j hj := a.refs_subset j (Multiset.mem_of_mem_erase hj)

/-! ### Counting references -/

/-- Acquiring adds one reference to the buffer taken. -/
theorem count_acquire {i : ι} {rest : List ι} (h : a.free = i :: rest) (j : ι) :
    (a.acquire h).refs.count j = a.refs.count j + if i = j then 1 else 0 := by
  show (i ::ₘ a.refs).count j = _
  simp only [Multiset.count_cons, eq_comm]

/-- Sharing adds one reference to the buffer shared. -/
theorem count_share {i : ι} (h : i ∈ a.refs) (j : ι) :
    (a.share h).refs.count j = a.refs.count j + if i = j then 1 else 0 := by
  show (i ::ₘ a.refs).count j = _
  simp only [Multiset.count_cons, eq_comm]

/-- Releasing removes one reference from the buffer released. -/
theorem count_release {i : ι} (h : i ∈ a.refs) (j : ι) :
    (a.release h).refs.count j + (if i = j then 1 else 0) = a.refs.count j := by
  show (a.refs.erase i).count j + _ = _
  conv_rhs => rw [← Multiset.cons_erase h]
  simp only [Multiset.count_cons, eq_comm]

/-! ### What the carried invariant gives -/

/-- A buffer is on the free list once when unreferenced, and not at all otherwise. -/
theorem count_free {i : ι} (hi : i ∈ U) :
    a.free.count i = if a.refs.count i = 0 then 1 else 0 := by
  split_ifs with h
  · exact List.count_eq_one_of_mem a.nodup_free
      ((a.mem_free i).2 ⟨hi, Multiset.count_eq_zero.1 h⟩)
  · refine List.count_eq_zero.2 fun hmem ↦ h ?_
    exact Multiset.count_eq_zero.2 ((a.mem_free i).1 hmem).2

theorem toFinset_free : a.free.toFinset = U \ a.refs.toFinset := by
  ext i
  rw [List.mem_toFinset, a.mem_free, Finset.mem_sdiff, Multiset.mem_toFinset]

theorem length_free : a.free.length = (U \ a.refs.toFinset).card := by
  rw [← toFinset_free, List.toFinset_card_of_nodup a.nodup_free]

/-- As long as something is referenced there is room for it on the free list. -/
theorem length_free_lt {i : ι} (h : i ∈ a.refs) : a.free.length < U.card := by
  rw [length_free]
  refine Finset.card_lt_card (Finset.ssubset_iff_subset_ne.2 ⟨Finset.sdiff_subset, fun he ↦ ?_⟩)
  have hi : i ∈ U \ a.refs.toFinset := by
    rw [he]
    exact a.refs_subset i h
  exact (Finset.mem_sdiff.1 hi).2 (Multiset.mem_toFinset.2 h)

/-- When nothing is referenced every buffer is free. -/
theorem length_free_of_refs_eq_zero (h : a.refs = 0) : a.free.length = U.card := by
  rw [length_free, h, Multiset.toFinset_zero, Finset.sdiff_empty]

end RefPool
