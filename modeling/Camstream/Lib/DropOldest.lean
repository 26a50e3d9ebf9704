import Mathlib.Data.Finset.Card
import Mathlib.Data.Finset.Range
import Mathlib.Data.List.Nodup
import Mathlib.Data.Nat.ModEq

/-!
# Bounded queues that drop their oldest element

A queue that is full makes room by dropping what has waited longest. The state keeps the history of what
has left, each element with the fact whether it was taken or dropped, so that conservation is an equation
of lists: what was put in is what has left followed by what is stored.

`Circular.window` is the content of a circular buffer: `count` slots from `head` on, modulo the number of
slots.
-/

/-- A queue with the history of what has left it, oldest first; the flag says whether the element was
taken. -/
structure DropOldest (α : Type*) where
  gone : List (α × Bool)
  stored : List α

namespace DropOldest

variable {α : Type*} (q : DropOldest α)

/-- The empty queue with no history. -/
def empty : DropOldest α := ⟨[], []⟩

/-- Everything that was put in. -/
def accepted : List α := q.gone.map Prod.fst ++ q.stored

/-- Everything that was taken out. -/
def taken : List α := (q.gone.filter Prod.snd).map Prod.fst

/-- The number of elements that were dropped. -/
def dropped : ℕ := q.gone.countP fun a ↦ !a.2

/-- The oldest element leaves. -/
def shift (wasTaken : Bool) : DropOldest α :=
  match q.stored with
  | [] => q
  | a :: rest => ⟨q.gone ++ [(a, wasTaken)], rest⟩

/-- Put an element into a queue with `n` places. -/
def push (n : ℕ) (a : α) : DropOldest α :=
  let q := if q.stored.length = n then q.shift false else q
  ⟨q.gone, q.stored ++ [a]⟩

/-- Take the oldest element. -/
def take : DropOldest α := q.shift true

variable {q}

theorem shift_cons {gone : List (α × Bool)} {a : α} {rest : List α} (b : Bool) :
    (⟨gone, a :: rest⟩ : DropOldest α).shift b = ⟨gone ++ [(a, b)], rest⟩ := rfl

/-- Whatever becomes of it, the oldest element leaves. -/
theorem stored_shift (b : Bool) : (q.shift b).stored = q.stored.tail := by
  obtain ⟨gone, _ | ⟨a, rest⟩⟩ := q <;> rfl

@[simp] theorem accepted_shift (b : Bool) : (q.shift b).accepted = q.accepted := by
  obtain ⟨gone, _ | ⟨a, rest⟩⟩ := q
  · rfl
  · rw [shift_cons, accepted, accepted, List.map_append, List.append_assoc]
    rfl

theorem taken_shift_false : (q.shift false).taken = q.taken := by
  obtain ⟨gone, _ | ⟨a, rest⟩⟩ := q
  · rfl
  · rw [shift_cons, taken, taken, List.filter_append]
    exact congrArg _ (List.append_nil _)

/-- The element taken is the oldest. -/
theorem taken_take {a : α} {rest : List α} (h : q.stored = a :: rest) :
    q.take.taken = q.taken ++ [a] := by
  obtain ⟨gone, stored⟩ := q
  obtain rfl : stored = a :: rest := h
  rw [take, shift_cons, taken, taken, List.filter_append, List.map_append]
  rfl

/-- An element that leaves without being taken is dropped. -/
theorem dropped_shift_false (h : q.stored ≠ []) : (q.shift false).dropped = q.dropped + 1 := by
  obtain ⟨gone, _ | ⟨a, rest⟩⟩ := q
  · exact absurd rfl h
  · rw [shift_cons, dropped, dropped, List.countP_append]
    rfl

@[simp] theorem dropped_take : q.take.dropped = q.dropped := by
  obtain ⟨gone, _ | ⟨a, rest⟩⟩ := q
  · rfl
  · rw [take, shift_cons, dropped, dropped, List.countP_append]
    rfl

@[simp] theorem accepted_take : q.take.accepted = q.accepted := accepted_shift true

/-- **Nothing is lost on the way in**, whether or not another element has to go. -/
theorem accepted_push (n : ℕ) (a : α) : (q.push n a).accepted = q.accepted ++ [a] := by
  rw [push]
  split_ifs
  · rw [← accepted_shift (q := q) false, accepted, accepted, List.append_assoc]
  · rw [accepted, accepted, List.append_assoc]

/-- A push takes nothing. -/
theorem taken_push (n : ℕ) (a : α) : (q.push n a).taken = q.taken := by
  rw [push]
  split_ifs
  · exact taken_shift_false
  · rfl

theorem length_dropped_le : q.dropped ≤ q.gone.length := List.countP_le_length

/-! ### Numbered elements -/

/-- What was taken comes in the order in which it was put in. -/
theorem taken_sublist : q.taken.Sublist q.accepted :=
  (List.filter_sublist.map _).trans (List.sublist_append_left _ _)

/-- A queue that has dropped nothing has handed out all it does not store. -/
theorem accepted_eq_taken_append (h : q.dropped = 0) : q.accepted = q.taken ++ q.stored := by
  have hgone : q.gone.filter Prod.snd = q.gone := by
    refine List.filter_eq_self.2 fun a ha ↦ ?_
    have hnot := List.countP_eq_zero.1 h a ha
    simpa using hnot
  rw [accepted, taken, hgone]

variable {num : α → ℕ}

/-- The elements carry their place in the history. -/
def Numbered (num : α → ℕ) (q : DropOldest α) : Prop :=
  q.accepted.map num = List.range q.accepted.length

namespace Numbered

/-- Elements are taken in the order of their numbers. -/
theorem pairwise_taken (h : q.Numbered num) : (q.taken.map num).Pairwise (· < ·) := by
  have hsub : (q.taken.map num).Sublist (List.range q.accepted.length) := by
    rw [← h]
    exact taken_sublist.map num
  exact List.pairwise_lt_range.sublist hsub

/-- What is gone has the first numbers, without a gap. -/
theorem gone_eq (h : q.Numbered num) :
    q.gone.map (fun a ↦ num a.1) = List.range q.gone.length := by
  have htake := congrArg (List.take q.gone.length) h
  rw [accepted, List.map_append, List.map_map, List.take_left' (by rw [List.length_map]),
    List.take_range, List.length_append, List.length_map] at htake
  rw [Nat.min_eq_left (Nat.le_add_right _ _)] at htake
  exact htake

/-- The next element to leave carries the number of those that have left. -/
theorem num_head (h : q.Numbered num) {a : α} {rest : List α} (hs : q.stored = a :: rest) :
    num a = q.gone.length := by
  have hget := congrArg (fun l : List ℕ ↦ l[q.gone.length]?) h
  have hlen : q.gone.length < q.accepted.length := by
    rw [accepted, hs, List.length_append, List.length_map, List.length_cons]
    omega
  rw [List.getElem?_range hlen, accepted, hs, List.map_append, List.map_map,
    List.getElem?_append_right (by rw [List.length_map])] at hget
  simpa using hget

/-- **The numbers that are missing among those taken are the ones dropped.** -/
theorem card_missing (h : q.Numbered num) :
    ((Finset.range q.gone.length).filter (· ∉ q.taken.map num)).card = q.dropped := by
  -- Both sides count the dropped part of the history.
  have hnodup : (q.gone.map fun a ↦ num a.1).Nodup := h.gone_eq ▸ List.nodup_range
  have hset : (Finset.range q.gone.length).filter (· ∉ q.taken.map num) =
      ((q.gone.filter fun a ↦ !a.2).map fun a ↦ num a.1).toFinset := by
    ext k
    rw [Finset.mem_filter, Finset.mem_range, ← List.mem_range, ← h.gone_eq, List.mem_toFinset]
    constructor
    · rintro ⟨hk, hnot⟩
      obtain ⟨a, ha, rfl⟩ := List.mem_map.1 hk
      refine List.mem_map.2 ⟨a, List.mem_filter.2 ⟨ha, ?_⟩, rfl⟩
      rw [Bool.not_eq_true']
      refine Bool.eq_false_iff.2 fun htaken ↦ hnot ?_
      exact List.mem_map_of_mem (List.mem_map_of_mem (List.mem_filter.2 ⟨ha, htaken⟩))
    · intro hk
      obtain ⟨a, ha, rfl⟩ := List.mem_map.1 hk
      obtain ⟨ha, hdropped⟩ := List.mem_filter.1 ha
      refine ⟨List.mem_map_of_mem ha, fun hmem ↦ ?_⟩
      obtain ⟨b, hb, hnum⟩ := List.mem_map.1 hmem
      obtain ⟨c, hc, rfl⟩ := List.mem_map.1 hb
      obtain ⟨hc, htaken⟩ := List.mem_filter.1 hc
      -- One number belongs to one entry of the history.
      obtain rfl := List.inj_on_of_nodup_map hnodup hc ha hnum
      rw [htaken] at hdropped
      exact absurd hdropped Bool.false_ne_true
  rw [hset, List.toFinset_card_of_nodup, List.length_map, dropped, List.countP_eq_length_filter]
  exact hnodup.sublist (List.filter_sublist.map _)

end Numbered

end DropOldest

/-! ### Circular buffers -/

namespace Circular

variable {α : Type*}

/-- The content of a circular buffer with `n` slots. -/
def window (slot : ℕ → α) (n head count : ℕ) : List α :=
  (List.range count).map fun i ↦ slot ((head + i) % n)

variable {slot slot' : ℕ → α} {n head count : ℕ}

@[simp] theorem length_window : (window slot n head count).length = count := by
  rw [window, List.length_map, List.length_range]

/-- A buffer grows at its end. -/
theorem window_succ :
    window slot n head (count + 1) = window slot n head count ++ [slot ((head + count) % n)] := by
  rw [window, List.range_succ, List.map_append]
  rfl

/-- A buffer shrinks at its head. -/
theorem window_eq_cons (h : head < n) : window slot n head (count + 1) =
    slot head :: window slot n ((head + 1) % n) count := by
  rw [window, List.range_succ_eq_map, List.map_cons, List.map_map, Nat.add_zero, Nat.mod_eq_of_lt h]
  refine congrArg _ (List.map_congr_left fun i _ ↦ ?_)
  show slot ((head + (i + 1)) % n) = slot (((head + 1) % n + i) % n)
  rw [Nat.mod_add_mod, Nat.add_assoc, Nat.add_comm 1 i]

theorem window_congr (h : ∀ i < count, slot ((head + i) % n) = slot' ((head + i) % n)) :
    window slot n head count = window slot' n head count :=
  List.map_congr_left fun i hi ↦ h i (List.mem_range.1 hi)

/-- The slot behind the content of a buffer that is not full is none of its own. -/
theorem add_mod_ne {i : ℕ} (hi : i < count) (hcount : count < n) :
    (head + i) % n ≠ (head + count) % n := by
  intro he
  have hmod : i ≡ count [MOD n] := Nat.ModEq.add_left_cancel' head he
  exact hi.ne (hmod.eq_of_lt_of_lt (hi.trans hcount) hcount)

end Circular
