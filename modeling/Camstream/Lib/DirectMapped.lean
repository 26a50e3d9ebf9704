import Mathlib.Logic.Function.Basic

/-!
# Direct-mapped caches

A cache in which every item has one slot, and a new item takes the slot of whatever was there. What it
holds is determined by the history of the items stored: in each slot the latest item that belongs there.
The history is a list, newest first.
-/

namespace DirectMapped

variable {α ι : Type*} [DecidableEq ι] (index : α → ι)

/-- The latest item of a history that belongs to a slot. -/
def latest (history : List α) (slot : ι) : Option α :=
  history.find? fun a ↦ index a = slot

variable {index}

/-- **Storing an item** overwrites its slot and no other. -/
theorem latest_cons (a : α) (history : List α) :
    latest index (a :: history) = Function.update (latest index history) (index a) (some a) := by
  funext slot
  rcases eq_or_ne slot (index a) with rfl | hne
  · rw [Function.update_self]
    exact List.find?_cons_of_pos (decide_eq_true rfl)
  · rw [Function.update_of_ne hne]
    exact List.find?_cons_of_neg (by simpa using hne.symm)

/-- What a slot holds was stored. -/
theorem mem_of_latest {history : List α} {slot : ι} {a : α}
    (h : latest index history slot = some a) : a ∈ history :=
  List.mem_of_find?_eq_some h

/-! ### Storing into a cache that is in use -/

variable {β : Type*}

/-- Store entries, oldest first, each in its slot. -/
def storeAll (cache : ι → Option β) (entries : List (ι × β)) : ι → Option β :=
  entries.foldl (fun cache e ↦ Function.update cache e.1 (some e.2)) cache

/-- Entries stored in two parts. -/
theorem storeAll_append (cache : ι → Option β) (entries entries' : List (ι × β)) :
    storeAll cache (entries ++ entries') = storeAll (storeAll cache entries) entries' :=
  List.foldl_append

/-- A slot that no entry maps to keeps what it has. -/
theorem storeAll_of_forall_ne (cache : ι → Option β) {entries : List (ι × β)} {slot : ι}
    (h : ∀ e ∈ entries, e.1 ≠ slot) : storeAll cache entries slot = cache slot := by
  induction entries generalizing cache with
  | nil => rfl
  | cons e entries ih =>
    rw [List.forall_mem_cons] at h
    exact (ih (Function.update cache e.1 (some e.2)) h.2).trans
      (Function.update_of_ne h.1.symm _ _)

/-- **An entry stays until its slot is taken.** -/
theorem storeAll_of_last (cache : ι → Option β) (before : List (ι × β)) {slot : ι} (b : β)
    {after : List (ι × β)} (h : ∀ e ∈ after, e.1 ≠ slot) :
    storeAll cache (before ++ (slot, b) :: after) slot = some b := by
  rw [storeAll_append]
  exact (storeAll_of_forall_ne _ h).trans (Function.update_self _ _ _)

end DirectMapped
