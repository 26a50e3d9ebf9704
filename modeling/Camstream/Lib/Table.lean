import Mathlib.Data.Vector.Basic
import Mathlib.Tactic.Common

/-!
# Tables of a fixed size

Arrays whose size is part of their type, with checked accesses: an index that is not below the size is a
fault of its own, apart from the failures that a program reports itself.

The usual loop runs over `0, …, count - 1` and fills one slot at a time, where `count` comes from somewhere
else. `Fills` says what such a body does to a table of `n` slots, and `Fills.loop_outside_iff` when the
loop leaves the table: when `count` is larger than `n` and nothing fails before slot `n` is written.
-/

namespace Table

/-- How a computation ends early: outside a table, or with a failure that it reports, in the state that
it has got to. -/
inductive Fault (τ : Type*)
  | outside
  | failed (state : τ)

universe u

variable {α β σ : Type u} {τ ε : Type*} {n : ℕ}

/-- Read a slot. -/
def read (table : Vector α n) (i : ℕ) : Except (Fault τ) α :=
  if h : i < n then .ok table[i] else .error .outside

/-- Write a slot. -/
def write (table : Vector α n) (i : ℕ) (a : α) : Except (Fault τ) (Vector α n) :=
  if h : i < n then .ok (table.set i a h) else .error .outside

/-- The loop over the numbers below `count`. -/
def loop (count : ℕ) (body : σ → ℕ → Except ε σ) (s : σ) : Except ε σ :=
  (List.range count).foldlM body s

theorem read_of_lt (table : Vector α n) {i : ℕ} (h : i < n) :
    (read table i : Except (Fault τ) α) = .ok table[i] := dif_pos h

theorem write_of_lt (table : Vector α n) {i : ℕ} (h : i < n) (a : α) :
    (write table i a : Except (Fault τ) _) = .ok (table.set i a h) := dif_pos h

theorem write_of_ge (table : Vector α n) {i : ℕ} (h : n ≤ i) (a : α) :
    (write table i a : Except (Fault τ) _) = .error .outside := dif_neg (Nat.not_lt.2 h)

/-! ### Sequences of computations -/

theorem bind_eq_ok_iff {x : Except ε α} {f : α → Except ε β} {b : β} :
    x >>= f = .ok b ↔ ∃ a, x = .ok a ∧ f a = .ok b := by
  rcases x with e | a
  · refine iff_of_false (fun h ↦ nomatch h) ?_
    rintro ⟨a, h, -⟩
    exact nomatch h
  · constructor
    · intro h
      exact ⟨a, rfl, h⟩
    · rintro ⟨a', h, hf⟩
      exact Except.ok.inj h ▸ hf

theorem bind_eq_error_iff {x : Except ε α} {f : α → Except ε β} {e : ε} :
    x >>= f = .error e ↔ x = .error e ∨ ∃ a, x = .ok a ∧ f a = .error e := by
  rcases x with e' | a
  · constructor
    · intro h
      exact .inl (congrArg Except.error (Except.error.inj h))
    · rintro (h | ⟨a, h, -⟩)
      · exact congrArg Except.error (Except.error.inj h)
      · exact nomatch h
  · constructor
    · intro h
      exact .inr ⟨a, rfl, h⟩
    · rintro (h | ⟨a', h, hf⟩)
      · exact nomatch h
      · exact Except.ok.inj h ▸ hf

/-- **The run rule**: a property that every step keeps, and from which every step succeeds. -/
theorem exists_foldlM {step : σ → α → Except ε σ} {P : σ → Prop}
    (hstep : ∀ s a, P s → ∃ t, step s a = .ok t ∧ P t) (calls : List α) {s : σ} (hs : P s) :
    ∃ t, calls.foldlM step s = .ok t ∧ P t := by
  induction calls generalizing s with
  | nil => exact ⟨s, rfl, hs⟩
  | cons call calls ih =>
    obtain ⟨u, hu, hPu⟩ := hstep s call hs
    obtain ⟨t, ht, hPt⟩ := ih hPu
    exact ⟨t, (List.foldlM_cons).trans (bind_eq_ok_iff.2 ⟨u, hu, ht⟩), hPt⟩

/-! ### Loops -/

variable {body : σ → ℕ → Except ε σ} {s t : σ} {count : ℕ}

theorem loop_succ (count : ℕ) (body : σ → ℕ → Except ε σ) (s : σ) :
    loop (count + 1) body s = loop count body s >>= fun t ↦ body t count := by
  rw [loop, List.range_succ, List.foldlM_append]
  exact bind_congr fun t ↦ bind_pure (body t count)

/-- A loop whose body never fails. -/
theorem exists_loop (hbody : ∀ i < count, ∀ t, ∃ t', body t i = .ok t') (s : σ) :
    ∃ t, loop count body s = .ok t := by
  induction count with
  | zero => exact ⟨s, rfl⟩
  | succ count ih =>
    obtain ⟨t, hloop⟩ := ih fun i hi ↦ hbody i (Nat.lt_succ_of_lt hi)
    obtain ⟨t', hstep⟩ := hbody count (Nat.lt_succ_self count) t
    exact ⟨t', (loop_succ count body s).trans (bind_eq_ok_iff.2 ⟨t, hloop, hstep⟩)⟩

/-- **The invariant rule** for a loop that has finished. -/
theorem loop_invariant {P : σ → Prop} (hs : P s)
    (hbody : ∀ i t t', P t → body t i = .ok t' → P t') (h : loop count body s = .ok t) : P t := by
  induction count generalizing t with
  | zero =>
    obtain rfl := Except.ok.inj h
    exact hs
  | succ count ih =>
    rw [loop_succ] at h
    obtain ⟨u, hloop, hstep⟩ := bind_eq_ok_iff.1 h
    exact hbody count u t (ih hloop) hstep

/-- **Where a loop ends early**: at the first index whose body does. -/
theorem loop_eq_error_iff {e : ε} :
    loop count body s = .error e ↔ ∃ k < count, ∃ t, loop k body s = .ok t ∧ body t k = .error e := by
  induction count with
  | zero => exact iff_of_false (fun h ↦ nomatch h) fun ⟨k, hk, _⟩ ↦ Nat.not_lt_zero k hk
  | succ count ih =>
    rw [loop_succ, bind_eq_error_iff, ih]
    constructor
    · rintro (⟨k, hk, hrest⟩ | hlast)
      · exact ⟨k, Nat.lt_succ_of_lt hk, hrest⟩
      · exact ⟨count, Nat.lt_succ_self count, hlast⟩
    · rintro ⟨k, hk, hrest⟩
      rcases Nat.lt_succ_iff_lt_or_eq.1 hk with hlt | rfl
      · exact .inl ⟨k, hlt, hrest⟩
      · exact .inr hrest

/-- What filling slot `i` of a table with `n` slots comes to: it gets to the slot when `query` holds, and
succeeds, with a result in `P`, when `good` does. -/
inductive Filled (n i : ℕ) (P : σ → Prop) (query good : Prop) : Except (Fault τ) σ → Prop
  | failed (t : τ) (hgood : ¬ good) (hquery : query → i < n) : Filled n i P query good (.error (.failed t))
  | outside (hquery : query) (hge : n ≤ i) : Filled n i P query good (.error .outside)
  | filled (t : σ) (hgood : good) (hlt : i < n) (ht : P t) : Filled n i P query good (.ok t)

namespace Filled

variable {P : σ → Prop} {i : ℕ} {query good : Prop} {r : Except (Fault τ) σ}

theorem outside_iff (h : Filled n i P query good r) : r = .error .outside ↔ query ∧ n ≤ i := by
  rcases h with ⟨t, -, hquery⟩ | ⟨hquery, hge⟩ | ⟨t, -, hlt, -⟩
  · exact iff_of_false (fun h ↦ nomatch h) fun h ↦ Nat.not_le.2 (hquery h.1) h.2
  · exact iff_of_true rfl ⟨hquery, hge⟩
  · exact iff_of_false (fun h ↦ nomatch h) fun h ↦ Nat.not_le.2 hlt h.2

theorem ok_iff (h : Filled n i P query good r) : (∃ t, r = .ok t) ↔ good ∧ i < n := by
  rcases h with ⟨t, hgood, -⟩ | ⟨-, hge⟩ | ⟨t, hgood, hlt, -⟩
  · exact iff_of_false (fun ⟨_, h⟩ ↦ nomatch h) fun h ↦ hgood h.1
  · exact iff_of_false (fun ⟨_, h⟩ ↦ nomatch h) fun h ↦ Nat.not_lt.2 hge h.2
  · exact iff_of_true ⟨t, rfl⟩ ⟨hgood, hlt⟩

/-- The write that gets to the slot, and what follows it. -/
theorem of_write {table : Vector α n} {a : α} {f : Vector α n → Except (Fault τ) σ} (hquery : query)
    (h : ∀ hlt : i < n, Filled n i P query good (f (table.set i a hlt))) :
    Filled n i P query good (write table i a >>= f) := by
  rcases Nat.lt_or_ge i n with hlt | hge
  · rw [write_of_lt table hlt]
    exact h hlt
  · rw [write_of_ge table hge]
    exact .outside hquery hge

theorem keeps {t : σ} (h : Filled n i P query good r) (hr : r = .ok t) : P t := by
  rcases h with _ | _ | ⟨t', -, -, ht'⟩
  · exact nomatch hr
  · exact nomatch hr
  · exact Except.ok.inj hr ▸ ht'

end Filled

/-- In the states of `P`, which it keeps, the body fills one slot. -/
def Fills (n : ℕ) (body : σ → ℕ → Except (Fault τ) σ) (P : σ → Prop) (query good : ℕ → Prop) : Prop :=
  ∀ s i, P s → Filled n i P (query i) (good i) (body s i)

namespace Fills

variable {body : σ → ℕ → Except (Fault τ) σ} {P : σ → Prop} {query good : ℕ → Prop}

/-- What the loop keeps. -/
theorem loop_keeps (h : Fills n body P query good) (hs : P s) (ht : loop count body s = .ok t) : P t :=
  loop_invariant hs (fun i s _ hs ↦ (h s i hs).keeps) ht

/-- A loop that finishes fills its slots, which are there. -/
theorem loop_ok_iff (h : Fills n body P query good) (hs : P s) :
    (∃ t, loop count body s = .ok t) ↔ count ≤ n ∧ ∀ i < count, good i := by
  induction count with
  | zero => exact iff_of_true ⟨s, rfl⟩ ⟨Nat.zero_le n, fun i hi ↦ absurd hi (Nat.not_lt_zero i)⟩
  | succ count ih =>
    rw [loop_succ]
    constructor
    · rintro ⟨t, ht⟩
      obtain ⟨u, hloop, hstep⟩ := bind_eq_ok_iff.1 ht
      obtain ⟨-, hgood⟩ := ih.1 ⟨u, hloop⟩
      obtain ⟨hlast, hlt⟩ := (h u count (h.loop_keeps hs hloop)).ok_iff.1 ⟨t, hstep⟩
      refine ⟨hlt, fun i hi ↦ ?_⟩
      rcases Nat.lt_succ_iff_lt_or_eq.1 hi with hi | rfl
      · exact hgood i hi
      · exact hlast
    · rintro ⟨hle, hgood⟩
      obtain ⟨u, hloop⟩ := ih.2 ⟨Nat.le_of_succ_le hle, fun i hi ↦ hgood i (Nat.lt_succ_of_lt hi)⟩
      obtain ⟨t, hstep⟩ :=
        (h u count (h.loop_keeps hs hloop)).ok_iff.2 ⟨hgood count (Nat.lt_succ_self count), hle⟩
      exact ⟨t, bind_eq_ok_iff.2 ⟨u, hloop, hstep⟩⟩

/-- **When a loop leaves its tables.** -/
theorem loop_outside_iff (h : Fills n body P query good) (hs : P s) :
    loop count body s = .error .outside ↔ n < count ∧ (∀ i < n, good i) ∧ query n := by
  rw [loop_eq_error_iff]
  constructor
  · rintro ⟨k, hk, t, hloop, hbody⟩
    obtain ⟨hquery, hge⟩ := (h t k (h.loop_keeps hs hloop)).outside_iff.1 hbody
    obtain ⟨hle, hgood⟩ := (h.loop_ok_iff hs).1 ⟨t, hloop⟩
    obtain rfl := Nat.le_antisymm hle hge
    exact ⟨hk, hgood, hquery⟩
  · rintro ⟨hlt, hgood, hquery⟩
    obtain ⟨t, hloop⟩ := (h.loop_ok_iff hs).2 ⟨Nat.le_refl n, hgood⟩
    exact ⟨n, hlt, t, hloop, (h t n (h.loop_keeps hs hloop)).outside_iff.2 ⟨hquery, Nat.le_refl n⟩⟩

end Fills

end Table
