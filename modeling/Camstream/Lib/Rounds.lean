import Camstream.Lib.Run

/-!
# A thread that works in rounds

Two threads share a machine. One of them works in rounds: a round reads its input, changes what is private
to the thread, and leaves a script of operations on what is shared, which the thread then performs one by
one. What the other thread does comes anywhere in between.

`exists_of_exec` takes such an interleaving apart. The machine runs as a machine, with the operations merged
into the events of the other thread; the thread works through its rounds as if it were alone; and what it
has performed are the operations of its rounds, in their order, up to those that are still pending.
-/

namespace Rounds

variable {σ κ ε ω ι : Type*}

/-- What is shared, what is private to the thread, and what it has still to perform in this round. -/
structure State (σ κ ω : Type*) where
  shared : σ
  client : κ
  pending : List ω

/-- The other thread does something, or this one performs an operation, or it begins a round. -/
inductive Event (ε ι : Type*)
  | own (e : ε)
  | perform
  | start (i : ι)

/-- What the other thread does. -/
def Event.own? : Event ε ι → Option ε
  | own e => some e
  | _ => none

/-- The input of a round. -/
def Event.input? : Event ε ι → Option ι
  | start i => some i
  | _ => none

/-- The rounds that are begun. -/
def rounds (es : List (Event ε ι)) : List ι := es.filterMap Event.input?

variable (own : σ → ε → Option σ) (op : σ → ω → Option σ) (round : κ → ι → Option (List ω × κ))

/-- One step of either thread. -/
def step (s : State σ κ ω) : Event ε ι → Option (State σ κ ω)
  | .own e => (own s.shared e).map fun shared ↦ { s with shared }
  | .perform =>
    match s.pending with
    | [] => none
    | o :: rest => (op s.shared o).map fun shared ↦ { s with shared, pending := rest }
  | .start i =>
    match s.pending with
    | [] => (round s.client i).map fun r ↦ { s with client := r.2, pending := r.1 }
    | _ :: _ => none

/-- The machine as both threads use it. -/
def either (s : σ) : ε ⊕ ω → Option σ
  | .inl e => own s e
  | .inr o => op s o

/-- The operations of some rounds, one round after the other. -/
def script (k : κ) : List ι → Option (List ω × κ)
  | [] => some ([], k)
  | i :: is => (round k i).bind fun r ↦ (script r.2 is).map fun r' ↦ (r.1 ++ r'.1, r'.2)

variable {own op round}

theorem script_cons {k k' : κ} {i : ι} {is : List ι} {os : List ω} :
    script round k (i :: is) = some (os, k') ↔
      ∃ o t os', round k i = some (o, t) ∧ script round t is = some (os', k') ∧ os = o ++ os' := by
  rw [script]
  constructor
  · intro h
    obtain ⟨⟨o, t⟩, hround, h⟩ := Option.bind_eq_some_iff.1 h
    obtain ⟨⟨os', t'⟩, hscript, heq⟩ := Option.map_eq_some_iff.1 h
    obtain ⟨rfl, rfl⟩ := Prod.mk.inj heq
    exact ⟨o, t, os', hround, hscript, rfl⟩
  · rintro ⟨o, t, os', hround, hscript, rfl⟩
    exact Option.bind_eq_some_iff.2 ⟨_, hround, Option.map_eq_some_iff.2 ⟨_, hscript, rfl⟩⟩

/-- The rounds change what is private to the thread as if there were no operations. -/
theorem exec_of_script {k k' : κ} {is : List ι} {os : List ω} (h : script round k is = some (os, k')) :
    Run.exec (fun k i ↦ (round k i).map Prod.snd) k is = some k' := by
  induction is generalizing k os with
  | nil =>
    obtain ⟨-, rfl⟩ := Prod.mk.inj (Option.some.inj h)
    rfl
  | cons i is ih =>
    obtain ⟨o, t, os', hround, hscript, -⟩ := script_cons.1 h
    exact Run.exec_cons_of_step (Option.map_eq_some_iff.2 ⟨_, hround, rfl⟩) (ih hscript)

/-- The script of a sequence of rounds, part by part. -/
theorem flatMap_of_script {β : Type*} {f : List ω → List β} {g : ι → List β}
    (hnil : f [] = []) (happend : ∀ os os', f (os ++ os') = f os ++ f os')
    (hround : ∀ k i o k', round k i = some (o, k') → f o = g i) {k k' : κ} {is : List ι} {os : List ω}
    (h : script round k is = some (os, k')) : f os = is.flatMap g := by
  induction is generalizing k os with
  | nil =>
    obtain ⟨rfl, -⟩ := Prod.mk.inj (Option.some.inj h)
    exact hnil
  | cons i is ih =>
    obtain ⟨o, t, os', hr, hscript, rfl⟩ := script_cons.1 h
    rw [happend, hround _ _ _ _ hr, ih hscript, List.flatMap_cons]

/-- **An interleaving taken apart.** -/
theorem exists_of_exec {s s' : State σ κ ω} {es : List (Event ε ι)}
    (h : Run.exec (step own op round) s es = some s') :
    ∃ moves os, Run.exec (either own op) s.shared moves = some s'.shared ∧
      moves.filterMap Sum.getLeft? = es.filterMap Event.own? ∧
      script round s.client (rounds es) = some (os, s'.client) ∧
      s.pending ++ os = moves.filterMap Sum.getRight? ++ s'.pending := by
  induction es generalizing s with
  | nil =>
    obtain rfl := Option.some.inj h
    exact ⟨[], [], rfl, rfl, rfl, List.append_nil _⟩
  | cons e es ih =>
    rw [Run.exec_cons] at h
    obtain ⟨t, ht, h⟩ := Option.bind_eq_some_iff.1 h
    obtain ⟨moves, os, hmoves, hown, hscript, hos⟩ := ih h
    cases e with
    | own e =>
      obtain ⟨shared, hshared, rfl⟩ := Option.map_eq_some_iff.1 ht
      exact ⟨.inl e :: moves, os, Run.exec_cons_of_step hshared hmoves, congrArg (e :: ·) hown, hscript,
        hos⟩
    | perform =>
      rw [step] at ht
      rcases hpending : s.pending with - | ⟨o, rest⟩
      · rw [hpending] at ht
        exact absurd ht.symm (Option.some_ne_none t)
      · rw [hpending] at ht
        obtain ⟨shared, hshared, rfl⟩ := Option.map_eq_some_iff.1 ht
        exact ⟨.inr o :: moves, os, Run.exec_cons_of_step hshared hmoves, hown, hscript,
          congrArg (o :: ·) hos⟩
    | start i =>
      rw [step] at ht
      rcases hpending : s.pending with - | ⟨o, rest⟩
      · rw [hpending] at ht
        obtain ⟨⟨o, k⟩, hround, rfl⟩ := Option.map_eq_some_iff.1 ht
        exact ⟨moves, o ++ os, hmoves, hown, script_cons.2 ⟨o, k, os, hround, hscript, rfl⟩, hos⟩
      · rw [hpending] at ht
        exact absurd ht.symm (Option.some_ne_none t)

end Rounds
