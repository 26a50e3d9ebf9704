import Mathlib.Data.List.Induction
import Mathlib.Order.Basic

/-!
# Runs of state machines

A machine has a step `σ → ε → Option σ`: an event is either impossible in a state or leads to one next
state. `exec` runs a list of events and fails as soon as one of them is impossible, so that "for every
run" is "for every list of events that `exec` accepts". The induction over runs is stated once, as
`exec_invariant`.
-/

namespace Run

variable {σ ε : Type*}

/-- Run a list of events, each of which has to be possible where it happens. -/
def exec (step : σ → ε → Option σ) (s : σ) (es : List ε) : Option σ :=
  es.foldlM step s

variable {step : σ → ε → Option σ}

@[simp] theorem exec_nil (s : σ) : exec step s [] = some s := rfl

theorem exec_cons (s : σ) (e : ε) (es : List ε) :
    exec step s (e :: es) = (step s e).bind fun s ↦ exec step s es :=
  List.foldlM_cons

/-- Runs compose. -/
theorem exec_append {es es' : List ε} {s s' s'' : σ} (h : exec step s es = some s')
    (h' : exec step s' es' = some s'') : exec step s (es ++ es') = some s'' := by
  induction es generalizing s with
  | nil =>
    obtain rfl := Option.some.inj h
    exact h'
  | cons e es ih =>
    rw [exec_cons] at h
    obtain ⟨t, ht, h⟩ := Option.bind_eq_some_iff.1 h
    rw [List.cons_append, exec_cons, ht]
    exact ih h

/-- A run can be cut anywhere. -/
theorem exists_of_exec_append {es es' : List ε} {s s'' : σ}
    (h : exec step s (es ++ es') = some s'') :
    ∃ s', exec step s es = some s' ∧ exec step s' es' = some s'' := by
  rw [exec, List.foldlM_append] at h
  exact Option.bind_eq_some_iff.1 h

/-- A run begins with a step. -/
theorem exec_cons_of_step {es : List ε} {e : ε} {s s' s'' : σ} (h : step s e = some s')
    (h' : exec step s' es = some s'') : exec step s (e :: es) = some s'' := by
  rw [exec_cons, h]
  exact h'

/-- A run goes on with one more step. -/
theorem exec_snoc {es : List ε} {e : ε} {s s' s'' : σ} (h : exec step s es = some s')
    (h' : step s' e = some s'') : exec step s (es ++ [e]) = some s'' :=
  exec_append h (exec_cons_of_step h' rfl)

/-- The last step of a run. -/
theorem exists_of_exec_snoc {es : List ε} {e : ε} {s s'' : σ} (h : exec step s (es ++ [e]) = some s'') :
    ∃ s', exec step s es = some s' ∧ step s' e = some s'' := by
  obtain ⟨s', hs', he⟩ := exists_of_exec_append h
  rw [exec_cons] at he
  obtain ⟨t, ht, h⟩ := Option.bind_eq_some_iff.1 he
  obtain rfl := Option.some.inj h
  exact ⟨s', hs', ht⟩

/-- A machine that carries more state runs as the machine it is projected to. -/
theorem exec_map {τ : Type*} {step' : τ → ε → Option τ} {f : τ → σ}
    (h : ∀ c e, (step' c e).map f = step (f c) e) (c : τ) (es : List ε) :
    (exec step' c es).map f = exec step (f c) es := by
  induction es generalizing c with
  | nil => rfl
  | cons e es ih =>
    rw [exec_cons, exec_cons, ← h]
    cases step' c e with
    | none => rfl
    | some c' => exact ih c'

/-- Two machines that take the events in the same way run them in the same way. -/
theorem exec_congr {step' : σ → ε → Option σ} {es : List ε} (h : ∀ e ∈ es, ∀ s, step s e = step' s e) (s : σ) :
    exec step s es = exec step' s es := by
  induction es generalizing s with
  | nil => rfl
  | cons e es ih =>
    rw [exec_cons, exec_cons, h e List.mem_cons_self]
    exact Option.bind_congr fun t _ ↦ ih (fun e he ↦ h e (List.mem_cons_of_mem _ he)) t

/-- What a machine can do, another one that is allowed more can do too. -/
theorem exec_mono {step' : σ → ε → Option σ} (h : ∀ s e s', step s e = some s' → step' s e = some s')
    {es : List ε} {s s' : σ} (hrun : exec step s es = some s') : exec step' s es = some s' := by
  induction es generalizing s with
  | nil => exact hrun
  | cons e es ih =>
    rw [exec_cons] at hrun
    obtain ⟨t, ht, hrun⟩ := Option.bind_eq_some_iff.1 hrun
    exact exec_cons_of_step (h s e t ht) (ih hrun)

/-- A machine that none of the events stops. -/
theorem exists_exec {es : List ε} (h : ∀ e ∈ es, ∀ s, ∃ s', step s e = some s') (s : σ) :
    ∃ s', exec step s es = some s' := by
  induction es generalizing s with
  | nil => exact ⟨s, rfl⟩
  | cons e es ih =>
    obtain ⟨t, ht⟩ := h e List.mem_cons_self s
    obtain ⟨s', hs'⟩ := ih (fun e he ↦ h e (List.mem_cons_of_mem _ he)) t
    exact ⟨s', exec_cons_of_step ht hs'⟩

/-- An event that is never possible stops every run. -/
theorem exec_eq_none {es : List ε} {e : ε} (he : e ∈ es) (h : ∀ s, step s e = none) (s : σ) :
    exec step s es = none := by
  obtain ⟨before, after, rfl⟩ := List.append_of_mem he
  rcases hrun : exec step s (before ++ e :: after) with - | s'
  · rfl
  · obtain ⟨t, -, ht⟩ := exists_of_exec_append hrun
    rw [exec_cons, h] at ht
    exact absurd ht.symm (Option.some_ne_none s')

/-- The invariant rule for the beginnings of one run. -/
theorem exec_invariant_prefix {P : σ → Prop} {s : σ} {es : List ε} (hs : P s)
    (hstep : ∀ es' e t t', es' ++ [e] <+: es → exec step s es' = some t → P t →
      step t e = some t' → P t') {es' : List ε} {s' : σ} (hes : es' <+: es)
    (hrun : exec step s es' = some s') : P s' := by
  induction es' using List.reverseRecOn generalizing s' with
  | nil =>
    obtain rfl := Option.some.inj hrun
    exact hs
  | append_singleton es' e ih =>
    obtain ⟨t, ht, he⟩ := exists_of_exec_snoc hrun
    exact hstep es' e t s' hes ht (ih ((List.prefix_append es' [e]).trans hes) ht) he

/-- The invariant rule for the events of one run. -/
theorem exec_invariant_mem {P : σ → Prop} {es : List ε}
    (hstep : ∀ s e s', e ∈ es → P s → step s e = some s' → P s') {s s' : σ} (hs : P s)
    (hrun : exec step s es = some s') : P s' := by
  induction es generalizing s with
  | nil =>
    obtain rfl := Option.some.inj hrun
    exact hs
  | cons e es ih =>
    rw [exec_cons] at hrun
    obtain ⟨t, ht, hrun⟩ := Option.bind_eq_some_iff.1 hrun
    have ht : P t := hstep s e t List.mem_cons_self hs ht
    exact ih (fun s e s' he ↦ hstep s e s' (List.mem_cons_of_mem _ he)) ht hrun

/-- **The invariant rule.** What every step preserves, every run preserves. -/
theorem exec_invariant {P : σ → Prop} (hstep : ∀ s e s', P s → step s e = some s' → P s')
    {es : List ε} {s s' : σ} (hs : P s) (hrun : exec step s es = some s') : P s' :=
  exec_invariant_mem (fun s e s' _ ↦ hstep s e s') hs hrun

end Run
