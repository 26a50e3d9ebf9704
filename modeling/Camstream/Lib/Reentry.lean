import Camstream.Lib.Run

/-!
# Functions that are called back into

A function that calls itself through the callbacks of a library is the fixed point of a functional on partial
functions. `depth F n` is the function with room for `n` activations on the stack: `none` is a call that needs
more. More room does not change a result (`depth_mono`), as long as the functional uses what it is given by
calling it; `extends_exec` is the rule for a list of callbacks.
-/

namespace Reentry

variable {σ ε : Type*}

/-- `g` has the results of `f`, and perhaps more. -/
def Extends (g f : σ → Option σ) : Prop :=
  ∀ s t, f s = some t → g s = some t

/-- The function with room for so many activations. -/
def depth (F : (σ → Option σ) → σ → Option σ) : ℕ → σ → Option σ
  | 0, _ => none
  | n + 1, s => F (depth F n) s

/-- A functional that has more results when it is given more. -/
def Monotone (F : (σ → Option σ) → σ → Option σ) : Prop :=
  ∀ g f, Extends g f → Extends (F g) (F f)

theorem Extends.refl (f : σ → Option σ) : Extends f f :=
  fun _ _ h ↦ h

/-- One thing after another. -/
theorem extends_bind {f f' g g' : σ → Option σ} (hf : Extends f' f) (hg : Extends g' g) :
    Extends (fun s ↦ (f' s).bind g') (fun s ↦ (f s).bind g) := by
  intro s t h
  obtain ⟨u, hu, ht⟩ := Option.bind_eq_some_iff.1 h
  exact Option.bind_eq_some_iff.2 ⟨u, hf s u hu, hg u t ht⟩

/-- A list of callbacks. -/
theorem extends_exec {f g : σ → ε → Option σ} (h : ∀ e, Extends (fun s ↦ g s e) (fun s ↦ f s e))
    (es : List ε) : Extends (fun s ↦ Run.exec g s es) (fun s ↦ Run.exec f s es) := by
  induction es with
  | nil => exact Extends.refl _
  | cons e es ih =>
    intro s t hs
    dsimp only at hs ⊢
    rw [Run.exec_cons] at hs ⊢
    exact extends_bind (h e) ih s t hs

/-- **More room does not change a result.** -/
theorem depth_mono {F : (σ → Option σ) → σ → Option σ} (hF : Monotone F) {m n : ℕ} (h : m ≤ n) :
    Extends (depth F n) (depth F m) := by
  induction m generalizing n with
  | zero => exact fun _ _ hs ↦ absurd hs.symm (Option.some_ne_none _)
  | succ m ih =>
    obtain ⟨n, rfl⟩ := Nat.exists_eq_succ_of_ne_zero (Nat.ne_of_gt (Nat.lt_of_lt_of_le m.succ_pos h))
    exact hF _ _ (ih (Nat.le_of_succ_le_succ h))

end Reentry
