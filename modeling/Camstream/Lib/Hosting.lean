import Mathlib.Data.Fintype.Basic
import Camstream.Lib.Run

/-!
# Tables of machines

A host keeps machines in places. A machine is started in an empty place, called there, and stopped by a
last call, after which the place is empty again. The calls of the places interleave as they like.

`lives` takes such a run apart: what happened in one place is a list of lives, each of them a machine with
the calls it got. `accounts_of_exec` is the theorem about it: every life is a run of the machine alone, and
what is in the place is what the newest life has come to. So a statement about all runs of one machine
holds of every machine in the table, whatever its neighbours do.
-/

namespace Hosting

variable {ι σ ε : Type*}

/-- What happens to a table. -/
inductive Event (ι σ ε : Type*)
  | start (i : ι) (s : σ)
  | call (i : ι) (e : ε)
  | stop (i : ι) (e : ε)

/-- The place an event is about. -/
def Event.place : Event ι σ ε → ι
  | start i _ => i
  | call i _ => i
  | stop i _ => i

/-- Whether an event starts a machine. -/
def Event.isStart : Event ι σ ε → Bool
  | start _ _ => true
  | _ => false

/-- The life of a machine: how it started, its calls, and the last one once it is stopped. -/
structure Life (σ ε : Type*) where
  first : σ
  calls : List ε
  last : Option ε

/-- All calls of a life. -/
def Life.events (life : Life σ ε) : List ε :=
  life.calls ++ life.last.toList

/-- A life as events of its place. -/
def Life.trace (i : ι) (life : Life σ ε) : List (Event ι σ ε) :=
  .start i life.first :: (life.calls.map (.call i) ++ life.last.toList.map (.stop i))

/-- The newest life goes on. -/
def extend (e : ε) : List (Life σ ε) → List (Life σ ε)
  | [] => []
  | life :: older => { life with calls := life.calls ++ [e] } :: older

/-- The newest life ends. -/
def finish (e : ε) : List (Life σ ε) → List (Life σ ε)
  | [] => []
  | life :: older => { life with last := some e } :: older

/-- What an event adds to the lives of its place. -/
def Event.recordHere (lives : List (Life σ ε)) : Event ι σ ε → List (Life σ ε)
  | start _ s => ⟨s, [], none⟩ :: lives
  | call _ e => extend e lives
  | stop _ e => finish e lives

section Table

variable [DecidableEq ι] (step : σ → ε → Option σ)

/-- One event. -/
def hostStep (table : ι → Option σ) : Event ι σ ε → Option (ι → Option σ)
  | .start i s => if (table i).isSome then none else some (Function.update table i (some s))
  | .call i e => (table i).bind fun s ↦ (step s e).map fun s' ↦ Function.update table i (some s')
  | .stop i e => (table i).bind fun s ↦ (step s e).map fun _ ↦ Function.update table i none

/-- What an event adds to the lives of a place, the newest first. -/
def record (i : ι) (lives : List (Life σ ε)) (e : Event ι σ ε) : List (Life σ ε) :=
  if e.place = i then e.recordHere lives else lives

/-- The lives of a place in a run from the empty table, the newest first. -/
def lives (i : ι) (es : List (Event ι σ ε)) : List (Life σ ε) :=
  es.foldl (record i) []

/-- The newest event happens in the newest life. -/
theorem lives_snoc (i : ι) (es : List (Event ι σ ε)) (e : Event ι σ ε) :
    lives i (es ++ [e]) = record i (lives i es) e :=
  List.foldl_append

variable {step}

/-! ### What an event can do -/

/-- **What an event does**: a machine comes into an empty place, or the machine of the place makes a step
and stays or leaves. -/
theorem hostStep_eq_some {table table' : ι → Option σ} {e : Event ι σ ε} :
    hostStep step table e = some table' ↔
      match e with
      | .start i s => table i = none ∧ Function.update table i (some s) = table'
      | .call i e => ∃ s s', table i = some s ∧ step s e = some s' ∧
          Function.update table i (some s') = table'
      | .stop i e => ∃ s s', table i = some s ∧ step s e = some s' ∧
          Function.update table i none = table' := by
  cases e with
  | start i s =>
    rw [hostStep]
    rcases h : table i with - | t <;> simp [h]
  | call i e =>
    simp only [hostStep, Option.bind_eq_some_iff, Option.map_eq_some_iff, exists_and_left]
  | stop i e =>
    simp only [hostStep, Option.bind_eq_some_iff, Option.map_eq_some_iff, exists_and_left]

/-- **The frame rule.** An event leaves the other places alone. -/
theorem hostStep_of_ne {table table' : ι → Option σ} {e : Event ι σ ε}
    (h : hostStep step table e = some table') {i : ι} (hi : i ≠ e.place) : table' i = table i := by
  have h := hostStep_eq_some.1 h
  cases e with
  | start j s =>
    obtain ⟨-, rfl⟩ := h
    exact Function.update_of_ne hi _ _
  | call j e =>
    obtain ⟨s, s', -, -, rfl⟩ := h
    exact Function.update_of_ne hi _ _
  | stop j e =>
    obtain ⟨s, s', -, -, rfl⟩ := h
    exact Function.update_of_ne hi _ _

/-- What a machine can do, another one that is allowed more can do too. -/
theorem exec_hostStep_mono {step' : σ → ε → Option σ}
    (hmono : ∀ s e s', step s e = some s' → step' s e = some s') {es : List (Event ι σ ε)}
    {table table' : ι → Option σ} (h : Run.exec (hostStep step) table es = some table') :
    Run.exec (hostStep step') table es = some table' := by
  refine Run.exec_mono (fun t e t' ht ↦ ?_) h
  have ht := hostStep_eq_some.1 ht
  refine hostStep_eq_some.2 ?_
  cases e with
  | start i s => exact ht
  | call i e =>
    obtain ⟨s, s', hs, hs', rfl⟩ := ht
    exact ⟨s, s', hs, hmono s e s' hs', rfl⟩
  | stop i e =>
    obtain ⟨s, s', hs, hs', rfl⟩ := ht
    exact ⟨s, s', hs, hmono s e s' hs', rfl⟩

/-! ### Loops over the places -/

/-- A loop whose passes work on one place each does the same to every place it comes to. -/
theorem foldl_places {τ α : Type*} {get : τ → ι → α} {f : τ → ι → τ} {g : ι → α → α}
    (hf : ∀ t i j, get (f t i) j = if j = i then g i (get t j) else get t j) {l : List ι} (hl : l.Nodup)
    (t : τ) (j : ι) : get (l.foldl f t) j = if j ∈ l then g j (get t j) else get t j := by
  induction l generalizing t with
  | nil => rw [List.foldl_nil, if_neg List.not_mem_nil]
  | cons i l ih =>
    obtain ⟨hi, hl⟩ := List.nodup_cons.1 hl
    rw [List.foldl_cons, ih hl, hf]
    rcases eq_or_ne j i with rfl | hne
    · rw [if_neg hi, if_pos rfl, if_pos List.mem_cons_self]
    · rw [if_neg hne]
      refine if_congr ?_ rfl rfl
      rw [List.mem_cons, or_iff_right hne]

/-! ### Lives -/

/-- What the newest life has come to, if it has not ended. -/
def content (step : σ → ε → Option σ) : List (Life σ ε) → Option σ
  | [] => none
  | life :: _ => if life.last.isSome then none else Run.exec step life.first life.calls

/-- The lives of a place account for what is in it: each of them is a run, all but the newest have ended,
and the newest is where the machine in the place comes from. -/
structure Accounts (step : σ → ε → Option σ) (lives : List (Life σ ε)) (here : Option σ) : Prop where
  runs : ∀ life ∈ lives, ∃ s, Run.exec step life.first life.events = some s
  ended : ∀ life ∈ lives.tail, life.last.isSome
  here_eq : here = content step lives

theorem Accounts.exists_of_some {lives : List (Life σ ε)} {s : σ}
    (h : Accounts step lives (some s)) :
    ∃ life older, lives = life :: older ∧ life.last = none ∧
      Run.exec step life.first life.calls = some s := by
  have hhere := h.here_eq
  rcases lives with - | ⟨life, older⟩
  · exact absurd hhere (Option.some_ne_none s)
  · rcases hlast : life.last with - | e
    · simp only [content, hlast, Option.isSome_none, Bool.false_eq_true, if_false] at hhere
      exact ⟨life, older, rfl, hlast, hhere.symm⟩
    · simp only [content, hlast, Option.isSome_some, if_true] at hhere
      exact absurd hhere (Option.some_ne_none s)

/-- All lives of an empty place have ended. -/
theorem Accounts.ended_of_none {lives : List (Life σ ε)} (h : Accounts step lives none) :
    ∀ life ∈ lives, life.last.isSome := by
  have hhere := h.here_eq
  rcases lives with - | ⟨life, older⟩
  · exact fun _ hlife ↦ absurd hlife List.not_mem_nil
  · intro life' hlife
    rcases List.mem_cons.1 hlife with rfl | hlife
    · rcases hlast : life'.last with - | e
      · obtain ⟨s, hs⟩ := h.runs life' List.mem_cons_self
        simp only [content, hlast, Option.isSome_none, Bool.false_eq_true, if_false] at hhere
        rw [Life.events, hlast, Option.toList_none, List.append_nil, ← hhere] at hs
        exact absurd hs.symm (Option.some_ne_none s)
      · rfl
    · exact h.ended life' hlife

/-- One event keeps the account. -/
theorem Accounts.record {table table' : ι → Option σ} {e : Event ι σ ε} {i : ι}
    {lives : List (Life σ ε)} (h : Accounts step lives (table i))
    (hstep : hostStep step table e = some table') :
    Accounts step (record i lives e) (table' i) := by
  -- An event elsewhere changes neither this place nor its lives.
  rcases eq_or_ne e.place i with hi | hi
  swap
  · rw [hostStep_of_ne hstep hi.symm, Hosting.record, if_neg hi]
    exact h
  have hstep := hostStep_eq_some.1 hstep
  rw [Hosting.record, if_pos hi]
  cases e with
  | start j s =>
    obtain rfl : j = i := hi
    obtain ⟨hnone, rfl⟩ := hstep
    rw [hnone] at h
    rw [Function.update_self]
    refine ⟨fun life hlife ↦ ?_, h.ended_of_none, rfl⟩
    rcases List.mem_cons.1 hlife with rfl | hlife
    · exact ⟨s, rfl⟩
    · exact h.runs life hlife
  | call j e =>
    obtain rfl : j = i := hi
    obtain ⟨s, s', hs, hs', rfl⟩ := hstep
    rw [hs] at h
    obtain ⟨life, older, rfl, hlast, hrun⟩ := h.exists_of_some
    have hrun' := Run.exec_snoc hrun hs'
    rw [Function.update_self]
    refine ⟨fun life' hlife ↦ ?_, h.ended, ?_⟩
    · rcases List.mem_cons.1 hlife with rfl | hlife
      · refine ⟨s', ?_⟩
        rw [Life.events, hlast, Option.toList_none, List.append_nil]
        exact hrun'
      · exact h.runs life' (List.mem_cons_of_mem _ hlife)
    · simp only [Event.recordHere, extend, content, hlast, Option.isSome_none, Bool.false_eq_true,
        if_false]
      exact hrun'.symm
  | stop j e =>
    obtain rfl : j = i := hi
    obtain ⟨s, s', hs, hs', rfl⟩ := hstep
    rw [hs] at h
    obtain ⟨life, older, rfl, hlast, hrun⟩ := h.exists_of_some
    rw [Function.update_self]
    refine ⟨fun life' hlife ↦ ?_, h.ended, ?_⟩
    · rcases List.mem_cons.1 hlife with rfl | hlife
      · exact ⟨s', Run.exec_snoc hrun hs'⟩
      · exact h.runs life' (List.mem_cons_of_mem _ hlife)
    · simp only [Event.recordHere, finish, content, Option.isSome_some, if_true]

/-- **A table is the machines that were started in it.** What happened in a place is a list of lives, and
they account for what is in the place. -/
theorem accounts_of_exec {es : List (Event ι σ ε)} {table : ι → Option σ}
    (h : Run.exec (hostStep step) (fun _ ↦ none) es = some table) (i : ι) :
    Accounts step (lives i es) (table i) := by
  induction es using List.reverseRecOn generalizing table with
  | nil =>
    obtain rfl := Option.some.inj h
    exact ⟨fun _ hlife ↦ absurd hlife List.not_mem_nil, fun _ hlife ↦ absurd hlife List.not_mem_nil, rfl⟩
  | append_singleton es e ih =>
    obtain ⟨t, ht, he⟩ := Run.exists_of_exec_snoc h
    rw [lives_snoc]
    exact (ih ht).record he

/-- **Nothing is lost**: the lives of a place, the oldest first, are all that happened there. So a machine
gets no call before it is started, and none after its last one. -/
theorem flatMap_trace_lives {es : List (Event ι σ ε)} {table : ι → Option σ}
    (h : Run.exec (hostStep step) (fun _ ↦ none) es = some table) (i : ι) :
    (lives i es).reverse.flatMap (Life.trace i) = es.filter fun e ↦ e.place = i := by
  induction es using List.reverseRecOn generalizing table with
  | nil => rfl
  | append_singleton es e ih =>
    obtain ⟨t, ht, he⟩ := Run.exists_of_exec_snoc h
    rw [lives_snoc, record, List.filter_append, ← ih ht]
    -- The newest event is the last one of the newest life, if it happens here.
    split_ifs with hi
    swap
    · rw [List.filter_singleton, decide_eq_false hi]
      exact (List.append_nil _).symm
    rw [List.filter_singleton, decide_eq_true hi]
    have haccounts := accounts_of_exec ht i
    have he := hostStep_eq_some.1 he
    cases e with
    | start j s =>
      obtain rfl : j = i := hi
      rw [Event.recordHere, List.reverse_cons, List.flatMap_append]
      rfl
    | call j e =>
      obtain rfl : j = i := hi
      obtain ⟨s, s', hs, -, -⟩ := he
      obtain ⟨life, older, hlives, hlast, -⟩ := (hs ▸ haccounts).exists_of_some
      rw [hlives, Event.recordHere, extend, List.reverse_cons, List.reverse_cons, List.flatMap_append,
        List.flatMap_append, List.append_assoc]
      simp [Life.trace, hlast]
    | stop j e =>
      obtain rfl : j = i := hi
      obtain ⟨s, s', hs, -, -⟩ := he
      obtain ⟨life, older, hlives, hlast, -⟩ := (hs ▸ haccounts).exists_of_some
      rw [hlives, Event.recordHere, finish, List.reverse_cons, List.reverse_cons, List.flatMap_append,
        List.flatMap_append, List.append_assoc]
      simp [Life.trace, hlast]

/-- Where the parts of a life come from. -/
theorem mem_of_mem_lives {i : ι} {es : List (Event ι σ ε)} {life : Life σ ε} (h : life ∈ lives i es) :
    .start i life.first ∈ es ∧ (∀ e ∈ life.calls, .call i e ∈ es) ∧
      ∀ e ∈ life.last, .stop i e ∈ es := by
  induction es using List.reverseRecOn generalizing life with
  | nil => exact absurd h List.not_mem_nil
  | append_singleton es e ih =>
    -- What was recorded before is still there.
    have hold : ∀ life ∈ lives i es, .start i life.first ∈ es ++ [e] ∧
        (∀ e' ∈ life.calls, .call i e' ∈ es ++ [e]) ∧ ∀ e' ∈ life.last, .stop i e' ∈ es ++ [e] :=
      fun life hlife ↦ ⟨List.mem_append_left _ (ih hlife).1,
        fun e' he ↦ List.mem_append_left _ ((ih hlife).2.1 e' he),
        fun e' he ↦ List.mem_append_left _ ((ih hlife).2.2 e' he)⟩
    have hlast : e ∈ es ++ [e] := List.mem_append_right _ (List.mem_singleton_self e)
    rw [lives_snoc, record] at h
    split_ifs at h with hi
    swap
    · exact hold life h
    cases e with
    | start j s =>
      obtain rfl : j = i := hi
      rcases List.mem_cons.1 h with rfl | h
      · exact ⟨hlast, fun _ he ↦ absurd he List.not_mem_nil, fun _ he ↦ absurd he (Option.not_mem_none _)⟩
      · exact hold life h
    | call j e =>
      obtain rfl : j = i := hi
      rcases hlives : lives j es with - | ⟨newest, older⟩
      · rw [hlives] at h
        exact absurd h List.not_mem_nil
      · rw [hlives] at h hold
        rcases List.mem_cons.1 h with rfl | h
        · obtain ⟨hstart, hcalls, hstop⟩ := hold newest List.mem_cons_self
          refine ⟨hstart, fun e' he ↦ ?_, hstop⟩
          rcases List.mem_append.1 he with he | he
          · exact hcalls e' he
          · exact List.mem_singleton.1 he ▸ hlast
        · exact hold life (List.mem_cons_of_mem _ h)
    | stop j e =>
      obtain rfl : j = i := hi
      rcases hlives : lives j es with - | ⟨newest, older⟩
      · rw [hlives] at h
        exact absurd h List.not_mem_nil
      · rw [hlives] at h hold
        rcases List.mem_cons.1 h with rfl | h
        · obtain ⟨hstart, hcalls, -⟩ := hold newest List.mem_cons_self
          exact ⟨hstart, hcalls, fun e' he ↦ Option.some.inj he ▸ hlast⟩
        · exact hold life (List.mem_cons_of_mem _ h)

/-- **Every start is a life**: the lives of all places are as many as the machines that were started. -/
theorem length_flatMap_lives {places : List ι} (hnodup : places.Nodup) (hall : ∀ i, i ∈ places)
    (es : List (Event ι σ ε)) :
    (places.flatMap fun i ↦ lives i es).length = es.countP Event.isStart := by
  induction es using List.reverseRecOn with
  | nil => exact congrArg List.length (List.flatMap_eq_nil_iff.2 fun _ _ ↦ rfl)
  | append_singleton es e ih =>
    rw [List.countP_append, List.countP_singleton, ← ih]
    have hrecord (lives : List (Life σ ε)) :
        (e.recordHere lives).length = lives.length + if e.isStart then 1 else 0 := by
      cases e with
      | start i s => rfl
      | call i e => cases lives <;> rfl
      | stop i e => cases lives <;> rfl
    have hplace := hall e.place
    clear ih hall
    -- Only the place of the newest event has got a life more; the others are counted as before.
    induction places with
    | nil => exact absurd hplace List.not_mem_nil
    | cons i places ih =>
      obtain ⟨hi, hnodup⟩ := List.nodup_cons.1 hnodup
      rw [List.flatMap_cons, List.flatMap_cons, List.length_append, List.length_append, lives_snoc, record]
      rcases eq_or_ne e.place i with rfl | hne
      · have hrest : (places.flatMap fun j ↦ lives j (es ++ [e])) = places.flatMap fun j ↦ lives j es := by
          refine List.flatMap_congr fun j hj ↦ ?_
          have hne : e.place ≠ j := fun h ↦ hi (h.symm ▸ hj)
          rw [lives_snoc, record, if_neg hne]
        rw [if_pos rfl, hrecord, hrest]
        omega
      · rw [if_neg hne, ih hnodup ((List.mem_cons.1 hplace).resolve_left hne)]
        omega

/-! ### Invariants of a table -/

/-- **The invariant rule for machines in a table.** What holds of every machine that is started and is
preserved by the calls of the run holds of every machine in the table. -/
theorem exec_hosted {P : σ → Prop} {es : List (Event ι σ ε)} {table table' : ι → Option σ}
    (hstart : ∀ i s, .start i s ∈ es → P s)
    (hcall : ∀ i s e s', .call i e ∈ es → P s → step s e = some s' → P s')
    (h : ∀ i s, table i = some s → P s) (hrun : Run.exec (hostStep step) table es = some table') :
    ∀ i s, table' i = some s → P s := by
  refine Run.exec_invariant_mem (P := fun t ↦ ∀ i s, t i = some s → P s) ?_ h hrun
  intro t e t' he ht hstep i s hs
  rcases eq_or_ne i e.place with hi | hi
  swap
  · exact ht i s ((hostStep_of_ne hstep hi).symm.trans hs)
  -- What is in the place was started there, or called.
  have hstep := hostStep_eq_some.1 hstep
  cases e with
  | start j s' =>
    obtain rfl : i = j := hi
    obtain ⟨-, rfl⟩ := hstep
    rw [Function.update_self] at hs
    exact hstart i s (Option.some.inj hs ▸ he)
  | call j e =>
    obtain rfl : i = j := hi
    obtain ⟨u, u', hu, hu', rfl⟩ := hstep
    rw [Function.update_self] at hs
    exact Option.some.inj hs ▸ hcall i u e u' he (ht i u hu) hu'
  | stop j e =>
    obtain rfl : i = j := hi
    obtain ⟨u, u', -, -, rfl⟩ := hstep
    rw [Function.update_self] at hs
    exact absurd hs.symm (Option.some_ne_none s)

end Table

end Hosting
