import Camstream.Libpeer.Closing

/-!
# The life cycle over libpeer

`RTC_CLOSED` is final, `on_closed` is called once and `rtc_session_close` comes back exactly for a libpeer that
delivers nothing live behind the end of a connection, and no end of a connection from inside
`peer_connection_close`: `lifecycle_iff` says so for every run, step by step.
-/

namespace Camstream.Libpeer

/-! ### The condition -/

/-- Every call of the run returns, and in all that follows a closed session is closed and was reported once. -/
def Lifecycle (closing : ℕ → List PeerCallback) (session : RtcSession) (events : List PeerEvent) : Prop :=
  ∃ depth session', Run.exec (peerStep closing depth) session events = some session' ∧
    Settled session'.log ∧ (.state .closed ∈ session'.log → session'.state = .closed)

/-- A tick closes an open session: libpeer ends the connection, or the state that it leaves the session in has
timed out. -/
def TickCloses (session : RtcSession) (now : UInt64) (callbacks : List PeerCallback) : Prop :=
  let state := callbacks.foldl (fun state cb ↦ cb.puts.getD state) session.state
  let lastRxMs := callbacks.foldl (fun ms cb ↦ cb.rxMs?.getD ms) session.lastRxMs
  (∃ cb ∈ callbacks, cb.ends = true) ∨ idleTimeout state lastRxMs now = true ∨
    dtlsWatchdog state session.createdMs now = true

/-- The condition on one call. -/
def StepOk (closing : ℕ → List PeerCallback) (session : RtcSession) (e : PeerEvent) : Prop :=
  session.state = .closed ∨
    match e with
    | .tick now callbacks => Orderly callbacks ∧
        (TickCloses session now callbacks → QuietClose closing session.onClosed session.closeCalls)
    | .close | .destroy => QuietClose closing session.onClosed session.closeCalls
    | .sendAccessUnit _ _ _ | .requestIdr _ => True

/-- The condition on every call of a run, in the state before it. -/
def StepsOk (closing : ℕ → List PeerCallback) : RtcSession → List PeerEvent → Prop
  | _, [] => True
  | session, e :: events => StepOk closing session e ∧
      ∀ depth session', peerStep closing depth session e = some session' → StepsOk closing session' events

variable {closing : ℕ → List PeerCallback} {s s' t : RtcSession}

/-! ### One call -/

/-- A callback gets further with a deeper stack. -/
theorem extends_callback {f g : RtcSession → Option RtcSession} (h : Reentry.Extends g f)
    (cb : PeerCallback) : Reentry.Extends (fun s ↦ callback g s cb) (fun s ↦ callback f s cb) := by
  intro s t hs
  dsimp only at hs ⊢
  rcases hends : cb.ends with - | -
  · obtain ⟨s', hs', -⟩ := callback_of_not_ends s hends
    rw [hs'] at hs ⊢
    exact hs
  · rw [callback_of_ends _ s hends] at hs ⊢
    exact h s t hs

/-- So does the body of `rtc_session_close`. -/
theorem monotone_rtcSessionCloseBody : Reentry.Monotone (rtcSessionCloseBody closing) := by
  intro g f h s t hs
  rw [rtcSessionCloseBody] at hs ⊢
  split_ifs at hs ⊢ with hclosed hpc
  · exact hs
  · exact Reentry.extends_bind (Reentry.extends_exec (extends_callback h) (closing s.closeCalls))
      (Reentry.Extends.refl _) _ t hs
  · exact hs

/-- What a stack is deep enough for, a deeper one is too, with the same result. -/
theorem mono_rtcSessionClose {m n : ℕ} (h : m ≤ n) :
    Reentry.Extends (rtcSessionClose closing n) (rtcSessionClose closing m) :=
  Reentry.depth_mono monotone_rtcSessionCloseBody h

/-- The end of `rtc_session_tick`, after `peer_connection_loop`. -/
def tickTail (closing : ℕ → List PeerCallback) (depth : ℕ) (now : UInt64) (session : RtcSession) :
    Option RtcSession :=
  if idleTimeout session.state session.lastRxMs now then rtcSessionClose closing depth session
  else if dtlsWatchdog session.state session.createdMs now then rtcSessionClose closing depth session
  else some session

/-- What `rtc_session_tick` does with an open session. -/
theorem rtcSessionTick_of_open {depth : ℕ} {now : UInt64} {cbs : List PeerCallback}
    (hs : s.state ≠ .closed) (hpc : s.pc = true) : rtcSessionTick closing depth s now cbs =
      (Run.exec (callback (rtcSessionClose closing depth)) s cbs).bind (tickTail closing depth now) := by
  rw [rtcSessionTick, if_neg hs, if_pos hpc]
  rfl

theorem extends_tickTail {m n : ℕ} (h : m ≤ n) (now : UInt64) :
    Reentry.Extends (tickTail closing n now) (tickTail closing m now) := by
  intro s t hs
  rw [tickTail] at hs ⊢
  split_ifs at hs ⊢
  · exact mono_rtcSessionClose h s t hs
  · exact mono_rtcSessionClose h s t hs
  · exact hs

/-- More room does not change what a call does. -/
theorem mono_peerStep {m n : ℕ} (h : m ≤ n) {e : PeerEvent} (hs : peerStep closing m s e = some s') :
    peerStep closing n s e = some s' := by
  have hclose : Reentry.Extends (rtcSessionClose closing n) (rtcSessionClose closing m) :=
    mono_rtcSessionClose h
  rcases eq_or_ne s.destroyed true with hdestroyed | hdestroyed
  · rw [peerStep.eq_def, if_pos hdestroyed] at hs ⊢
    exact hs
  rw [peerStep.eq_def, if_neg hdestroyed] at hs ⊢
  -- Only a tick, a close and a destroy go down the stack.
  cases e with
  | tick now callbacks =>
    dsimp only at hs ⊢
    rw [rtcSessionTick] at hs ⊢
    split_ifs at hs ⊢ with hclosed hpc
    · exact hs
    · exact Reentry.extends_bind (Reentry.extends_exec (extends_callback hclose) callbacks)
        (extends_tickTail h now) s s' hs
    · exact extends_tickTail h now s s' hs
  | sendAccessUnit accessUnit isIdr result => exact hs
  | requestIdr now => exact hs
  | close => exact hclose s s' hs
  | destroy =>
    dsimp only at hs ⊢
    rw [rtcSessionDestroy] at hs ⊢
    split_ifs at hs ⊢ with hopen
    · exact Reentry.extends_bind hclose (Reentry.Extends.refl _) s s' hs
    · exact hs

/-- A session in order: it was never closed, or it was closed once. -/
def InOrder (s : RtcSession) : Prop :=
  Fresh s ∨ Done s

theorem InOrder.settled (h : InOrder s) : Settled s.log :=
  h.elim Fresh.settled Done.settled

/-- Destroying a closed session frees libpeer and does nothing else. -/
theorem Done.destroy (h : Done s) : Done { s with pc := false, destroyed := true } :=
  ⟨h.closed, h.marked, h.settled⟩

/-- A call on a closed session changes nothing that matters. -/
theorem Done.exists_peerStep (h : Done s) (e : PeerEvent) :
    ∃ s', peerStep closing 1 s e = some s' ∧ Done s' := by
  rcases eq_or_ne s.destroyed true with hdestroyed | hdestroyed
  · exact ⟨s, by rw [peerStep.eq_def, if_pos hdestroyed], h⟩
  rw [peerStep.eq_def, if_neg hdestroyed]
  cases e with
  | tick now callbacks => exact ⟨s, if_pos h.closed, h⟩
  | sendAccessUnit accessUnit isIdr result =>
    exact ⟨_, rfl, h.talks (talks_rtcSessionSendAccessUnit s accessUnit isIdr result)⟩
  | requestIdr now => exact ⟨_, rfl, h.talks (talks_rtcSessionRequestIdr s now)⟩
  | close => exact ⟨s, rtcSessionClose_of_closed 0 h.closed, h⟩
  | destroy =>
    refine ⟨_, ?_, h.destroy⟩
    dsimp only
    rw [rtcSessionDestroy, if_neg (not_not.2 h.closed)]
    rfl

/-- A session that was closed during the loop has no timeout. -/
theorem tickTail_of_closed (depth : ℕ) (now : UInt64) (h : s.state = .closed) :
    tickTail closing depth now s = some s := by
  have hidle : ¬ idleTimeout s.state s.lastRxMs now = true := by
    rw [h, idleTimeout, Bool.and_eq_true]
    exact fun hidle ↦ absurd hidle.2 (by decide)
  have hwatchdog : ¬ dtlsWatchdog s.state s.createdMs now = true := by
    rw [h, dtlsWatchdog, Bool.and_eq_true]
    exact fun hwatchdog ↦ absurd hwatchdog.1 (by decide)
  rw [tickTail, if_neg hidle, if_neg hwatchdog]

/-- The session has timed out. -/
def TimedOut (s : RtcSession) (now : UInt64) : Prop :=
  idleTimeout s.state s.lastRxMs now = true ∨ dtlsWatchdog s.state s.createdMs now = true

/-- A tick closes a session that has timed out. -/
theorem tickTail_of_timedOut {now : UInt64} (depth : ℕ) (h : TimedOut s now) :
    tickTail closing depth now s = rtcSessionClose closing depth s := by
  rw [tickTail]
  split_ifs with hidle hwatchdog
  · rfl
  · rfl
  · exact absurd h (not_or.2 ⟨hidle, hwatchdog⟩)

theorem tickTail_of_not_timedOut {now : UInt64} (depth : ℕ) (h : ¬ TimedOut s now) :
    tickTail closing depth now s = some s := by
  obtain ⟨hidle, hwatchdog⟩ := not_or.1 h
  rw [tickTail, if_neg hidle, if_neg hwatchdog]

theorem follows_tickTail {depth : ℕ} {now : UInt64} (h : tickTail closing depth now s = some s') :
    Follows s s' := by
  by_cases htimeout : TimedOut s now
  · rw [tickTail_of_timedOut depth htimeout] at h
    exact follows_rtcSessionClose h
  · rw [tickTail_of_not_timedOut depth htimeout] at h
    exact Option.some.inj h ▸ .refl s

/-- The loop of a tick in which the connection does not end. -/
theorem Fresh.loop_of_silent (h : Fresh s) (now : UInt64) {cbs : List PeerCallback}
    (hcbs : ∀ cb ∈ cbs, cb.ends = false) :
    ∃ t, (∀ close, Run.exec (callback close) s cbs = some t) ∧ Fresh t ∧
      (TickCloses s now cbs ↔ TimedOut t now) ∧ t.onClosed = s.onClosed ∧ t.closeCalls = s.closeCalls := by
  obtain ⟨t, ht, hfresh, hstate, hrx, hcreated, honClosed, hcalls⟩ := h.deliver hcbs
  have hnone : ¬ ∃ cb ∈ cbs, cb.ends = true := by
    rintro ⟨cb, hcb, hends⟩
    exact absurd ((hcbs cb hcb).symm.trans hends) Bool.false_ne_true
  refine ⟨t, ht, hfresh, ?_, honClosed, hcalls⟩
  rw [TickCloses, TimedOut, hstate, hrx, hcreated]
  exact or_iff_right hnone

/-- What a call does as long as the session has not been destroyed. -/
theorem Fresh.peerStep_tick (h : Fresh s) (depth : ℕ) (now : UInt64) (cbs : List PeerCallback) :
    peerStep closing depth s (.tick now cbs) =
      (Run.exec (callback (rtcSessionClose closing depth)) s cbs).bind (tickTail closing depth now) := by
  rw [peerStep.eq_def, if_neg (Bool.eq_false_iff.1 h.alive)]
  exact rtcSessionTick_of_open h.isOpen h.pc

theorem Fresh.peerStep_close (h : Fresh s) (depth : ℕ) :
    peerStep closing depth s .close = rtcSessionClose closing depth s :=
  if_neg (Bool.eq_false_iff.1 h.alive)

theorem Fresh.peerStep_destroy (h : Fresh s) (depth : ℕ) :
    peerStep closing depth s .destroy =
      (rtcSessionClose closing depth s).map fun t ↦ { t with pc := false, destroyed := true } := by
  rw [peerStep.eq_def, if_neg (Bool.eq_false_iff.1 h.alive)]
  dsimp only
  rw [rtcSessionDestroy, if_pos h.isOpen]
  exact Option.map_eq_bind.symm

/-- **What is enough for a call to leave a session in order.** -/
theorem Fresh.exists_inOrder (h : Fresh s) {e : PeerEvent} (hok : StepOk closing s e) :
    ∃ depth s', peerStep closing depth s e = some s' ∧ InOrder s' := by
  replace hok := hok.resolve_left h.isOpen
  cases e with
  | tick now cbs =>
    obtain ⟨horderly, hquiet⟩ := hok
    -- The callbacks are cut at the first that ends the session: up to there it stays fresh.
    rcases exists_first_end cbs with hsilent | ⟨before, cb, after, rfl, hbefore, hcb⟩
    · obtain ⟨t, ht, hfresh, hcloses, honClosed, hcalls⟩ := h.loop_of_silent now hsilent
      by_cases htimeout : TimedOut t now
      · obtain ⟨depth, u, hu, hdone⟩ := (hquiet (hcloses.2 htimeout)).exists_done hfresh honClosed hcalls
        refine ⟨depth, u, ?_, .inr hdone⟩
        rw [h.peerStep_tick, ht, Option.bind_some, tickTail_of_timedOut depth htimeout, hu]
      · refine ⟨0, t, ?_, .inl hfresh⟩
        rw [h.peerStep_tick, ht, Option.bind_some, tickTail_of_not_timedOut 0 htimeout]
    · rw [orderly_iff_of_first_end hbefore hcb] at horderly
      have hends : ∃ cb' ∈ before ++ cb :: after, cb'.ends = true :=
        ⟨cb, List.mem_append_right _ List.mem_cons_self, hcb⟩
      obtain ⟨t, ht, hfresh, -, honClosed, hcalls⟩ := h.loop_of_silent now hbefore
      obtain ⟨depth, u, hu, hdone⟩ := (hquiet (.inl hends)).exists_done hfresh honClosed hcalls
      -- It closes there, with the depth that this takes; one level more leaves what comes after alone.
      have hkept : ∀ t : RtcSession, t.state = .closed → rtcSessionClose closing (depth + 1) t = some t :=
        fun _ ↦ rtcSessionClose_of_closed depth
      obtain ⟨v, hv, htalks⟩ := exec_callback_of_closed hkept hdone.closed horderly
      have hdone' : Done v := hdone.talks htalks
      refine ⟨depth + 1, v, ?_, .inr hdone'⟩
      have hcalled := (callback_of_ends _ t hcb).trans (mono_rtcSessionClose depth.le_succ t u hu)
      rw [h.peerStep_tick, Run.exec_append (ht _) (Run.exec_cons_of_step hcalled hv), Option.bind_some,
        tickTail_of_closed _ now hdone'.closed]
  | sendAccessUnit accessUnit isIdr result =>
    exact ⟨0, _, if_neg (Bool.eq_false_iff.1 h.alive),
      .inl (h.talks (talks_rtcSessionSendAccessUnit s accessUnit isIdr result) nofun)⟩
  | requestIdr now =>
    exact ⟨0, _, if_neg (Bool.eq_false_iff.1 h.alive),
      .inl (h.talks (talks_rtcSessionRequestIdr s now) nofun)⟩
  | close =>
    obtain ⟨depth, u, hu, hdone⟩ := hok.exists_done h rfl rfl
    exact ⟨depth, u, (h.peerStep_close depth).trans hu, .inr hdone⟩
  | destroy =>
    obtain ⟨depth, u, hu, hdone⟩ := hok.exists_done h rfl rfl
    refine ⟨depth, _, ?_, .inr hdone.destroy⟩
    rw [h.peerStep_destroy, hu, Option.map_some]

/-- **What is needed for it.** -/
theorem Fresh.stepOk (h : Fresh s) {e : PeerEvent} {depth : ℕ} (hs : peerStep closing depth s e = some s')
    (hsettled : Settled s'.log) : StepOk closing s e := by
  refine .inr ?_
  cases e with
  | tick now cbs =>
    rw [h.peerStep_tick] at hs
    obtain ⟨w, hw, htail⟩ := Option.bind_eq_some_iff.1 hs
    rcases exists_first_end cbs with hsilent | ⟨before, cb, after, rfl, hbefore, hcb⟩
    · obtain ⟨t, ht, hfresh, hcloses, honClosed, hcalls⟩ := h.loop_of_silent now hsilent
      obtain rfl := Option.some.inj ((ht _).symm.trans hw)
      refine ⟨orderly_of_silent hsilent, fun htick ↦ ?_⟩
      rw [tickTail_of_timedOut depth (hcloses.1 htick)] at htail
      rw [← honClosed, ← hcalls]
      exact quietClose_of_settled hfresh htail hsettled
    · obtain ⟨t, ht, hfresh, -, honClosed, hcalls⟩ := h.loop_of_silent now hbefore
      obtain ⟨t', ht', hw⟩ := Run.exists_of_exec_append hw
      obtain rfl := Option.some.inj ((ht _).symm.trans ht')
      rw [Run.exec_cons, callback_of_ends _ t hcb] at hw
      obtain ⟨u, hu, hw⟩ := Option.bind_eq_some_iff.1 hw
      obtain ⟨hclosed, hmarked, -⟩ := hfresh.of_rtcSessionClose hu
      -- The log only grows, so what is settled at the end was settled in between.
      have hlate := hsettled.of_suffix (follows_tickTail htail).log
      have hearly := hlate.of_suffix (follows_exec (fun _ _ ↦ follows_rtcSessionClose) hw).log
      refine ⟨(orderly_iff_of_first_end hbefore hcb).2 ?_, fun _ ↦ ?_⟩
      · exact puts_eq_none_of_settled (fun _ _ ↦ follows_rtcSessionClose)
          (fun _ _ ↦ rtcSessionClose_eq_of_closed) hclosed hmarked hw hlate
      · rw [← honClosed, ← hcalls]
        exact quietClose_of_settled hfresh hu hearly
  | sendAccessUnit | requestIdr => trivial
  | close =>
    rw [h.peerStep_close] at hs
    exact quietClose_of_settled h hs hsettled
  | destroy =>
    rw [h.peerStep_destroy] at hs
    obtain ⟨t, ht, rfl⟩ := Option.map_eq_some_iff.1 hs
    exact quietClose_of_settled h ht hsettled

/-! ### Runs -/

/-- Nothing that happened is forgotten. -/
theorem log_peerStep {depth : ℕ} {e : PeerEvent} (h : peerStep closing depth s e = some s') :
    s.log <:+ s'.log := by
  rcases eq_or_ne s.destroyed true with hdestroyed | hdestroyed
  · rw [peerStep.eq_def, if_pos hdestroyed] at h
    exact Option.some.inj h ▸ List.suffix_rfl
  rw [peerStep.eq_def, if_neg hdestroyed] at h
  cases e with
  | tick now callbacks =>
    dsimp only at h
    rw [rtcSessionTick] at h
    split_ifs at h with hclosed hpc
    · exact Option.some.inj h ▸ List.suffix_rfl
    · obtain ⟨t, ht, htail⟩ := Option.bind_eq_some_iff.1 h
      exact ((follows_exec (fun _ _ ↦ follows_rtcSessionClose) ht).trans (follows_tickTail htail)).log
    · exact (follows_tickTail h).log
  | sendAccessUnit accessUnit isIdr result =>
    exact Option.some.inj h ▸ (talks_rtcSessionSendAccessUnit s accessUnit isIdr result).follows.log
  | requestIdr now => exact Option.some.inj h ▸ (talks_rtcSessionRequestIdr s now).follows.log
  | close => exact (follows_rtcSessionClose h).log
  | destroy =>
    dsimp only at h
    rw [rtcSessionDestroy] at h
    split_ifs at h with hopen
    · obtain ⟨t, ht, h⟩ := Option.bind_eq_some_iff.1 h
      exact Option.some.inj h ▸ (follows_rtcSessionClose ht).log
    · exact Option.some.inj h ▸ List.suffix_rfl

/-- Nothing is taken off the log. -/
theorem log_exec_peerStep {depth : ℕ} {events : List PeerEvent}
    (h : Run.exec (peerStep closing depth) s events = some s') : s.log <:+ s'.log :=
  Run.exec_invariant (P := fun t ↦ s.log <:+ t.log) (fun _ _ _ ht h ↦ ht.trans (log_peerStep h))
    List.suffix_rfl h

theorem mono_exec_peerStep {m n : ℕ} (h : m ≤ n) (events : List PeerEvent) :
    Reentry.Extends (fun s ↦ Run.exec (peerStep closing n) s events)
      (fun s ↦ Run.exec (peerStep closing m) s events) :=
  Reentry.extends_exec (fun _ _ _ ↦ mono_peerStep h) events

/-- What a call does does not depend on the room, when there is enough. -/
theorem peerStep_unique {m n : ℕ} {e : PeerEvent} (hs : peerStep closing m s e = some s')
    (ht : peerStep closing n s e = some t) : s' = t :=
  Option.some.inj ((mono_peerStep (le_max_left m n) hs).symm.trans (mono_peerStep (le_max_right m n) ht))

/-- The condition on one call is what keeps a session in order. -/
theorem InOrder.exists_peerStep (h : InOrder s) {e : PeerEvent} (hok : StepOk closing s e) :
    ∃ depth s', peerStep closing depth s e = some s' ∧ InOrder s' := by
  rcases h with hfresh | hdone
  · exact hfresh.exists_inOrder hok
  · obtain ⟨s', hs', hdone'⟩ : ∃ s', peerStep closing 1 s e = some s' ∧ Done s' :=
      hdone.exists_peerStep e
    exact ⟨1, s', hs', .inr hdone'⟩

/-- In order, a step of the machine is a step of the life cycle. -/
theorem InOrder.stepOk (h : InOrder s) {e : PeerEvent} {depth : ℕ}
    (hs : peerStep closing depth s e = some s') (hsettled : Settled s'.log) : StepOk closing s e :=
  h.elim (fun hfresh ↦ hfresh.stepOk hs hsettled) fun hdone ↦ .inl hdone.closed

/-- **The life cycle over libpeer, from any session in order.** -/
theorem InOrder.lifecycle_iff_stepsOk (h : InOrder s) (events : List PeerEvent) :
    Lifecycle closing s events ↔ StepsOk closing s events := by
  induction events generalizing s with
  | nil =>
    refine iff_of_true ⟨0, s, rfl, h.settled, fun hmarked ↦ ?_⟩ trivial
    exact h.elim (fun hfresh ↦ absurd hmarked hfresh.unmarked) Done.closed
  | cons e events ih =>
    constructor
    · rintro ⟨depth, s', hrun, hsettled, hclosed⟩
      rw [Run.exec_cons] at hrun
      obtain ⟨t, ht, hrun⟩ := Option.bind_eq_some_iff.1 hrun
      have hok := h.stepOk ht (hsettled.of_suffix (log_exec_peerStep hrun))
      obtain ⟨depth', t', ht', horder⟩ := h.exists_peerStep hok
      refine ⟨hok, fun n u hu ↦ ?_⟩
      obtain rfl := peerStep_unique ht hu
      obtain rfl := peerStep_unique ht ht'
      exact (ih horder).1 ⟨depth, s', hrun, hsettled, hclosed⟩
    · rintro ⟨hok, hnext⟩
      obtain ⟨depth, t, ht, horder⟩ := h.exists_peerStep hok
      obtain ⟨depth', s', hrun, hsettled, hclosed⟩ := (ih horder).2 (hnext depth t ht)
      refine ⟨max depth depth', s', ?_, hsettled, hclosed⟩
      exact Run.exec_cons_of_step (mono_peerStep (le_max_left _ _) ht)
        (mono_exec_peerStep (le_max_right _ _) events t s' hrun)

/-- A session begins fresh. -/
theorem fresh_of_rtcSessionCreate {onIdrRequest onClosed : Bool} {answers : CreateAnswers}
    {answerCapacity : ℕ}
    (h : rtcSessionCreate onIdrRequest onClosed answers answerCapacity = some s) : Fresh s := by
  rw [rtcSessionCreate] at h
  split_ifs at h
  rcases hanswer : answers.answer with - | answer
  · rw [hanswer] at h
    cases h
  · rw [hanswer] at h
    dsimp only at h
    split_ifs at h
    obtain rfl := Option.some.inj h
    refine ⟨nofun, fun hmem ↦ ?_, fun hmem ↦ ?_, rfl, rfl⟩
    · cases PeerEffect.state.inj (List.mem_singleton.1 hmem)
    · exact PeerEffect.state_ne_closedHook _ (List.mem_singleton.1 hmem).symm

/-- **The life cycle over libpeer.** Every call of a run returns, `RTC_CLOSED` is final and `on_closed` is
called at most once, if and only if every step of the run meets the condition. -/
theorem lifecycle_iff {onIdrRequest onClosed : Bool} {answers : CreateAnswers} {answerCapacity : ℕ}
    (hcreate : rtcSessionCreate onIdrRequest onClosed answers answerCapacity = some s)
    (closing : ℕ → List PeerCallback) (events : List PeerEvent) :
    Lifecycle closing s events ↔ StepsOk closing s events :=
  InOrder.lifecycle_iff_stepsOk (.inl (fresh_of_rtcSessionCreate hcreate)) events

/-- A session with both hooks. -/
def sampleSession : RtcSession where
  onIdrRequest := true
  onClosed := true
  state := .ice
  pc := true
  createdMs := 0
  lastRxMs := 0
  lastIdrMs := 0
  idrRequested := false
  streamingAnnounced := false
  stats := ⟨0, 0, 0, 0, 0, 0, 0, 0, 0, 0⟩
  destroyed := false
  closeCalls := 0
  log := [.state .ice]

theorem rtcSessionCreate_sampleSession :
    rtcSessionCreate true true ⟨true, 0, true, some []⟩ 8192 = some sampleSession := rfl

/-- A viewer that connects and is closed; libpeer still reports a check from `peer_connection_close`. -/
theorem lifecycle_iff_sample :
    Lifecycle (fun _ ↦ [.iceStateChange .checking 0 0]) sampleSession
      [.tick 100 [.iceStateChange .connected 100 100], .close] := by
  refine (lifecycle_iff rtcSessionCreate_sampleSession _ _).2 ⟨.inr ⟨?_, ?_⟩, fun depth s' h ↦ ⟨.inr ?_, ?_⟩⟩
  · exact List.pairwise_singleton _ _
  · exact fun _ ↦ .silent (by decide)
  · exact .silent (by decide)
  · exact fun _ _ _ ↦ trivial

/-- A libpeer that reports the closed connection from inside `peer_connection_close`, once. -/
def closesBack (k : ℕ) : List PeerCallback :=
  if k = 0 then [.iceStateChange .closed 0 0] else []

/-- **A session that is reported closed twice.** -/
theorem not_lifecycle_closesBack :
    rtcSessionCreate true true ⟨true, 0, true, some []⟩ 8192 = some sampleSession ∧
    ¬ Lifecycle closesBack sampleSession [.close] := by
  refine ⟨rfl, ?_⟩
  rintro ⟨depth, s', hrun, hsettled, -⟩
  have htwice : (Run.exec (peerStep closesBack 2) sampleSession [.close]).map
      (fun s ↦ s.log.count .closedHook) = some 2 := by decide
  obtain ⟨t, ht, hcount⟩ := Option.map_eq_some_iff.1 htwice
  have hs' := mono_exec_peerStep (le_max_left depth 2) _ _ _ hrun
  have ht' := mono_exec_peerStep (le_max_right depth 2) _ _ _ ht
  obtain rfl := Option.some.inj (hs'.symm.trans ht')
  have honce := hsettled.once
  rw [hcount] at honce
  exact absurd honce (by decide)

end Camstream.Libpeer
