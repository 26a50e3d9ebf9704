import Camstream.Libpeer.Session

/-!
# Closing a session from its own callback

`rtc_session_close` calls into libpeer while the session is still open, and libpeer may call it back. What is
expected of the effects of a session is `Settled`. `QuietClose` says what `peer_connection_close` may deliver:
`QuietClose.exists_done` that `rtc_session_close` then returns with the session closed in order, and
`quietClose_of_settled` that it does so in no other case.
-/

namespace Camstream.Libpeer

/-! ### What is expected -/

/-- Of the effects of a session, newest first: nothing but `RTC_CLOSED` is written after it, and `on_closed`
is called at most once. -/
structure Settled (log : List PeerEffect) : Prop where
  forGood : log.Pairwise fun later earlier ↦
    earlier = .state .closed → ∀ state, later = .state state → state = .closed
  once : log.count .closedHook ≤ 1

/-! ### What libpeer has to do for it -/

/-- The state a callback puts a session in that it does not close. -/
def PeerCallback.puts : PeerCallback → Option RtcSessionState
  | iceStateChange .new _ _ => some .new
  | iceStateChange .checking _ _ => some .ice
  | iceStateChange .connected _ _ | iceStateChange .completed _ _ => some .streaming
  | _ => none

/-- What a callback sets `last_rx_ms` to. -/
def PeerCallback.rxMs? : PeerCallback → Option UInt64
  | iceStateChange .connected rxMs _ | iceStateChange .completed rxMs _ => some rxMs
  | _ => none

/-- The connection failed, was closed or is disconnected. -/
def PeerCallback.ends : PeerCallback → Bool
  | iceStateChange .failed _ _ | iceStateChange .closed _ _ | iceStateChange .disconnected _ _ => true
  | _ => false

/-- Nothing live comes after the end of the connection. -/
def Orderly (callbacks : List PeerCallback) : Prop :=
  callbacks.Pairwise fun earlier later ↦ earlier.ends = true → later.puts = none

/-- The calls of `peer_connection_close` from the `k`-th on deliver no end of the connection. Where there is no
`on_closed` to be called twice they may, if the session then is closed in order. -/
inductive QuietClose (closing : ℕ → List PeerCallback) (onClosed : Bool) : ℕ → Prop
  | silent {k : ℕ} (h : ∀ cb ∈ closing k, cb.ends = false) : QuietClose closing onClosed k
  | nested {k : ℕ} (hook : onClosed = false) (h : Orderly (closing k))
      (next : QuietClose closing onClosed (k + 1)) : QuietClose closing onClosed k

/-! ### Effects -/

variable {closing : ℕ → List PeerCallback} {s s' t : RtcSession} {log log' : List PeerEffect}

/-- What was wrong stays wrong. -/
theorem Settled.of_suffix (h : Settled log') (hlog : log <:+ log') : Settled log where
  forGood := h.forGood.sublist hlog.sublist
  once := (hlog.sublist.count_le _).trans h.once

/-- Effects that are neither a state nor a report. -/
def Quiet (new : List PeerEffect) : Prop :=
  .closedHook ∉ new ∧ ∀ state, .state state ∉ new

/-- Effects that tell nothing do not unsettle a log. -/
theorem Settled.quiet_append {new : List PeerEffect} (h : Settled log) (hnew : Quiet new) :
    Settled (new ++ log) where
  forGood := by
    refine List.pairwise_append.2 ⟨?_, h.forGood, ?_⟩
    · refine List.Pairwise.imp_of_mem ?_ (List.pairwise_of_forall fun _ _ ↦ trivial)
      rintro later earlier hlater - - - state rfl
      exact absurd hlater (hnew.2 state)
    · rintro later hlater earlier - - state rfl
      exact absurd hlater (hnew.2 state)
  once := by
    rw [List.count_append, List.count_eq_zero_of_not_mem hnew.1, Nat.zero_add]
    exact h.once

theorem PeerEffect.state_ne_closedHook (state : RtcSessionState) : PeerEffect.state state ≠ .closedHook :=
  nofun

theorem Settled.cons_closed (h : Settled log) : Settled (.state .closed :: log) where
  forGood := List.pairwise_cons.2 ⟨fun _ _ _ _ hstate ↦ (PeerEffect.state.inj hstate).symm, h.forGood⟩
  once := by
    rw [List.count_cons_of_ne (PeerEffect.state_ne_closedHook .closed)]
    exact h.once

/-- The hook may be used as long as it has not been. -/
theorem Settled.cons_closedHook (h : Settled log) (hlog : .closedHook ∉ log) :
    Settled (.closedHook :: log) where
  forGood := List.pairwise_cons.2 ⟨fun _ _ _ state hstate ↦
    absurd hstate.symm (PeerEffect.state_ne_closedHook state), h.forGood⟩
  once := by rw [List.count_cons_self, List.count_eq_zero_of_not_mem hlog]

/-- What a session does that puts itself in this state, if any, and does not close. -/
structure Talks (s s' : RtcSession) (puts : Option RtcSessionState) : Prop where
  state : s'.state = puts.getD s.state
  log : ∃ new, s'.log = new ++ s.log ∧ .closedHook ∉ new ∧
    (∀ state, .state state ∈ new → puts = some state) ∧
    ∀ state, puts = some state → state ≠ s.state → .state state ∈ new
  frame : s'.onClosed = s.onClosed ∧ s'.pc = s.pc ∧ s'.createdMs = s.createdMs ∧
    s'.destroyed = s.destroyed ∧ s'.closeCalls = s.closeCalls

/-- Nothing is written to the state. -/
theorem Talks.of_quiet {new : List PeerEffect} (hnew : Quiet new) (hstate : s'.state = s.state)
    (hlog : s'.log = new ++ s.log)
    (hframe : s'.onClosed = s.onClosed ∧ s'.pc = s.pc ∧ s'.createdMs = s.createdMs ∧
      s'.destroyed = s.destroyed ∧ s'.closeCalls = s.closeCalls) : Talks s s' none where
  state := hstate
  log := ⟨new, hlog, hnew.1, fun state h ↦ absurd h (hnew.2 state), nofun⟩
  frame := hframe

theorem quiet_nil : Quiet [] :=
  ⟨List.not_mem_nil, fun _ ↦ List.not_mem_nil⟩

theorem quiet_idrRequest : Quiet [.idrRequest] := by
  refine ⟨fun h ↦ ?_, fun state h ↦ ?_⟩ <;> cases List.mem_singleton.1 h

theorem quiet_sendVideo (accessUnit : List UInt8) : Quiet [.sendVideo accessUnit] := by
  refine ⟨fun h ↦ ?_, fun state h ↦ ?_⟩ <;> cases List.mem_singleton.1 h

theorem Talks.refl (s : RtcSession) : Talks s s none :=
  .of_quiet quiet_nil rfl rfl ⟨rfl, rfl, rfl, rfl, rfl⟩

/-- Something that leaves the state alone, behind something else. -/
theorem Talks.trans {puts : Option RtcSessionState} (h : Talks s t puts) (h' : Talks t s' none) :
    Talks s s' puts := by
  obtain ⟨new, hnew, hhook, hstate, hputs⟩ := h.log
  obtain ⟨new', hnew', hhook', hstate', -⟩ := h'.log
  obtain ⟨honClosed, hpc, hcreated, hdestroyed, hcalls⟩ := h.frame
  obtain ⟨honClosed', hpc', hcreated', hdestroyed', hcalls'⟩ := h'.frame
  refine ⟨h'.state.trans h.state, ⟨new' ++ new, ?_, ?_, ?_, ?_⟩, honClosed'.trans honClosed,
    hpc'.trans hpc, hcreated'.trans hcreated, hdestroyed'.trans hdestroyed, hcalls'.trans hcalls⟩
  · rw [hnew', hnew, List.append_assoc]
  · exact fun hmem ↦ (List.mem_append.1 hmem).elim hhook' hhook
  · intro state hmem
    rcases List.mem_append.1 hmem with hmem | hmem
    · cases hstate' state hmem
    · exact hstate state hmem
  · exact fun state hsome hne ↦ List.mem_append_right _ (hputs state hsome hne)

theorem talks_setState (s : RtcSession) (state : RtcSessionState) :
    Talks s (setState s state) (some state) := by
  rw [setState]
  split_ifs with h
  · exact ⟨h, ⟨[], rfl, List.not_mem_nil, fun _ hmem ↦ absurd hmem List.not_mem_nil,
      fun state' hsome hne ↦ absurd (h.trans (Option.some.inj hsome)).symm hne⟩, rfl, rfl, rfl, rfl, rfl⟩
  · refine ⟨rfl, ⟨[.state state], rfl, ?_, ?_, ?_⟩, rfl, rfl, rfl, rfl, rfl⟩
    · exact fun hmem ↦ PeerEffect.noConfusion (List.mem_singleton.1 hmem)
    · exact fun state' hmem ↦ congrArg some (PeerEffect.state.inj (List.mem_singleton.1 hmem)).symm
    · exact fun state' hsome _ ↦ Option.some.inj hsome ▸ List.mem_singleton_self _

/-- A request for a keyframe puts the session into no state. -/
theorem talks_rtcSessionRequestIdr (s : RtcSession) (now : UInt64) :
    Talks s (rtcSessionRequestIdr s now) none := by
  rw [rtcSessionRequestIdr]
  split_ifs
  · exact .refl s
  · exact .refl s
  · exact .of_quiet quiet_idrRequest rfl rfl ⟨rfl, rfl, rfl, rfl, rfl⟩

theorem lastRxMs_rtcSessionRequestIdr (s : RtcSession) (now : UInt64) :
    (rtcSessionRequestIdr s now).lastRxMs = s.lastRxMs := by
  rw [rtcSessionRequestIdr]
  split_ifs <;> rfl

theorem lastRxMs_setState (s : RtcSession) (state : RtcSessionState) :
    (setState s state).lastRxMs = s.lastRxMs := by
  rw [setState]
  split_ifs <;> rfl

/-- Neither does sending. -/
theorem talks_rtcSessionSendAccessUnit (s : RtcSession) (accessUnit : List UInt8) (isIdr : Bool)
    (result : ℤ) : Talks s (rtcSessionSendAccessUnit s accessUnit isIdr result) none := by
  rw [rtcSessionSendAccessUnit]
  split_ifs
  case pos => exact .refl s
  all_goals exact .of_quiet (quiet_sendVideo accessUnit) rfl rfl ⟨rfl, rfl, rfl, rfl, rfl⟩

/-- The connection is there. -/
theorem talks_connected (s : RtcSession) (rxMs idrMs : UInt64) :
    ∃ s', (∀ close, onIceStateChange close s .connected rxMs idrMs = some s') ∧
      Talks s s' (some .streaming) ∧ s'.lastRxMs = rxMs := by
  have htalks : Talks s { setState s .streaming with lastRxMs := rxMs } (some .streaming) :=
    (talks_setState s .streaming).trans (.of_quiet quiet_nil rfl rfl ⟨rfl, rfl, rfl, rfl, rfl⟩)
  refine ⟨_, fun _ ↦ rfl, ?_⟩
  dsimp only
  split_ifs
  · exact ⟨htalks, rfl⟩
  · exact ⟨htalks.trans (talks_rtcSessionRequestIdr _ idrMs), lastRxMs_rtcSessionRequestIdr _ idrMs⟩

/-- **A callback that does not end the connection.** -/
theorem callback_of_not_ends (s : RtcSession) {cb : PeerCallback} (h : cb.ends = false) :
    ∃ s', (∀ close, callback close s cb = some s') ∧ Talks s s' cb.puts ∧
      s'.lastRxMs = cb.rxMs?.getD s.lastRxMs := by
  cases cb with
  | iceStateChange pcState rxMs idrMs =>
    cases pcState with
    | new => exact ⟨_, fun _ ↦ rfl, talks_setState s .new, lastRxMs_setState s .new⟩
    | checking => exact ⟨_, fun _ ↦ rfl, talks_setState s .ice, lastRxMs_setState s .ice⟩
    | connected | completed => exact talks_connected s rxMs idrMs
    | failed | closed | disconnected => cases h
  | iceCandidate present =>
    refine ⟨onIceCandidate s present, fun _ ↦ rfl, ?_⟩
    rw [onIceCandidate]
    split_ifs
    · exact ⟨.of_quiet quiet_nil rfl rfl ⟨rfl, rfl, rfl, rfl, rfl⟩, rfl⟩
    · exact ⟨.refl s, rfl⟩
  | requestKeyframe idrMs =>
    refine ⟨_, fun _ ↦ rfl, ?_, lastRxMs_rtcSessionRequestIdr _ idrMs⟩
    have hcounted : Talks s { s with stats.pliReceived := s.stats.pliReceived + 1 } none :=
      .of_quiet quiet_nil rfl rfl ⟨rfl, rfl, rfl, rfl, rfl⟩
    exact hcounted.trans (talks_rtcSessionRequestIdr _ idrMs)

/-- A callback that does closes the session. -/
theorem callback_of_ends (close : RtcSession → Option RtcSession) (s : RtcSession) {cb : PeerCallback}
    (h : cb.ends = true) : callback close s cb = close s := by
  rcases cb with ⟨pcState, rxMs, idrMs⟩ | present | idrMs
  · cases pcState <;> first | rfl | cases h
  · cases h
  · cases h

theorem puts_of_ends {cb : PeerCallback} (h : cb.ends = true) : cb.puts = none := by
  rcases cb with ⟨pcState, rxMs, idrMs⟩ | present | idrMs
  · cases pcState <;> first | rfl | cases h
  · cases h
  · cases h

/-- No callback puts the session in the closed state; it has to be closed. -/
theorem puts_ne_closed (cb : PeerCallback) : cb.puts ≠ some .closed := by
  rcases cb with ⟨pcState, rxMs, idrMs⟩ | present | idrMs
  · cases pcState <;> nofun
  · nofun
  · nofun

/-! ### Open sessions and closed ones -/

/-- A session that has never been closed. -/
structure Fresh (s : RtcSession) : Prop where
  isOpen : s.state ≠ .closed
  unmarked : .state .closed ∉ s.log
  unreported : .closedHook ∉ s.log
  pc : s.pc = true
  alive : s.destroyed = false

/-- A session that was closed in order. -/
structure Done (s : RtcSession) : Prop where
  closed : s.state = .closed
  marked : .state .closed ∈ s.log
  settled : Settled s.log

/-- A session that has never been closed has nothing out of order. -/
theorem Fresh.settled (h : Fresh s) : Settled s.log where
  forGood := by
    refine List.Pairwise.imp_of_mem ?_ (List.pairwise_of_forall fun _ _ ↦ trivial)
    intro later earlier _ hearlier _ hclosed
    exact absurd (hclosed ▸ hearlier) h.unmarked
  once := by
    rw [List.count_eq_zero_of_not_mem h.unreported]
    exact Nat.zero_le 1

/-- A session that talks stays fresh, unless it puts itself into `RTC_CLOSED`. -/
theorem Fresh.talks (h : Fresh s) {puts : Option RtcSessionState} (ht : Talks s s' puts)
    (hputs : puts ≠ some .closed) : Fresh s' := by
  obtain ⟨new, hnew, hhook, hstate, -⟩ := ht.log
  obtain ⟨-, hpc, -, hdestroyed, -⟩ := ht.frame
  refine ⟨?_, ?_, ?_, hpc.trans h.pc, hdestroyed.trans h.alive⟩
  · rw [ht.state]
    rcases puts with - | state
    · exact h.isOpen
    · exact fun hclosed ↦ hputs (congrArg some hclosed)
  · rw [hnew]
    exact fun hmem ↦ (List.mem_append.1 hmem).elim (fun hmem ↦ hputs (hstate _ hmem)) h.unmarked
  · rw [hnew]
    exact fun hmem ↦ (List.mem_append.1 hmem).elim hhook h.unreported

/-- A closed session may talk on. -/
theorem Done.talks (h : Done s) (ht : Talks s s' none) : Done s' := by
  obtain ⟨new, hnew, hhook, hstate, -⟩ := ht.log
  refine ⟨ht.state.trans h.closed, ?_, ?_⟩
  · rw [hnew]
    exact List.mem_append_right _ h.marked
  · rw [hnew]
    exact h.settled.quiet_append ⟨hhook, fun state hmem ↦ nomatch hstate state hmem⟩

/-- **Before the end of the connection** libpeer may deliver what it likes. -/
theorem Fresh.deliver (h : Fresh s) {cbs : List PeerCallback} (hcbs : ∀ cb ∈ cbs, cb.ends = false) :
    ∃ s', (∀ close, Run.exec (callback close) s cbs = some s') ∧ Fresh s' ∧
      s'.state = cbs.foldl (fun state cb ↦ cb.puts.getD state) s.state ∧
      s'.lastRxMs = cbs.foldl (fun ms cb ↦ cb.rxMs?.getD ms) s.lastRxMs ∧
      s'.createdMs = s.createdMs ∧ s'.onClosed = s.onClosed ∧ s'.closeCalls = s.closeCalls := by
  induction cbs generalizing s with
  | nil => exact ⟨s, fun _ ↦ rfl, h, rfl, rfl, rfl, rfl, rfl⟩
  | cons cb cbs ih =>
    rw [List.forall_mem_cons] at hcbs
    obtain ⟨t, ht, htalks, hrx⟩ := callback_of_not_ends s hcbs.1
    obtain ⟨honClosed, -, hcreated, -, hcalls⟩ := htalks.frame
    obtain ⟨s', hs', hfresh, hstate, hrx', hcreated', honClosed', hcalls'⟩ :=
      ih (h.talks htalks (puts_ne_closed cb)) hcbs.2
    refine ⟨s', fun close ↦ Run.exec_cons_of_step (ht close) (hs' close), hfresh, ?_, ?_,
      hcreated'.trans hcreated, honClosed'.trans honClosed, hcalls'.trans hcalls⟩
    · rw [hstate, htalks.state, List.foldl_cons]
    · rw [hrx', hrx, List.foldl_cons]

/-- **Behind the end of the connection** nothing happens any more, when nothing live is delivered. -/
theorem exec_callback_of_closed {close : RtcSession → Option RtcSession}
    (hclose : ∀ t : RtcSession, t.state = .closed → close t = some t) (h : s.state = .closed)
    {cbs : List PeerCallback} (hcbs : ∀ cb ∈ cbs, cb.puts = none) :
    ∃ s', Run.exec (callback close) s cbs = some s' ∧ Talks s s' none := by
  induction cbs generalizing s with
  | nil => exact ⟨s, rfl, .refl s⟩
  | cons cb cbs ih =>
    rw [List.forall_mem_cons] at hcbs
    rcases hends : cb.ends with - | -
    · obtain ⟨t, ht, htalks, -⟩ := callback_of_not_ends s hends
      rw [hcbs.1] at htalks
      obtain ⟨s', hs', htalks'⟩ := ih (htalks.state.trans h) hcbs.2
      exact ⟨s', Run.exec_cons_of_step (ht close) hs', htalks.trans htalks'⟩
    · obtain ⟨s', hs', htalks⟩ := ih h hcbs.2
      exact ⟨s', Run.exec_cons_of_step ((callback_of_ends close s hends).trans (hclose s h)) hs', htalks⟩

/-! ### What no callback can undo -/

/-- What holds of everything that happens to a session. -/
structure Follows (s s' : RtcSession) : Prop where
  log : s.log <:+ s'.log
  onClosed : s'.onClosed = s.onClosed
  marked : (s.state = .closed → .state .closed ∈ s.log) → s'.state = .closed → .state .closed ∈ s'.log

theorem Follows.refl (s : RtcSession) : Follows s s :=
  ⟨List.suffix_rfl, rfl, id⟩

theorem Follows.trans (h : Follows s t) (h' : Follows t s') : Follows s s' :=
  ⟨h.log.trans h'.log, h'.onClosed.trans h.onClosed, fun hmarked ↦ h'.marked (h.marked hmarked)⟩

/-- To talk is to follow. -/
theorem Talks.follows {puts : Option RtcSessionState} (h : Talks s s' puts) : Follows s s' := by
  obtain ⟨new, hnew, -, -, hputs⟩ := h.log
  refine ⟨⟨new, hnew.symm⟩, h.frame.1, fun hmarked hclosed ↦ ?_⟩
  rw [hnew]
  have hstate := h.state.symm.trans hclosed
  rcases eq_or_ne s.state .closed with hs | hs
  · exact List.mem_append_right _ (hmarked hs)
  · rcases puts with - | state
    · exact absurd hstate hs
    · obtain rfl : state = .closed := hstate
      exact List.mem_append_left _ (hputs .closed rfl (Ne.symm hs))

theorem follows_emit (s : RtcSession) (e : PeerEffect) : Follows s (s.emit e) :=
  ⟨List.suffix_cons e s.log, rfl, fun hmarked hclosed ↦ List.mem_cons_of_mem e (hmarked hclosed)⟩

/-- A callback follows, provided the closing that it may call does. -/
theorem follows_callback {close : RtcSession → Option RtcSession}
    (hclose : ∀ t t', close t = some t' → Follows t t') {cb : PeerCallback}
    (h : callback close s cb = some s') : Follows s s' := by
  rcases hends : cb.ends with - | -
  · obtain ⟨t, ht, htalks, -⟩ := callback_of_not_ends s hends
    obtain rfl := Option.some.inj ((ht close).symm.trans h)
    exact htalks.follows
  · rw [callback_of_ends close s hends] at h
    exact hclose s s' h

/-- So do the callbacks of one call of libpeer. -/
theorem follows_exec {close : RtcSession → Option RtcSession}
    (hclose : ∀ t t', close t = some t' → Follows t t') {cbs : List PeerCallback}
    (h : Run.exec (callback close) s cbs = some s') : Follows s s' :=
  Run.exec_invariant (P := Follows s) (fun _ _ _ ht h ↦ ht.trans (follows_callback hclose h))
    (Follows.refl s) h

/-- The end of `rtc_session_close`. -/
def closeTail (session : RtcSession) : RtcSession :=
  let session := setState session .closed
  if session.onClosed then session.emit .closedHook else session

theorem follows_closeTail (s : RtcSession) : Follows s (closeTail s) := by
  rw [closeTail]
  have h := (talks_setState s .closed).follows
  split_ifs
  · exact h.trans (follows_emit _ _)
  · exact h

theorem state_closeTail (s : RtcSession) : (closeTail s).state = .closed := by
  have h : (setState s .closed).state = .closed := (talks_setState s .closed).state
  rw [closeTail]
  split_ifs
  · exact h
  · exact h

/-- What `rtc_session_close` does to an open session. -/
theorem rtcSessionCloseBody_of_open {close : RtcSession → Option RtcSession} (hs : s.state ≠ .closed)
    (hpc : s.pc = true) : rtcSessionCloseBody closing close s =
      (Run.exec (callback close) { s with closeCalls := s.closeCalls + 1 } (closing s.closeCalls)).map
        closeTail := by
  rw [rtcSessionCloseBody, if_neg hs, if_pos hpc]
  exact Option.map_eq_bind.symm

theorem rtcSessionClose_succ (depth : ℕ) (s : RtcSession) :
    rtcSessionClose closing (depth + 1) s = rtcSessionCloseBody closing (rtcSessionClose closing depth) s :=
  rfl

/-- A closed session is left alone. -/
theorem rtcSessionClose_of_closed (depth : ℕ) (h : s.state = .closed) :
    rtcSessionClose closing (depth + 1) s = some s := by
  rw [rtcSessionClose_succ, rtcSessionCloseBody, if_pos h]

/-- By induction on the depth: a closing follows if the closings inside it do. -/
theorem follows_rtcSessionClose {depth : ℕ} (h : rtcSessionClose closing depth s = some s') :
    Follows s s' := by
  induction depth generalizing s s' with
  | zero => exact absurd h.symm (Option.some_ne_none s')
  | succ depth ih =>
    rw [rtcSessionClose_succ, rtcSessionCloseBody] at h
    split_ifs at h with hclosed hpc
    · obtain rfl := Option.some.inj h
      exact .refl s
    · obtain ⟨t, ht, h⟩ := Option.bind_eq_some_iff.1 h
      obtain rfl := Option.some.inj h
      have hcounted : Follows s { s with closeCalls := s.closeCalls + 1 } := ⟨List.suffix_rfl, rfl, id⟩
      exact (hcounted.trans (follows_exec (fun _ _ ↦ ih) ht)).trans (follows_closeTail t)
    · obtain rfl := Option.some.inj h
      exact follows_closeTail s

/-! ### Closing -/

/-- The first callback that ends the connection. -/
theorem exists_first_end (cbs : List PeerCallback) : (∀ cb ∈ cbs, cb.ends = false) ∨
    ∃ before cb after, cbs = before ++ cb :: after ∧ (∀ cb ∈ before, cb.ends = false) ∧
      cb.ends = true := by
  induction cbs with
  | nil => exact .inl fun _ h ↦ absurd h List.not_mem_nil
  | cons cb cbs ih =>
    rcases hends : cb.ends with - | -
    · rcases ih with hall | ⟨before, cb', after, rfl, hbefore, hcb'⟩
      · exact .inl (List.forall_mem_cons.2 ⟨hends, hall⟩)
      · exact .inr ⟨cb :: before, cb', after, rfl, List.forall_mem_cons.2 ⟨hends, hbefore⟩, hcb'⟩
    · exact .inr ⟨[], cb, cbs, rfl, fun _ h ↦ absurd h List.not_mem_nil, hends⟩

/-- Callbacks of which none ends the session come in order. -/
theorem orderly_of_silent {cbs : List PeerCallback} (h : ∀ cb ∈ cbs, cb.ends = false) : Orderly cbs := by
  refine List.Pairwise.imp_of_mem ?_ (List.pairwise_of_forall fun _ _ ↦ trivial)
  exact fun hearlier _ _ hends ↦ absurd ((h _ hearlier).symm.trans hends) Bool.false_ne_true

/-- Behind the first callback that ends the session, no other may put it into a state. -/
theorem orderly_iff_of_first_end {before after : List PeerCallback} {cb : PeerCallback}
    (hbefore : ∀ cb ∈ before, cb.ends = false) (hcb : cb.ends = true) :
    Orderly (before ++ cb :: after) ↔ ∀ cb ∈ after, cb.puts = none := by
  constructor
  · intro h cb' hcb'
    exact (List.pairwise_cons.1 (List.pairwise_append.1 h).2.1).1 cb' hcb' hcb
  · intro hafter
    have hnone : ∀ cb' ∈ cb :: after, cb'.puts = none :=
      List.forall_mem_cons.2 ⟨puts_of_ends hcb, hafter⟩
    refine List.pairwise_append.2 ⟨orderly_of_silent hbefore, ?_, fun cb' hcb' _ _ hends ↦ ?_⟩
    · refine List.Pairwise.imp_of_mem ?_ (List.pairwise_of_forall fun _ _ ↦ trivial)
      exact fun _ hlater _ _ ↦ hnone _ hlater
    · exact absurd ((hbefore cb' hcb').symm.trans hends) Bool.false_ne_true

/-- A live callback behind the end of the connection shows. -/
theorem puts_eq_none_of_settled {close : RtcSession → Option RtcSession}
    (hclose : ∀ t t', close t = some t' → Follows t t')
    (hkept : ∀ t t' : RtcSession, t.state = .closed → close t = some t' → t' = t)
    (hclosed : s.state = .closed) (hmarked : .state .closed ∈ s.log) {cbs : List PeerCallback}
    (h : Run.exec (callback close) s cbs = some s') (hsettled : Settled s'.log) :
    ∀ cb ∈ cbs, cb.puts = none := by
  induction cbs generalizing s with
  | nil => exact fun _ h ↦ absurd h List.not_mem_nil
  | cons cb cbs ih =>
    rw [Run.exec_cons] at h
    obtain ⟨t, ht, hrest⟩ := Option.bind_eq_some_iff.1 h
    rcases hends : cb.ends with - | -
    · obtain ⟨t', ht', htalks, -⟩ := callback_of_not_ends s hends
      obtain rfl := Option.some.inj ((ht' close).symm.trans ht)
      obtain ⟨new, hnew, -, -, hputs⟩ := htalks.log
      rcases hcb : cb.puts with - | state
      · rw [hcb] at htalks
        refine List.forall_mem_cons.2 ⟨hcb, ih (htalks.state.trans hclosed) ?_ hrest⟩
        rw [hnew]
        exact List.mem_append_right _ hmarked
      · -- The state is written over: not settled, whatever follows.
        have hne : state ≠ .closed := fun heq ↦ puts_ne_closed cb (hcb.trans (congrArg some heq))
        have hwritten := hputs state hcb fun heq ↦ hne (heq.trans hclosed)
        have hearly := hsettled.of_suffix (follows_exec hclose hrest).log
        rw [hnew] at hearly
        exact absurd ((List.pairwise_append.1 hearly.forGood).2.2 _ hwritten _ hmarked rfl state rfl) hne
    · rw [callback_of_ends close s hends] at ht
      obtain rfl := hkept s t hclosed ht
      exact List.forall_mem_cons.2 ⟨puts_of_ends hends, ih hclosed hmarked hrest⟩

/-- Whatever the depth, a closed session stays as it is. -/
theorem rtcSessionClose_eq_of_closed {depth : ℕ} (hclosed : s.state = .closed)
    (h : rtcSessionClose closing depth s = some s') : s' = s := by
  cases depth with
  | zero => exact absurd h.symm (Option.some_ne_none s')
  | succ depth =>
    rw [rtcSessionClose_of_closed depth hclosed] at h
    exact (Option.some.inj h).symm

/-- An open session is closed, and reported. -/
theorem Fresh.done (h : Fresh s) : Done (closeTail s) := by
  have hset : setState s .closed = { s with state := .closed }.emit (.state .closed) := if_neg h.isOpen
  refine ⟨state_closeTail s, ?_, ?_⟩ <;> rw [closeTail, hset] <;> split_ifs
  · exact List.mem_cons_of_mem _ List.mem_cons_self
  · exact List.mem_cons_self
  · exact h.settled.cons_closed.cons_closedHook (List.not_mem_cons_of_ne_of_not_mem nofun h.unreported)
  · exact h.settled.cons_closed

/-- With a hook the report comes last. -/
theorem log_closeTail_of_onClosed (h : s.onClosed = true) :
    (closeTail s).log = .closedHook :: (setState s .closed).log := by
  have hset : (setState s .closed).onClosed = true := (talks_setState s .closed).frame.1.trans h
  rw [closeTail, if_pos hset]
  rfl

/-- A session that was closed meanwhile is only reported. -/
theorem closeTail_of_closed (h : s.state = .closed) :
    closeTail s = if s.onClosed then s.emit .closedHook else s := by
  rw [closeTail, setState, if_pos h]

/-- The session when `peer_connection_close` is called. -/
theorem Fresh.countClose (h : Fresh s) : Fresh { s with closeCalls := s.closeCalls + 1 } :=
  ⟨h.isOpen, h.unmarked, h.unreported, h.pc, h.alive⟩

/-- `peer_connection_close` delivers no end of the connection. -/
theorem Fresh.close_of_silent (h : Fresh s) (hsilent : ∀ cb ∈ closing s.closeCalls, cb.ends = false)
    (depth : ℕ) : ∃ s', rtcSessionClose closing (depth + 1) s = some s' ∧ Done s' := by
  obtain ⟨t, ht, hfresh, -⟩ := h.countClose.deliver hsilent
  refine ⟨closeTail t, ?_, hfresh.done⟩
  rw [rtcSessionClose_succ, rtcSessionCloseBody_of_open h.isOpen h.pc, ht, Option.map_some]

/-- **What is enough for a session to be closed in order.** -/
theorem QuietClose.exists_done {onClosed : Bool} {k : ℕ} (hquiet : QuietClose closing onClosed k)
    (h : Fresh s) (honClosed : s.onClosed = onClosed) (hk : s.closeCalls = k) :
    ∃ depth s', rtcSessionClose closing depth s = some s' ∧ Done s' := by
  induction hquiet generalizing s with
  | silent hsilent =>
    obtain ⟨s', hs', hdone⟩ := h.close_of_silent (hk ▸ hsilent) 0
    exact ⟨1, s', hs', hdone⟩
  | @nested k hook horderly next ih =>
    subst hk
    rcases exists_first_end (closing s.closeCalls) with hsilent | ⟨before, cb, after, hcbs, hbefore, hcb⟩
    · obtain ⟨s', hs', hdone⟩ := h.close_of_silent hsilent 0
      exact ⟨1, s', hs', hdone⟩
    · -- `rtc_session_close` is entered again at `cb`, and what comes after it does nothing.
      rw [hcbs, orderly_iff_of_first_end hbefore hcb] at horderly
      obtain ⟨t, ht, hfresh, -, -, -, honClosed', hcalls⟩ := h.countClose.deliver hbefore
      obtain ⟨depth, u, hu, hdone⟩ := ih hfresh (honClosed'.trans honClosed) hcalls
      obtain ⟨depth, rfl⟩ : ∃ n, depth = n + 1 :=
        Nat.exists_eq_succ_of_ne_zero fun hzero ↦ by rw [hzero] at hu; cases hu
      have hkept : ∀ t : RtcSession, t.state = .closed → rtcSessionClose closing (depth + 1) t = some t :=
        fun _ ↦ rtcSessionClose_of_closed depth
      obtain ⟨v, hv, htalks⟩ := exec_callback_of_closed hkept hdone.closed horderly
      have hdeliver : Run.exec (callback (rtcSessionClose closing (depth + 1)))
          { s with closeCalls := s.closeCalls + 1 } (closing s.closeCalls) = some v := by
        rw [hcbs]
        exact Run.exec_append (ht _) (Run.exec_cons_of_step ((callback_of_ends _ t hcb).trans hu) hv)
      have hv' : Done v := hdone.talks htalks
      have hunhooked : v.onClosed = false := by
        rw [htalks.frame.1, (follows_rtcSessionClose hu).onClosed, honClosed', ← hook]
        exact honClosed
      refine ⟨depth + 2, v, ?_, hv'⟩
      rw [rtcSessionClose_succ, rtcSessionCloseBody_of_open h.isOpen h.pc, hdeliver, Option.map_some,
        closeTail_of_closed hv'.closed, hunhooked, if_neg Bool.false_ne_true]

/-- When `rtc_session_close` of an open session returns, the session is marked closed and, with a hook,
reported. -/
theorem Fresh.of_rtcSessionClose (hs : Fresh s) {depth : ℕ} (h : rtcSessionClose closing depth s = some s') :
    s'.state = .closed ∧ .state .closed ∈ s'.log ∧ (s'.onClosed = true → .closedHook ∈ s'.log) := by
  have hfollows := follows_rtcSessionClose h
  cases depth with
  | zero => exact absurd h.symm (Option.some_ne_none s')
  | succ depth =>
    rw [rtcSessionClose_succ, rtcSessionCloseBody_of_open hs.isOpen hs.pc] at h
    obtain ⟨t, -, rfl⟩ := Option.map_eq_some_iff.1 h
    have hclosed := state_closeTail t
    refine ⟨hclosed, hfollows.marked (fun hclosed ↦ absurd hclosed hs.isOpen) hclosed, fun hook ↦ ?_⟩
    rw [log_closeTail_of_onClosed ((follows_closeTail t).onClosed.symm.trans hook)]
    exact List.mem_cons_self

/-- **What is needed for it.** -/
theorem quietClose_of_settled {depth : ℕ} (h : Fresh s) (hclose : rtcSessionClose closing depth s = some s')
    (hsettled : Settled s'.log) : QuietClose closing s.onClosed s.closeCalls := by
  induction depth generalizing s s' with
  | zero => exact absurd hclose.symm (Option.some_ne_none s')
  | succ depth ih =>
    rw [rtcSessionClose_succ, rtcSessionCloseBody_of_open h.isOpen h.pc] at hclose
    obtain ⟨v, hv, rfl⟩ := Option.map_eq_some_iff.1 hclose
    rcases exists_first_end (closing s.closeCalls) with hsilent | ⟨before, cb, after, hcbs, hbefore, hcb⟩
    · exact .silent hsilent
    · rw [hcbs] at hv
      obtain ⟨t, ht, hfresh, -, -, -, honClosed, hcalls⟩ := h.countClose.deliver hbefore
      obtain ⟨t', ht', hv⟩ := Run.exists_of_exec_append hv
      obtain rfl := Option.some.inj ((ht _).symm.trans ht')
      rw [Run.exec_cons, callback_of_ends _ t hcb] at hv
      obtain ⟨u, hu, hv⟩ := Option.bind_eq_some_iff.1 hv
      obtain ⟨hclosed, hmarked, hreported⟩ := hfresh.of_rtcSessionClose hu
      have hfollows : Follows u v := follows_exec (fun _ _ ↦ follows_rtcSessionClose) hv
      have hlate := hsettled.of_suffix (follows_closeTail v).log
      have hafter := puts_eq_none_of_settled (fun _ _ ↦ follows_rtcSessionClose)
        (fun _ _ ↦ rtcSessionClose_eq_of_closed) hclosed hmarked hv hlate
      have honClosed : t.onClosed = s.onClosed := honClosed
      have hcalls : t.closeCalls = s.closeCalls + 1 := hcalls
      refine .nested ?_ ?_ ?_
      · -- With a hook the session is reported by both activations.
        by_contra hook
        have hook : s.onClosed = true := Bool.eq_true_of_not_eq_false hook
        have hu' : u.onClosed = true := by rw [(follows_rtcSessionClose hu).onClosed, honClosed, hook]
        have hv' : v.onClosed = true := hfollows.onClosed.trans hu'
        have hreported' : .closedHook ∈ (setState v .closed).log :=
          (talks_setState v .closed).follows.log.subset (hfollows.log.subset (hreported hu'))
        have honce := hsettled.once
        rw [log_closeTail_of_onClosed hv', List.count_cons_self] at honce
        have hpos := List.count_pos_iff.2 hreported'
        omega
      · rw [hcbs, orderly_iff_of_first_end hbefore hcb]
        exact hafter
      · rw [← honClosed, ← hcalls]
        exact ih hfresh hu (hlate.of_suffix hfollows.log)

end Camstream.Libpeer
