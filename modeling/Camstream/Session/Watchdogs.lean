import Camstream.Session.Destination

/-!
# The two timers

`rtc_session_tick` closes a session that has heard nothing for fifteen seconds, and one that is still in
ICE thirty seconds after its creation. Both tests are made here exact.

A session without a peer is closed by the first timer alone, and that timer is set back by every
datagram, accepted or not. So such a session lives as long as the gaps between its datagrams are short
(`Reaped` reads this off the calls). The second timer looks at ICE only: a session that waits for its
first check, or in the middle of a handshake, is not its concern (`Stalls`).
-/

namespace Camstream

variable {lib : Libraries} {env : CreateAnswers} {config : RtcSessionConfig} {s₀ s s' : RtcSession}
  {es : List RtcEvent} {e : RtcEvent} {ans : Answers} {now : ℕ}

/-! ### A tick -/

/-- A session that is not in the middle of a handshake has an engine without a timer. -/
theorem dtlsSrtpTick_of_state (hphase : s.view.InPhase) (h : s.state ≠ .dtls) :
    dtlsSrtpTick lib (rtcCallbacks ans) ans s = s := by
  rw [dtlsSrtpTick, if_pos]
  intro hengine
  exact h (state_of_handshaking hphase hengine).1

/-- The sender report at the end of a tick does not change the state. -/
theorem state_senderReport (t : RtcSession) :
    (if t.state = .streaming ∧ t.nextSrMs ≤ now then senderReport lib ans t now else t).state =
      t.state := by
  split_ifs
  · exact (talk_senderReport lib ans t now).state_eq
  · rfl

theorem state_rtcSessionClose (t : RtcSession) : (rtcSessionClose ans t).state = .closed := by
  rcases eq_or_ne t.state .closed with hclosed | hopen
  · rw [rtcSessionClose_of_closed ans hclosed, hclosed]
  · exact (closes_rtcSessionClose ans t hopen).state_eq

/-- Past the two timers a tick is the engine's. -/
theorem state_rtcSessionTick (hopen : s.state ≠ .closed)
    (hidle : ¬ sessionIdleTimeoutMs < now - s.lastRxMs)
    (hwatchdog : ¬ (s.state = .ice ∧ sessionDtlsWatchdogMs < now - s.createdMs)) :
    (rtcSessionTick lib ans s now).state = (dtlsSrtpTick lib (rtcCallbacks ans) ans s).state := by
  rw [rtcSessionTick, if_neg hopen, if_neg hidle, if_neg hwatchdog]
  exact state_senderReport _

/-- An idle session is closed, whatever state it is in. -/
theorem rtcSessionTick_of_idle (hidle : sessionIdleTimeoutMs < now - s.lastRxMs) :
    (rtcSessionTick lib ans s now).state = .closed := by
  rw [rtcSessionTick]
  split_ifs with hclosed
  · exact hclosed
  · exact state_rtcSessionClose s

/-- **The engine's tick** in the middle of a handshake: unless the handshake is over now, or OpenSSL gives
up, the session stays where it is. -/
theorem state_dtlsSrtpTick (lib : Libraries) (ans : Answers) (hphase : s.view.InPhase)
    (hdtls : s.state = .dtls) :
    if ans.ssl.ends true ∨ ans.initFinished = true then
      (dtlsSrtpTick lib (rtcCallbacks ans) ans s).state = .streaming ∨
        (dtlsSrtpTick lib (rtcCallbacks ans) ans s).state = .closed
    else (dtlsSrtpTick lib (rtcCallbacks ans) ans s).state = .dtls := by
  have hengine : s.dtls.state = .handshaking := by
    have := hphase
    simp only [SessionView.InPhase, RtcSession.view, hdtls] at this
    exact this.1
  have htick := view_dtlsSrtpTick lib ans s hphase hengine
  rcases hends : ans.ssl.ends true with - | - <;> rw [hends] at htick
  · obtain ⟨v, htalk, hpumped⟩ := htick
    rcases hfinished : ans.initFinished with - | - <;> rw [hfinished] at hpumped
    · simp only [Bool.false_eq_true, or_self, if_false]
      cases hpumped
      exact htalk.state_eq.trans hdtls
    · simp only [or_true, if_true]
      cases hpumped with
      | failed h => exact Or.inr h.state_eq
      | connected h hfp h' => exact Or.inl h'.state_eq
  · simp only [true_or, if_true]
    exact Or.inr htick.state_eq

/-! ### The idle timer -/

/-- A call that closes a session without a peer that has last heard something at `last`. -/
def RtcEvent.Reaps (last : ℕ) (e : RtcEvent) : Prop :=
  match e.call with
  | .tick now => sessionIdleTimeoutMs < now - last
  | .close | .destroy => True
  | .onUdp _ _ _ | .sendAccessUnit _ _ _ => False

/-- When a session has last heard something, after a call. -/
def RtcEvent.heard (last : ℕ) (e : RtcEvent) : ℕ :=
  match e.call with
  | .onUdp _ _ _ => e.answers.rxMs
  | _ => last

/-- Close or destroy is called, or a tick comes more than fifteen seconds after the latest datagram in
front of it, or after `last` if there is none. -/
def Reaped (last : ℕ) : List RtcEvent → Prop
  | [] => False
  | e :: es => e.Reaps last ∨ Reaped (e.heard last) es

/-- A datagram that is not an accepted check leaves a new session new, whatever it is. -/
theorem talk_rtcSessionOnUdp_new (ans : Answers) (hphase : s.view.InPhase) (hnew : s.state = .new)
    {buffer : List UInt8} {length : ℕ} (haccepts : s.view.accepts lib buffer length = false)
    (source : SockAddr) :
    Talk (s.view.arrive ans.rxMs) (rtcSessionOnUdp lib ans s buffer length source).view := by
  have hremote : s.haveRemote = false := by
    have := hphase
    simp only [SessionView.InPhase, RtcSession.view, hnew] at this
    exact this.2.2.2
  have hopen : s.state ≠ .closed := by
    rw [hnew]
    decide
  set t : RtcSession := { s with lastRxMs := ans.rxMs }
  have hstun : stunAccepts lib.hmac t.localPwd t.localUfrag buffer length = false := by
    rw [SessionView.accepts, decide_eq_true (show s.view.state ≠ .closed from hopen),
      Bool.true_and] at haccepts
    exact haccepts
  rw [rtcSessionOnUdp, if_neg hopen]
  show Talk t.view _
  dsimp only
  rcases rtcClassifyPacket buffer length with - | - | - | -
  · have htalk := talk_onUdpStun lib ans t buffer length source
    rw [hstun] at htalk
    exact htalk
  · -- DTLS before ICE is dropped, and so is RTCP before the stream.
    show Talk t.view (onUdpDtls lib ans t (buffer.take length)).view
    rw [onUdpDtls, if_neg (by rw [show t.haveRemote = false from hremote]; decide)]
    exact Talk.refl _
  · show Talk t.view (onUdpRtp lib ans t buffer length).view
    rw [onUdpRtp, if_neg fun h ↦ absurd (hnew.symm.trans h.2.2) (by decide)]
    exact Talk.refl _
  · exact Talk.refl _

/-- No media is sent before the session streams. -/
theorem view_rtcSessionSendAccessUnit (accessUnit : List UInt8) (ptsUs : UInt64) (isIdr : Bool)
    (h : s.state ≠ .streaming) :
    (rtcSessionSendAccessUnit lib ans s accessUnit ptsUs isIdr).1.view = s.view := by
  rw [rtcSessionSendAccessUnit]
  set t : RtcSession := if isIdr ∧ s.idrRequested then { s with idrRequested := false } else s
  have hview : t.view = s.view := view_idrRequested _ _ _
  dsimp only
  have hstate : t.state ≠ .streaming := fun he ↦ h ((congrArg SessionView.state hview).symm.trans he)
  rw [if_pos hstate]
  exact hview

/-- **One operation on a new session** without an accepted check: it stays new or is closed, by the
calls that `Reaps` names. -/
theorem new_rtcCall (hphase : s.view.InPhase) (hnew : s.state = .new)
    (hnone : s.view.accepted lib e = none) :
    (e.Reaps s.lastRxMs → (rtcCall lib s e).state = .closed) ∧
      (¬ e.Reaps s.lastRxMs → (rtcCall lib s e).state = .new ∧
        (rtcCall lib s e).lastRxMs = e.heard s.lastRxMs) := by
  have hopen : s.state ≠ .closed := by
    rw [hnew]
    decide
  obtain ⟨ans, call⟩ := e
  cases call with
  | onUdp buffer length source =>
    -- Nothing was accepted, so whatever arrives leaves the session as new as it was.
    have haccepts : s.view.accepts lib buffer length = false := by
      rw [SessionView.accepted] at hnone
      dsimp only at hnone
      split_ifs at hnone with h
      exact Bool.eq_false_iff.2 h
    obtain ⟨new, -, hview⟩ := talk_rtcSessionOnUdp_new ans hphase hnew haccepts source
    refine ⟨fun h ↦ h.elim, fun _ ↦ ⟨?_, ?_⟩⟩
    · exact (congrArg SessionView.state hview).trans hnew
    · exact congrArg (fun v ↦ v.lastRxMs) hview
  | tick now =>
    refine ⟨fun hidle ↦ rtcSessionTick_of_idle hidle, fun hidle ↦ ⟨?_, ?_⟩⟩
    · refine (state_rtcSessionTick hopen hidle fun h ↦
        absurd (hnew.symm.trans h.1) (by decide)).trans ?_
      rw [dtlsSrtpTick_of_state hphase (by rw [hnew]; decide), hnew]
    · exact congrArg SessionFrame.lastRxMs (view_rtcCall lib s hphase ⟨ans, .tick now⟩).frame_eq
  | sendAccessUnit accessUnit ptsUs isIdr =>
    have hview : (rtcCall lib s ⟨ans, .sendAccessUnit accessUnit ptsUs isIdr⟩).view = s.view :=
      view_rtcSessionSendAccessUnit accessUnit ptsUs isIdr (by rw [hnew]; decide)
    refine ⟨fun h ↦ h.elim, fun _ ↦ ⟨?_, ?_⟩⟩
    · exact (congrArg SessionView.state hview).trans hnew
    · exact congrArg (fun v ↦ v.lastRxMs) hview
  | close =>
    exact ⟨fun _ ↦ state_rtcSessionClose s, fun h ↦ absurd trivial h⟩
  | destroy =>
    refine ⟨fun _ ↦ ?_, fun h ↦ absurd trivial h⟩
    show (rtcSessionDestroy ans s).state = .closed
    rw [rtcSessionDestroy, if_pos hopen]
    exact state_rtcSessionClose s

/-- What a run does to a closed session: nothing. -/
theorem closed_of_run (hlife : s.view.Lifecycle) (hclosed : s.state = .closed)
    (hrun : Run.exec (rtcStep lib) s es = some s') : s'.state = .closed := by
  refine (run_invariant (P := fun t ↦ t.state = .closed) (fun t e ht hclosed ↦ ?_) hlife hclosed
    hrun).2
  have hrank := rank_le_rtcCall lib ht e
  rw [hclosed] at hrank
  rcases h : (rtcCall lib t e).state with - | - | - | - | - <;> rw [h] at hrank
  all_goals exact absurd hrank (by decide)

/-- **A run without an accepted check**, from a new session: it ends closed exactly if the session was
reaped. -/
theorem closed_iff_reaped (hlife : s.view.Lifecycle) (hnew : s.state = .new)
    (hnone : acceptedSources lib s es = []) (hrun : Run.exec (rtcStep lib) s es = some s') :
    s'.state = .closed ↔ Reaped s.lastRxMs es := by
  induction es generalizing s with
  | nil =>
    obtain rfl := Option.some.inj hrun
    exact iff_of_false (by rw [hnew]; decide) id
  | cons e es ih =>
    rw [Run.exec_cons] at hrun
    obtain ⟨t, ht, hrun⟩ := Option.bind_eq_some_iff.1 hrun
    obtain ⟨-, rfl⟩ := rtcStep_eq_some.1 ht
    rw [acceptedSources, List.append_eq_nil_iff, Option.toList_eq_nil_iff] at hnone
    obtain ⟨hreaps, hkeeps⟩ := new_rtcCall hlife.inPhase hnew hnone.1
    have hlife' := lifecycle_rtcCall lib hlife e
    rw [Reaped]
    -- The first call that reaps decides: a closed session stays closed.
    rcases Classical.em (e.Reaps s.lastRxMs) with h | h
    · exact iff_of_true (closed_of_run hlife' (hreaps h) hrun) (Or.inl h)
    · obtain ⟨hnew', hheard⟩ := hkeeps h
      rw [ih hlife' hnew' hnone.2 hrun, hheard, or_iff_right h]

/-- **When a session without a valid check is reaped.** In a run of a created session without an
accepted check, a tick leaves the session closed exactly if by then close or destroy was called, or some
tick, this one or an earlier one, came more than fifteen seconds after the latest datagram of any kind
in front of it, or after the creation if there was none. -/
theorem peerless_tick_closed_iff (hcreate : rtcSessionCreate env config = some s₀)
    (hrun : Run.exec (rtcStep lib) s₀ es = some s) (hnone : acceptedSources lib s₀ es = [])
    (htick : rtcStep lib s ⟨ans, .tick now⟩ = some s') :
    s'.state = .closed ↔ Reaped s₀.createdMs (es ++ [⟨ans, .tick now⟩]) := by
  obtain ⟨-, hnew, -, -, -, -, hlast, -⟩ := rtcSessionCreate_spec hcreate
  have hrun' : Run.exec (rtcStep lib) s₀ (es ++ [⟨ans, .tick now⟩]) = some s' := by
    refine Run.exec_append hrun ?_
    rw [Run.exec_cons, htick]
    rfl
  have hnone' : acceptedSources lib s₀ (es ++ [⟨ans, .tick now⟩]) = [] := by
    rw [acceptedSources_append hrun, hnone]
    rfl
  rw [closed_iff_reaped (lifecycle_rtcSessionCreate hcreate) hnew hnone' hrun', hlast]

/-- A datagram that is no check at all. -/
def sampleJunk (now : ℕ) (source : SockAddr) : RtcEvent :=
  ⟨sampleAnswers now, .onUdp [100] 1 source⟩

theorem peerless_tick_closed_iff_sample : ∃ s₀ s s',
    rtcSessionCreate sampleCreate (sampleConfig sampleFingerprint) = some s₀ ∧
    Run.exec (rtcStep sampleLibraries) s₀ [sampleJunk 900 samplePeer] = some s ∧
    rtcStep sampleLibraries s ⟨sampleAnswers 16000, .tick 16000⟩ = some s' ∧
    s'.state = .closed := by
  have hrun : ((rtcSessionCreate sampleCreate (sampleConfig sampleFingerprint)).bind fun s₀ ↦
      (Run.exec (rtcStep sampleLibraries) s₀ [sampleJunk 900 samplePeer]).bind fun s ↦
        (rtcStep sampleLibraries s ⟨sampleAnswers 16000, .tick 16000⟩).map fun _ ↦
          (s₀.createdMs, acceptedSources sampleLibraries s₀ [sampleJunk 900 samplePeer])) =
      some (0, []) := by decide +kernel
  obtain ⟨s₀, hcreate, hrun⟩ := Option.bind_eq_some_iff.1 hrun
  obtain ⟨s, hs, hrun⟩ := Option.bind_eq_some_iff.1 hrun
  obtain ⟨s', hs', hfacts⟩ := Option.map_eq_some_iff.1 hrun
  obtain ⟨hcreated, hnone⟩ := Prod.mk.inj hfacts
  refine ⟨s₀, s, s', hcreate, hs, hs', (peerless_tick_closed_iff hcreate hs hnone hs').2 ?_⟩
  rw [hcreated]
  exact Or.inr (Or.inl (by decide : sessionIdleTimeoutMs < 16000 - 900))

/-- One byte after fourteen seconds, and the session is still there two seconds later. -/
theorem not_peerless_reaped :
    ¬ ∀ (lib : Libraries) (env : CreateAnswers) (config : RtcSessionConfig) (s₀ s s' : RtcSession)
      (es : List RtcEvent) (ans : Answers) (now : ℕ), rtcSessionCreate env config = some s₀ →
      Run.exec (rtcStep lib) s₀ es = some s → acceptedSources lib s₀ es = [] →
      rtcStep lib s ⟨ans, .tick now⟩ = some s' → s₀.createdMs + 15000 < now →
      (∀ ans' now', ⟨ans', .tick now'⟩ ∈ es → now' ≤ s₀.createdMs + 15000) →
        s'.state = .closed := by
  intro hall
  have hrun : ((rtcSessionCreate sampleCreate (sampleConfig sampleFingerprint)).bind fun s₀ ↦
      (Run.exec (rtcStep sampleLibraries) s₀ [sampleJunk 14000 samplePeer]).bind fun s ↦
        (rtcStep sampleLibraries s ⟨sampleAnswers 16000, .tick 16000⟩).map fun s' ↦
          (s₀.createdMs, acceptedSources sampleLibraries s₀ [sampleJunk 14000 samplePeer],
            s'.state)) = some (0, [], .new) := by decide +kernel
  obtain ⟨s₀, hcreate, hrun⟩ := Option.bind_eq_some_iff.1 hrun
  obtain ⟨s, hs, hrun⟩ := Option.bind_eq_some_iff.1 hrun
  obtain ⟨s', hs', hfacts⟩ := Option.map_eq_some_iff.1 hrun
  obtain ⟨hcreated, hnone, hnew⟩ := by
    simpa only [Prod.mk.injEq] using hfacts
  have hclosed := hall sampleLibraries _ _ s₀ s s' _ _ 16000 hcreate hs hnone hs'
    (by rw [hcreated]; decide) (by simp [sampleJunk])
  exact absurd (hnew.symm.trans hclosed) (by decide)

/-! ### The handshake watchdog -/

/-- A tick that leaves the session waiting: it is open and heard something in the last fifteen seconds,
and it has no peer yet, or is in a handshake that neither completes nor fails in this tick. -/
def Stalls (s : RtcSession) (ans : Answers) (now : ℕ) : Prop :=
  now ≤ s.lastRxMs + sessionIdleTimeoutMs ∧
    (s.state = .new ∨ s.state = .dtls ∧ ans.ssl.ends true = false ∧ ans.initFinished = false)

/-- **One late tick** ends the waiting exactly if it is not one that stalls. -/
theorem late_tick_iff (hphase : s.view.InPhase) (hlate : s.createdMs + sessionDtlsWatchdogMs < now) :
    ((rtcSessionTick lib ans s now).state = .streaming ∨
      (rtcSessionTick lib ans s now).state = .closed) ↔ ¬ Stalls s ans now := by
  rcases Nat.lt_or_ge sessionIdleTimeoutMs (now - s.lastRxMs) with hidle | hbusy
  · have hage : s.lastRxMs + sessionIdleTimeoutMs < now := by omega
    exact iff_of_true (Or.inr (rtcSessionTick_of_idle hidle)) fun h ↦ Nat.not_le.2 hage h.1
  have hage : now ≤ s.lastRxMs + sessionIdleTimeoutMs := by omega
  have hidle : ¬ sessionIdleTimeoutMs < now - s.lastRxMs := Nat.not_lt.2 hbusy
  rcases hstate : s.state with - | - | - | - | -
  case closed =>
    refine iff_of_true (Or.inr ?_) (by simp [Stalls, hstate])
    rw [rtcSessionTick, if_pos hstate, hstate]
  case ice =>
    have hwatchdog : s.state = .ice ∧ sessionDtlsWatchdogMs < now - s.createdMs := ⟨hstate, by omega⟩
    refine iff_of_true (Or.inr ?_) (by simp [Stalls, hstate])
    rw [rtcSessionTick, if_neg (by rw [hstate]; decide), if_neg hidle, if_pos hwatchdog]
    exact state_rtcSessionClose s
  -- Neither timer applies; what is left is up to the engine.
  all_goals
    rw [state_rtcSessionTick (by rw [hstate]; decide) hidle (by simp [hstate])]
  case new =>
    rw [dtlsSrtpTick_of_state hphase (by rw [hstate]; decide), hstate]
    exact iff_of_false (by decide) (not_not.2 ⟨hage, Or.inl hstate⟩)
  case streaming =>
    rw [dtlsSrtpTick_of_state hphase (by rw [hstate]; decide), hstate]
    exact iff_of_true (Or.inl rfl) (by simp [Stalls, hstate])
  case dtls =>
    have htick := state_dtlsSrtpTick lib ans hphase hstate
    split_ifs at htick with hends
    · refine iff_of_true htick fun h ↦ ?_
      rcases h.2 with hnew | ⟨-, hgo, hunfinished⟩
      · exact absurd (hstate.symm.trans hnew) (by decide)
      · rcases hends with hends | hfinished
        · exact absurd (hgo.symm.trans hends) (by decide)
        · exact absurd (hunfinished.symm.trans hfinished) (by decide)
    · obtain ⟨hgo, hunfinished⟩ := not_or.1 hends
      rw [htick]
      exact iff_of_false (by decide) (not_not.2
        ⟨hage, Or.inr ⟨hstate, Bool.eq_false_iff.2 hgo, Bool.eq_false_iff.2 hunfinished⟩⟩)

/-- **The handshake watchdog.** In every run of a created session, a tick more than thirty seconds after
the creation leaves the session streaming or closed exactly if it does not stall: only a session without a
peer, and one in the middle of a handshake, can outlive it, and both do as long as they hear something
every fifteen seconds. -/
theorem handshake_watchdog_iff (hcreate : rtcSessionCreate env config = some s₀)
    (hrun : Run.exec (rtcStep lib) s₀ es = some s) (htick : rtcStep lib s ⟨ans, .tick now⟩ = some s')
    (hlate : s₀.createdMs + sessionDtlsWatchdogMs < now) :
    (s'.state = .streaming ∨ s'.state = .closed) ↔ ¬ Stalls s ans now := by
  obtain ⟨-, rfl⟩ := rtcStep_eq_some.1 htick
  have hcreated : s.createdMs = s₀.createdMs :=
    congrArg (fun p ↦ p.2.2.2.2) (fixed_of_run hcreate hrun)
  exact late_tick_iff (lifecycle_of_run hcreate hrun).inPhase (hcreated.symm ▸ hlate)

theorem handshake_watchdog_iff_sample : ∃ s₀ s s',
    rtcSessionCreate sampleCreate (sampleConfig sampleFingerprint) = some s₀ ∧
    Run.exec (rtcStep sampleLibraries) s₀
      [sampleCheck 100 samplePeer, sampleCheck 20000 samplePeer] = some s ∧
    rtcStep sampleLibraries s ⟨sampleAnswers 31000, .tick 31000⟩ = some s' ∧
    (s'.state = .streaming ∨ s'.state = .closed) := by
  have hrun : ((rtcSessionCreate sampleCreate (sampleConfig sampleFingerprint)).bind fun s₀ ↦
      (Run.exec (rtcStep sampleLibraries) s₀
        [sampleCheck 100 samplePeer, sampleCheck 20000 samplePeer]).bind fun s ↦
        (rtcStep sampleLibraries s ⟨sampleAnswers 31000, .tick 31000⟩).map fun _ ↦
          (s₀.createdMs, s.state)) = some (0, .ice) := by decide +kernel
  obtain ⟨s₀, hcreate, hrun⟩ := Option.bind_eq_some_iff.1 hrun
  obtain ⟨s, hs, hrun⟩ := Option.bind_eq_some_iff.1 hrun
  obtain ⟨s', hs', hfacts⟩ := Option.map_eq_some_iff.1 hrun
  obtain ⟨hcreated, hice⟩ := Prod.mk.inj hfacts
  refine ⟨s₀, s, s', hcreate, hs, hs',
    (handshake_watchdog_iff hcreate hs hs' (by rw [hcreated]; decide)).2 ?_⟩
  rw [Stalls, hice]
  simp

/-- A peer that starts a handshake and then only sends checks. -/
theorem not_handshake_watchdog :
    ¬ ∀ (lib : Libraries) (env : CreateAnswers) (config : RtcSessionConfig) (s₀ s s' : RtcSession)
      (es : List RtcEvent) (ans : Answers) (now : ℕ), rtcSessionCreate env config = some s₀ →
      Run.exec (rtcStep lib) s₀ es = some s → rtcStep lib s ⟨ans, .tick now⟩ = some s' →
      s₀.createdMs + 30000 < now → s'.state = .streaming ∨ s'.state = .closed := by
  intro hall
  have hrun : ((rtcSessionCreate sampleCreate (sampleConfig sampleFingerprint)).bind fun s₀ ↦
      (Run.exec (rtcStep sampleLibraries) s₀
        [sampleCheck 100 samplePeer, sampleDtls (sampleAnswers 200) samplePeer,
          sampleCheck 20000 samplePeer]).bind fun s ↦
        (rtcStep sampleLibraries s ⟨sampleAnswers 31000, .tick 31000⟩).map fun s' ↦
          (s₀.createdMs, s'.state)) = some (0, .dtls) := by decide +kernel
  obtain ⟨s₀, hcreate, hrun⟩ := Option.bind_eq_some_iff.1 hrun
  obtain ⟨s, hs, hrun⟩ := Option.bind_eq_some_iff.1 hrun
  obtain ⟨s', hs', hfacts⟩ := Option.map_eq_some_iff.1 hrun
  obtain ⟨hcreated, hdtls⟩ := Prod.mk.inj hfacts
  have hended := hall sampleLibraries _ _ s₀ s s' _ _ 31000 hcreate hs hs'
    (by rw [hcreated]; decide)
  rw [hdtls] at hended
  exact absurd hended (by decide)

end Camstream
