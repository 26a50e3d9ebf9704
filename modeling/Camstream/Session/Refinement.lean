import Camstream.Session.Protocol

/-!
# The program refines the abstract session

Every operation of a native session is a front followed by inner steps (`view_rtcCall`). The functions are
taken in the order in which they call each other: sending, closing, the OpenSSL call, the keys, the pump,
and then the cases of the public operations.

Two relations name what most of them do. `Talk`: effects were logged, each quiet or a datagram that the
peer gets for the first time, and nothing else changed. `Closes`: some talk and then the abstract `close`;
this is what every way of closing amounts to, whichever of the session and the engine was told first.
-/

namespace Camstream

/-- A datagram that is sent for the first time. -/
def UdpKind.IsFresh : UdpKind → Prop
  | retransmission _ => False
  | dtls | srtp | srtcp => True

/-- Effects a session may have towards its peer or the log without changing otherwise. -/
def Effect.Towards (f : SessionFrame) (e : Effect) : Prop :=
  e.Quiet f ∨ ∃ kind data, e = .sendUdp kind data f.remote ∧ f.haveRemote = true ∧ kind.IsFresh

/-- Effects were logged and nothing else happened. -/
def Talk (v w : SessionView) : Prop :=
  ∃ new, (∀ e ∈ new, e.Towards v.toSessionFrame) ∧ w = { v with log := new ++ v.log }

/-- Some talk, and then the session closed. -/
def Closes (v w : SessionView) : Prop :=
  ∃ u, Talk v u ∧ w = u.close

section Relations

variable {lib : Libraries} {asked : List ℕ} {v w u : SessionView}

theorem Talk.refl (v : SessionView) : Talk v v :=
  ⟨[], fun _ he ↦ absurd he List.not_mem_nil, rfl⟩

/-- Talking in two parts. -/
theorem Talk.trans (h : Talk v w) (h' : Talk w u) : Talk v u := by
  obtain ⟨new, hnew, rfl⟩ := h
  obtain ⟨new', hnew', rfl⟩ := h'
  refine ⟨new' ++ new, fun e he ↦ ?_, ?_⟩
  · exact (List.mem_append.1 he).elim (hnew' e) (hnew e)
  · simp only [List.append_assoc]

theorem Talk.emit {e : Effect} (he : e.Towards v.toSessionFrame) : Talk v (v.emit e) :=
  ⟨[e], fun _ hmem ↦ List.mem_singleton.1 hmem ▸ he, rfl⟩

/-- Talk is a chain of inner steps. -/
theorem Talk.inner (h : Talk v w) : Inner lib asked v w := by
  obtain ⟨new, hnew, rfl⟩ := h
  induction new with
  | nil => exact .refl
  | cons e new ih =>
    refine (ih fun e' he' ↦ hnew e' (List.mem_cons_of_mem _ he')).tail ?_
    rcases hnew e List.mem_cons_self with hquiet | ⟨kind, data, rfl, hremote, hfresh⟩
    · exact InnerStep.effect { v with log := new ++ v.log } e hquiet
    · refine InnerStep.send { v with log := new ++ v.log } kind data hremote ?_
      cases kind with
      | retransmission seq => exact hfresh.elim
      | dtls | srtp | srtcp => trivial

/-- To talk changes no state, of the session or of the engine. -/
theorem Talk.state_eq (h : Talk v w) : w.state = v.state := by
  obtain ⟨new, -, rfl⟩ := h
  rfl

theorem Talk.engine_eq (h : Talk v w) : w.engine = v.engine := by
  obtain ⟨new, -, rfl⟩ := h
  rfl

theorem Talk.srtpReady_eq (h : Talk v w) : w.srtpReady = v.srtpReady := by
  obtain ⟨new, -, rfl⟩ := h
  rfl

/-- So the session stays in its phase. -/
theorem Talk.inPhase (h : Talk v w) (hv : v.InPhase) : w.InPhase := by
  obtain ⟨new, -, rfl⟩ := h
  exact hv

/-- What the engine's state was does not matter to closing. -/
theorem Closes.of_engine {x : DtlsSrtpState} (h : Closes { v with engine := x } w) : Closes v w := by
  obtain ⟨u, ⟨new, hnew, rfl⟩, rfl⟩ := h
  exact ⟨{ v with log := new ++ v.log }, ⟨new, hnew, rfl⟩, rfl⟩

/-- Closing an open session is an inner step. -/
theorem Closes.inner (h : Closes v w) (hv : v.state ≠ .closed) : Inner lib asked v w := by
  obtain ⟨u, htalk, rfl⟩ := h
  exact htalk.inner.tail (InnerStep.close u (htalk.state_eq ▸ hv))

theorem Talk.closes (h : Talk v w) (h' : Closes w u) : Closes v u := by
  obtain ⟨x, htalk, rfl⟩ := h'
  exact ⟨x, h.trans htalk, rfl⟩

theorem Closes.state_eq (h : Closes v w) : w.state = .closed := by
  obtain ⟨u, -, rfl⟩ := h
  rfl

end Relations

variable (lib : Libraries) {asked : List ℕ} (ans : Answers) (s : RtcSession)

/-! ### Sending -/

/-- What the session sends of itself is talk. -/
theorem talk_dtlsSendUdp (kind : UdpKind) (hkind : kind.IsFresh) (packet : List UInt8) :
    Talk s.view (dtlsSendUdp kind s packet).view := by
  rw [dtlsSendUdp]
  split_ifs with h
  · exact Talk.refl _
  · obtain ⟨-, hremote⟩ := not_or.1 h
    have hremote : s.haveRemote = true := by simpa using hremote
    exact Talk.emit (v := s.view) (Or.inr ⟨kind, packet, rfl, hremote, hkind⟩)

/-- An OpenSSL call talks to the peer, whatever it does to its BIOs. -/
theorem talk_sslIo (close : RtcSession → RtcSession) (ops : List BioOp) :
    Talk s.view (sslIo (dtlsCallbacks close ans) s ops).view := by
  induction ops generalizing s with
  | nil => exact Talk.refl _
  | cons op ops ih =>
    refine Talk.trans ?_ (ih (bioOp (dtlsCallbacks close ans) s op))
    cases op with
    | read size =>
      have hview : (bioOp (dtlsCallbacks close ans) s (.read size)).view = s.view := by
        simp only [bioOp, bioRxRead]
        split_ifs <;> rfl
      rw [hview]
      exact Talk.refl _
    | write buf =>
      show Talk s.view (bioTxWrite (dtlsCallbacks close ans) s buf).view
      rw [bioTxWrite]
      split_ifs
      · exact Talk.refl _
      · exact talk_dtlsSendUdp s .dtls trivial buf

/-! ### Closing -/

/-- The hook at the end of `rtc_session_close` completes the abstract `close`. -/
theorem view_closedHook {t : RtcSession} {u : SessionView}
    (h : t.view = { u with state := .closed, engine := .closed }) :
    (if t.config.onClosed then t.emit .closedHook else t).view = u.close := by
  have hconfig : t.config = u.config := congrArg (fun v ↦ v.config) h
  rw [hconfig]
  rw [SessionView.close]
  rcases hhook : u.config.onClosed with - | -
  · exact h
  · show t.view.emit .closedHook = _
    rw [h]
    rfl

/-- An engine that closes reports to a session that is closed already, and nothing more happens. -/
theorem view_dtlsSetState_closed {close : RtcSession → RtcSession}
    (hclose : ∀ t : RtcSession, t.state = .closed → close t = t) (h : s.state = .closed) :
    (dtlsSetState (dtlsCallbacks close ans) s .closed).view = { s.view with engine := .closed } := by
  rw [dtlsSetState]
  split_ifs with hengine
  · show s.view = { s.view with engine := .closed }
    rw [← hengine]
    rfl
  · exact congrArg RtcSession.view
      (hclose { s with dtls := { s.dtls with state := .closed } } h)

/-- The body of `rtc_session_close` closes the session when the function it re-enters leaves closed
sessions alone. -/
theorem closes_rtcSessionCloseWith {close : RtcSession → RtcSession}
    (hclose : ∀ t : RtcSession, t.state = .closed → close t = t) (h : s.state ≠ .closed) :
    Closes s.view (rtcSessionCloseWith close ans s).view := by
  set marked := setState s .closed
  set shut : RtcSession :=
    if marked.dtls.state = .connected then sslIo (dtlsCallbacks close ans) marked ans.sslShutdown
    else marked with hshut
  have htalk : Talk marked.view shut.view := by
    rw [hshut]
    split_ifs
    · exact talk_sslIo ans marked close ans.sslShutdown
    · exact Talk.refl _
  -- The engine's report finds the session marked closed already.
  obtain ⟨new, hnew, hlog⟩ := htalk
  have hset := view_dtlsSetState_closed ans shut hclose (congrArg SessionView.state hlog)
  rw [hlog] at hset
  have hbody : rtcSessionCloseWith close ans s =
      let t := dtlsSetState (dtlsCallbacks close ans) shut .closed
      if t.config.onClosed then t.emit .closedHook else t := by
    rw [rtcSessionCloseWith, if_neg h]
    rfl
  rw [hbody]
  exact ⟨{ s.view with log := new ++ s.log }, ⟨new, hnew, rfl⟩, view_closedHook hset⟩

/-- Closing a closed session does nothing, at any depth. -/
theorem rtcSessionCloseDepth_of_closed (n : ℕ) {t : RtcSession} (h : t.state = .closed) :
    rtcSessionCloseDepth ans n t = t := by
  cases n with
  | zero => rfl
  | succ n =>
    show rtcSessionCloseWith _ ans t = t
    rw [rtcSessionCloseWith, if_pos h]

theorem rtcSessionClose_of_closed {t : RtcSession} (h : t.state = .closed) :
    rtcSessionClose ans t = t :=
  rtcSessionCloseDepth_of_closed ans 2 h

/-- What the body does with the function it re-enters depends on closed sessions only. -/
theorem rtcSessionCloseWith_congr {close close' : RtcSession → RtcSession}
    (h : ∀ t : RtcSession, t.state = .closed → close t = close' t) :
    rtcSessionCloseWith close ans s = rtcSessionCloseWith close' ans s := by
  have hclosed : ∀ t : RtcSession, t.state = .closed →
      dtlsSetState (dtlsCallbacks close ans) t .closed =
        dtlsSetState (dtlsCallbacks close' ans) t .closed := by
    intro t ht
    unfold dtlsSetState
    split_ifs
    · rfl
    · exact h { t with dtls := { t.dtls with state := .closed } } ht
  have hset : dtlsSrtpClose (dtlsCallbacks close ans) ans (setState s .closed) =
      dtlsSrtpClose (dtlsCallbacks close' ans) ans (setState s .closed) := by
    unfold dtlsSrtpClose
    split_ifs
    · -- OpenSSL only reaches the callback that sends.
      exact hclosed _ (talk_sslIo ans (setState s .closed) close ans.sslShutdown).state_eq
    · exact hclosed _ rfl
  unfold rtcSessionCloseWith
  dsimp only
  rw [hset]

/-- **The recursion of the source.** `rtc_session_close` satisfies its own equation, with callbacks that
close the session by it. -/
theorem rtcSessionClose_eq :
    rtcSessionClose ans s = rtcSessionCloseWith (rtcSessionClose ans) ans s :=
  rtcSessionCloseWith_congr ans s fun _ ht ↦
    (rtcSessionCloseDepth_of_closed ans 1 ht).trans (rtcSessionClose_of_closed ans ht).symm

/-- **Closing a session.** -/
theorem closes_rtcSessionClose (h : s.state ≠ .closed) :
    Closes s.view (rtcSessionClose ans s).view := by
  rw [rtcSessionClose_eq]
  exact closes_rtcSessionCloseWith ans s (fun _ ↦ rtcSessionClose_of_closed ans) h

/-- An open session whose engine fails or is closed by the peer is closed. -/
theorem closes_dtlsSetState {state : DtlsSrtpState} (hstate : state = .failed ∨ state = .closed)
    (hne : s.dtls.state ≠ state) (h : s.state ≠ .closed) :
    Closes s.view (dtlsSetState (rtcCallbacks ans) s state).view := by
  have hclose : dtlsSetState (rtcCallbacks ans) s state =
      rtcSessionClose ans { s with dtls := { s.dtls with state := state } } := by
    rw [dtlsSetState, if_neg hne]
    rcases hstate with rfl | rfl <;> rfl
  rw [hclose]
  exact (closes_rtcSessionClose ans { s with dtls := { s.dtls with state := state } } h).of_engine

/-! ### The handshake -/

/-- Whether the OpenSSL call of `pump_ssl` ends the session: a fatal error, or the peer's
`close_notify`. -/
def SslCall.ends (call : SslCall) (started : Bool) : Bool :=
  let fatal := decide (call.error ≠ .wantRead ∧ call.error ≠ .wantWrite)
  if started then (decide (call.rc < 0) && fatal) || decide (call.rc = 0)
  else decide (call.rc ≠ 1) && fatal

/-- What is left of `pump_ssl`'s OpenSSL call when the session has talked: an ending call closes it. -/
theorem view_sslEnd {v : SessionView} {t : RtcSession} (htalk : Talk v t.view)
    (hopen : v.state ≠ .closed) {state : DtlsSrtpState} (hstate : state = .failed ∨ state = .closed)
    (hne : v.engine ≠ state) : Closes v (dtlsSetState (rtcCallbacks ans) t state).view := by
  have hne : t.dtls.state ≠ state := fun he ↦ hne (htalk.engine_eq.symm.trans he)
  have hopen : t.state ≠ .closed := fun he ↦ hopen (htalk.state_eq.symm.trans he)
  exact htalk.closes (closes_dtlsSetState ans t hstate hne hopen)

/-- The first call of OpenSSL, `SSL_accept`: the handshake starts, and the call ends the session or
leaves it talking. -/
theorem view_pumpSslCall_first (hstarted : s.dtls.handshakeStarted = false)
    (hinit : s.dtls.state = .init) :
    (pumpSslCall (rtcCallbacks ans) ans s).2 = !ans.ssl.ends false ∧
      if ans.ssl.ends false then Closes s.view.handshake (pumpSslCall (rtcCallbacks ans) ans s).1.view
      else Talk s.view.handshake (pumpSslCall (rtcCallbacks ans) ans s).1.view := by
  set t := sslIo (rtcCallbacks ans)
    (dtlsSetState (rtcCallbacks ans)
      { s with dtls := { s.dtls with handshakeStarted := true } } .handshaking) ans.ssl.io with ht
  have hset : (dtlsSetState (rtcCallbacks ans)
      { s with dtls := { s.dtls with handshakeStarted := true } } .handshaking).view =
        s.view.handshake := by
    rw [dtlsSetState, if_neg (by simp [hinit])]
    rfl
  have htalk : Talk s.view.handshake t.view :=
    hset ▸ talk_sslIo ans _ (rtcSessionClose ans) ans.ssl.io
  have hcall : pumpSslCall (rtcCallbacks ans) ans s =
      if ans.ssl.rc = 1 then (t, true)
      else if ans.ssl.error ≠ .wantRead ∧ ans.ssl.error ≠ .wantWrite then
        (dtlsSetState (rtcCallbacks ans) t .failed, false)
      else (t, true) := by
    rw [pumpSslCall, if_pos (by rw [hstarted]; rfl)]
  -- `SSL_accept` succeeds, fails for good, or wants more data.
  split_ifs at hcall with hrc hfatal
  · have hends : ans.ssl.ends false = false := by simp [SslCall.ends, hrc]
    rw [hcall, hends]
    exact ⟨rfl, htalk⟩
  · have hends : ans.ssl.ends false = true := by simp [SslCall.ends, hrc, hfatal]
    rw [hcall, hends]
    exact ⟨rfl, view_sslEnd ans htalk (by rintro ⟨⟩) (Or.inl rfl) (by rintro ⟨⟩)⟩
  · have hends : ans.ssl.ends false = false := by
      rw [SslCall.ends, if_neg (by decide), decide_eq_false hfatal, Bool.and_false]
    rw [hcall, hends]
    exact ⟨rfl, htalk⟩

/-- The later calls, `SSL_read`: the call ends the session or leaves it talking. -/
theorem view_pumpSslCall_next (hstarted : s.dtls.handshakeStarted = true)
    (hopen : s.state ≠ .closed) (hfailed : s.dtls.state ≠ .failed)
    (hclosed : s.dtls.state ≠ .closed) :
    (pumpSslCall (rtcCallbacks ans) ans s).2 = !ans.ssl.ends true ∧
      if ans.ssl.ends true then Closes s.view (pumpSslCall (rtcCallbacks ans) ans s).1.view
      else Talk s.view (pumpSslCall (rtcCallbacks ans) ans s).1.view := by
  set t := sslIo (rtcCallbacks ans) s ans.ssl.io with ht
  have htalk : Talk s.view t.view := talk_sslIo ans s (rtcSessionClose ans) ans.ssl.io
  have hcall : pumpSslCall (rtcCallbacks ans) ans s =
      if ans.ssl.rc < 0 then
        if ans.ssl.error ≠ .wantRead ∧ ans.ssl.error ≠ .wantWrite then
          (dtlsSetState (rtcCallbacks ans) t .failed, false)
        else (t, true)
      else if ans.ssl.rc = 0 then (dtlsSetState (rtcCallbacks ans) t .closed, false)
      else (t, true) := by
    rw [pumpSslCall, if_neg (by rw [hstarted]; decide)]
  -- `SSL_read` fails for good, wants more data, reports the peer's `close_notify`, or reads.
  split_ifs at hcall with hrc hfatal hzero
  · have hends : ans.ssl.ends true = true := by simp [SslCall.ends, hrc, hfatal]
    rw [hcall, hends]
    exact ⟨rfl, view_sslEnd ans htalk hopen (Or.inl rfl) hfailed⟩
  · have hends : ans.ssl.ends true = false := by
      rw [SslCall.ends, if_pos rfl, decide_eq_false hfatal, Bool.and_false, Bool.false_or]
      exact decide_eq_false hrc.ne
    rw [hcall, hends]
    exact ⟨rfl, htalk⟩
  · have hends : ans.ssl.ends true = true := by simp [SslCall.ends, hzero]
    rw [hcall, hends]
    exact ⟨rfl, view_sslEnd ans htalk hopen (Or.inr rfl) hclosed⟩
  · have hends : ans.ssl.ends true = false := by simp [SslCall.ends, hrc, hzero]
    rw [hcall, hends]
    exact ⟨rfl, htalk⟩

/-- The check of the certificate logs the comparison at most. It passes when there is nothing to
compare with, or when the digest was found equal. -/
theorem view_fingerprintCheck :
    Talk s.view (fingerprintCheck lib ans s).1.view ∧
      ((fingerprintCheck lib ans s).2 = true →
        s.view.expectedFingerprint = [] ∨ (fingerprintCheck lib ans s).1.view.Verified lib) := by
  rw [fingerprintCheck]
  split_ifs with hempty
  · exact ⟨Talk.refl _, fun _ ↦ Or.inl hempty⟩
  rcases ans.peerCertificate with - | peer
  · exact ⟨Talk.refl _, fun h ↦ nomatch h⟩
  dsimp only
  rcases hmd : lib.x509Digest peer with - | md
  · exact ⟨Talk.refl _, fun h ↦ nomatch h⟩
  dsimp only
  set ok := fingerprintHexEqual s.dtls.expectedFingerprint md with hok
  refine ⟨Talk.emit (v := s.view) (e := .fingerprintCompared peer md ok) (Or.inl hempty),
    fun h ↦ Or.inr ⟨peer, md, hmd, hok.symm.trans h, ?_⟩⟩
  rw [h]
  exact List.mem_cons_self

/-- **The keys.** Deriving them logs the comparison at most; when it succeeds they are ready, and the
peer is verified unless the offer had no fingerprint. -/
theorem view_deriveSrtpKeys :
    ∃ w, Talk s.view w ∧
      if (deriveSrtpKeys lib ans s).2 then
        (deriveSrtpKeys lib ans s).1.view = { w with srtpReady := true } ∧
          (w.expectedFingerprint = [] ∨ w.Verified lib)
      else (deriveSrtpKeys lib ans s).1.view = w := by
  rw [deriveSrtpKeys]
  rcases ans.keyingMaterial with - | material
  · exact ⟨s.view, Talk.refl _, rfl⟩
  dsimp only
  rcases ans.srtpCreateOut with - | -
  · exact ⟨s.view, Talk.refl _, rfl⟩
  rcases ans.srtpCreateIn with - | -
  · exact ⟨s.view, Talk.refl _, rfl⟩
  simp only [Bool.not_true, Bool.false_eq_true, if_false]
  set t : RtcSession :=
    { s with
      dtls :=
        { s.dtls with
          srtpOut := some ⟨(material.drop 16).take 16 ++ (material.drop 46).take 14, 0⟩
          srtpIn := some ⟨material.take 16 ++ (material.drop 32).take 14, 0⟩ } }
  obtain ⟨htalk, hok⟩ := view_fingerprintCheck lib ans t
  have hexpected : (fingerprintCheck lib ans t).1.view.expectedFingerprint =
      s.view.expectedFingerprint := by
    obtain ⟨new, -, hnew⟩ := htalk
    exact congrArg (fun v ↦ v.expectedFingerprint) hnew
  rcases hcheck : fingerprintCheck lib ans t with ⟨u, - | -⟩
  · rw [hcheck] at htalk
    exact ⟨u.view, htalk, rfl⟩
  · rw [hcheck] at htalk hok hexpected
    exact ⟨u.view, htalk, rfl, hexpected ▸ hok rfl⟩

/-- The request for a keyframe only talks to the server. -/
theorem talk_rtcSessionRequestIdr : Talk s.view (rtcSessionRequestIdr ans s).view := by
  rw [rtcSessionRequestIdr]
  split_ifs
  · exact Talk.refl _
  · dsimp only
    split_ifs
    · exact Talk.refl _
    · exact Talk.emit (v := s.view) (Or.inl trivial)

/-- What `pump_ssl` makes of a session after the OpenSSL call. -/
inductive Pumped (lib : Libraries) (v : SessionView) : Bool → SessionView → Prop
  /-- The handshake is not over, or was over before. -/
  | idle : Pumped lib v false v
  /-- The keys could not be derived. -/
  | failed {w : SessionView} (h : Closes v w) : Pumped lib v true w
  /-- They were. -/
  | connected {u w : SessionView} (h : Talk v u)
      (hfp : u.expectedFingerprint = [] ∨ u.Verified lib) (h' : Talk u.connect w) :
      Pumped lib v true w

/-- **The end of the pump.** -/
theorem view_pumpSslKeys (hstate : s.state ≠ .closed) (hfailed : s.dtls.state ≠ .failed)
    (hready : s.dtls.srtpReady = false → s.dtls.state = .handshaking) :
    Pumped lib s.view (!s.dtls.srtpReady && ans.initFinished)
      (pumpSslKeys lib (rtcCallbacks ans) ans s).view := by
  rw [pumpSslKeys]
  rcases hr : s.dtls.srtpReady with - | -
  swap
  · exact Pumped.idle
  rcases ans.initFinished with - | -
  · exact Pumped.idle
  simp only [Bool.not_false, true_and, if_true, Bool.and_self]
  obtain ⟨w, htalk, hkeys⟩ := view_deriveSrtpKeys lib ans s
  rcases hderive : deriveSrtpKeys lib ans s with ⟨t, - | -⟩ <;> rw [hderive] at hkeys
  · have hkeys : t.view = w := hkeys
    exact .failed (view_sslEnd ans (hkeys.symm ▸ htalk) hstate (Or.inl rfl) hfailed)
  · obtain ⟨hview, hfp⟩ : t.view = { w with srtpReady := true } ∧ _ := hkeys
    have hengine : t.dtls.state = .handshaking := by
      have := congrArg SessionView.engine hview
      exact this.trans (htalk.engine_eq.trans (hready hr))
    -- `on_state` does nothing for a connected engine; `on_connected` starts the stream.
    refine .connected htalk hfp ?_
    have hset : dtlsSetState (rtcCallbacks ans) t .connected =
        { t with dtls := { t.dtls with state := .connected } } := by
      rw [dtlsSetState, if_neg (by rw [hengine]; decide)]
      rfl
    have hconnect : (setState (dtlsSetState (rtcCallbacks ans) t .connected) .streaming).view =
        w.connect := by
      rw [hset]
      show { t.view with state := .streaming, engine := .connected } = w.connect
      rw [hview]
      rfl
    have := talk_rtcSessionRequestIdr ans
      (setState (dtlsSetState (rtcCallbacks ans) t .connected) .streaming)
    rw [hconnect] at this
    exact this

/-- The view once the handshake is under way. -/
def SessionView.started (v : SessionView) : SessionView :=
  if v.handshakeStarted then v else v.handshake

/-- A session with a peer that is open, in terms of its engine. -/
theorem engine_of_inPhase {v : SessionView} (hphase : v.InPhase) (hopen : v.state ≠ .closed)
    (hremote : v.haveRemote = true) :
    (v.handshakeStarted = false ∧ v.state = .ice ∧ v.engine = .init ∧ v.srtpReady = false) ∨
      (v.handshakeStarted = true ∧ v.state = .dtls ∧ v.engine = .handshaking ∧ v.srtpReady = false) ∨
      (v.handshakeStarted = true ∧ v.state = .streaming ∧ v.engine = .connected ∧
        v.srtpReady = true) := by
  rw [SessionView.InPhase] at hphase
  rcases hstate : v.state with - | - | - | - | - <;> simp only [hstate] at hphase
  case new => exact absurd (hremote.symm.trans hphase.2.2.2) (by decide)
  case closed => exact absurd hstate hopen
  case ice => exact Or.inl ⟨hphase.2.1, rfl, hphase.1, hphase.2.2.1⟩
  case dtls => exact Or.inr (Or.inl ⟨hphase.2.1, rfl, hphase.1, hphase.2.2.1⟩)
  case streaming => exact Or.inr (Or.inr ⟨hphase.2.1, rfl, hphase.1, hphase.2.2.1⟩)

/-- **The OpenSSL call** of an open session with a peer: the handshake is started if it was not, and the
call ends the session or leaves it talking. -/
theorem view_pumpSslCall (hphase : s.view.InPhase) (hopen : s.state ≠ .closed)
    (hremote : s.haveRemote = true) :
    (pumpSslCall (rtcCallbacks ans) ans s).2 = !ans.ssl.ends s.dtls.handshakeStarted ∧
      if ans.ssl.ends s.dtls.handshakeStarted then
        Closes s.view.started (pumpSslCall (rtcCallbacks ans) ans s).1.view
      else Talk s.view.started (pumpSslCall (rtcCallbacks ans) ans s).1.view := by
  have hstarted : s.view.started =
      if s.dtls.handshakeStarted then s.view else s.view.handshake := rfl
  rcases engine_of_inPhase hphase hopen hremote with ⟨hs, -, he, -⟩ | ⟨hs, -, he, -⟩ | ⟨hs, -, he, -⟩
  all_goals
    replace hs : s.dtls.handshakeStarted = _ := hs
    replace he : s.dtls.state = _ := he
    rw [hstarted, hs]
  · exact view_pumpSslCall_first ans s hs he
  · exact view_pumpSslCall_next ans s hs hopen (by rw [he]; decide) (by rw [he]; decide)
  · exact view_pumpSslCall_next ans s hs hopen (by rw [he]; decide) (by rw [he]; decide)

/-- Once the handshake is under way: the session is open, and without keys the engine is at it. -/
theorem started_spec {v : SessionView} (hphase : v.InPhase) (hopen : v.state ≠ .closed)
    (hremote : v.haveRemote = true) :
    v.started.state ≠ .closed ∧ v.started.engine ≠ .failed ∧ v.started.srtpReady = v.srtpReady ∧
      (v.srtpReady = false → v.started.state = .dtls ∧ v.started.engine = .handshaking) := by
  rw [SessionView.started]
  rcases engine_of_inPhase hphase hopen hremote with
    ⟨hs, hst, he, hr⟩ | ⟨hs, hst, he, hr⟩ | ⟨hs, hst, he, hr⟩ <;>
  simp [hs, hst, he, hr, SessionView.handshake]

/-- **The pump.** On an open session with a peer the handshake is started; a call that ends the session
closes it, and otherwise the keys are looked after. -/
theorem view_pumpSsl (hphase : s.view.InPhase) (hopen : s.state ≠ .closed)
    (hremote : s.haveRemote = true) :
    if ans.ssl.ends s.dtls.handshakeStarted then
      Closes s.view.started (pumpSsl lib (rtcCallbacks ans) ans s).view
    else ∃ v, Talk s.view.started v ∧
      Pumped lib v (!s.dtls.srtpReady && ans.initFinished)
        (pumpSsl lib (rtcCallbacks ans) ans s).view := by
  have hrun : ¬ (s.dtls.state = .closed ∨ s.dtls.state = .failed) := by
    rcases engine_of_inPhase hphase hopen hremote with ⟨-, -, he, -⟩ | ⟨-, -, he, -⟩ | ⟨-, -, he, -⟩ <;>
      simp [show s.dtls.state = _ from he]
  obtain ⟨hsnd, hcall⟩ := view_pumpSslCall ans s hphase hopen hremote
  obtain ⟨hstate, hfailed, hready, hengine⟩ := started_spec hphase hopen hremote
  rw [pumpSsl, if_neg hrun]
  rcases hpair : pumpSslCall (rtcCallbacks ans) ans s with ⟨t, go⟩
  rw [hpair] at hsnd hcall
  rcases hends : ans.ssl.ends s.dtls.handshakeStarted with - | - <;> rw [hends] at hsnd hcall
  · -- The pump goes on to the keys, on a session that has only talked so far.
    obtain rfl : go = true := hsnd
    have htalk : Talk s.view.started t.view := hcall
    have hr : t.dtls.srtpReady = s.dtls.srtpReady := htalk.srtpReady_eq.trans hready
    have hpumped := view_pumpSslKeys lib ans t (fun he ↦ hstate (htalk.state_eq.symm.trans he))
      (fun he ↦ hfailed (htalk.engine_eq.symm.trans he))
      fun he ↦ htalk.engine_eq.trans (hengine (hr.symm.trans he)).2
    rw [hr] at hpumped
    exact ⟨t.view, htalk, hpumped⟩
  · obtain rfl : go = false := hsnd
    exact hcall

/-- What `pump_ssl` does is an inner step, of a session in its handshake if the engine finishes. -/
theorem Pumped.inner {lib : Libraries} {asked : List ℕ} {v w : SessionView} {b : Bool} (h : Pumped lib v b w)
    (hv : b = true → v.state = .dtls) : Inner lib asked v w := by
  cases h with
  | idle => exact .refl
  | failed h => exact h.inner fun he ↦ nomatch he.symm.trans (hv rfl)
  | connected h hfp h' =>
    exact (h.inner.tail (InnerStep.connect _ (h.state_eq.trans (hv rfl)) hfp)).trans h'.inner

/-- A session with a peer may start its handshake. -/
theorem inner_started {v : SessionView} (hphase : v.InPhase) (hopen : v.state ≠ .closed)
    (hremote : v.haveRemote = true) : Inner lib asked v v.started := by
  rw [SessionView.started]
  split_ifs with hs
  · exact .refl
  · rcases engine_of_inPhase hphase hopen hremote with ⟨-, hice, -⟩ | ⟨hs', -⟩ | ⟨hs', -⟩
    · exact .single (InnerStep.handshake v hice)
    · exact absurd hs' hs
    · exact absurd hs' hs

/-- The pump is a chain of inner steps, on any session with a peer. -/
theorem inner_pumpSsl (hphase : s.view.InPhase) (hremote : s.haveRemote = true) :
    Inner lib asked s.view (pumpSsl lib (rtcCallbacks ans) ans s).view := by
  rcases eq_or_ne s.state .closed with hclosed | hopen
  · have hengine : s.dtls.state = .closed := by
      have := hphase
      simpa only [SessionView.InPhase, RtcSession.view, hclosed] using this
    rw [pumpSsl, if_pos (Or.inl hengine)]
  · have hpump := view_pumpSsl lib ans s hphase hopen hremote
    obtain ⟨hstate, -, -, hengine⟩ := started_spec hphase hopen hremote
    refine (inner_started lib hphase hopen hremote).trans ?_
    split_ifs at hpump
    · exact hpump.inner hstate
    · obtain ⟨v, htalk, hpumped⟩ := hpump
      refine htalk.inner.trans (hpumped.inner fun hb ↦ htalk.state_eq.trans (hengine ?_).1)
      exact Bool.not_eq_true' _ ▸ (Bool.and_eq_true_iff.1 hb).1

/-! ### The engine's entry points -/

/-- The queue of received datagrams is not part of the view. -/
theorem view_rxqMakeRoom (rxq : ℕ → Option (List UInt8)) (tail count : ℕ) :
    RtcSession.view { s with
      dtls := { rxqMakeRoom s.dtls with rxq := rxq, rxTail := tail, rxCount := count } } = s.view := by
  rw [rxqMakeRoom]
  split_ifs <;> rfl

/-- A DTLS record from the peer. -/
theorem inner_dtlsSrtpOnUdp (hphase : s.view.InPhase) (hremote : s.haveRemote = true)
    (packet : List UInt8) :
    Inner lib asked s.view (dtlsSrtpOnUdp lib (rtcCallbacks ans) ans s packet).view := by
  rw [dtlsSrtpOnUdp]
  split_ifs
  · exact .refl
  · dsimp only
    rw [view_rxqMakeRoom s _ (rxqMakeRoom s.dtls).rxTail (rxqMakeRoom s.dtls).rxCount]
  · dsimp only
    have hqueue := view_rxqMakeRoom s
      (Function.update (rxqMakeRoom s.dtls).rxq (rxqMakeRoom s.dtls).rxTail (some packet))
      (((rxqMakeRoom s.dtls).rxTail + 1) % dtlsRxQueue) ((rxqMakeRoom s.dtls).rxCount + 1)
    have hpump : Inner lib asked _ _ := inner_pumpSsl lib ans { s with
      dtls :=
        { rxqMakeRoom s.dtls with
          rxq := Function.update (rxqMakeRoom s.dtls).rxq (rxqMakeRoom s.dtls).rxTail (some packet)
          rxTail := ((rxqMakeRoom s.dtls).rxTail + 1) % dtlsRxQueue
          rxCount := (rxqMakeRoom s.dtls).rxCount + 1 } } (hqueue.symm ▸ hphase) hremote
    rwa [hqueue] at hpump

/-- Only a handshake under way has a timer; its session is in the DTLS phase. -/
theorem state_of_handshaking {v : SessionView} (hphase : v.InPhase) (h : v.engine = .handshaking) :
    v.state = .dtls ∧ v.handshakeStarted = true ∧ v.srtpReady = false ∧ v.haveRemote = true := by
  rw [SessionView.InPhase] at hphase
  rcases hstate : v.state with - | - | - | - | - <;> simp only [hstate, h] at hphase
  case dtls => exact ⟨rfl, hphase.2⟩
  all_goals simp at hphase

/-- The timer of `dtls_srtp_tick` talks at most, and the pump runs as after a datagram. -/
theorem view_dtlsSrtpTick (hphase : s.view.InPhase) (hengine : s.dtls.state = .handshaking) :
    if ans.ssl.ends true then
      Closes s.view (dtlsSrtpTick lib (rtcCallbacks ans) ans s).view
    else ∃ v, Talk s.view v ∧
      Pumped lib v ans.initFinished (dtlsSrtpTick lib (rtcCallbacks ans) ans s).view := by
  obtain ⟨hstate, hstarted, hready, hremote⟩ := state_of_handshaking hphase hengine
  set t : RtcSession :=
    if ans.dtlsTimeout = some (0, 0) then sslIo (rtcCallbacks ans) s ans.handleTimeout else s with ht
  have htalk : Talk s.view t.view := by
    rw [ht]
    split_ifs
    · exact talk_sslIo ans s (rtcSessionClose ans) ans.handleTimeout
    · exact Talk.refl _
  have htick : dtlsSrtpTick lib (rtcCallbacks ans) ans s = pumpSsl lib (rtcCallbacks ans) ans t := by
    rw [dtlsSrtpTick, if_neg (not_not.2 hengine)]
  -- The timer has changed nothing the pump depends on.
  have htstarted : t.dtls.handshakeStarted = true := by
    obtain ⟨new, -, hnew⟩ := htalk
    exact (congrArg SessionView.handshakeStarted hnew).trans hstarted
  have htready : t.dtls.srtpReady = false := htalk.srtpReady_eq.trans hready
  have htstate : t.state = .dtls := htalk.state_eq.trans hstate
  have htremote : t.haveRemote = true := by
    obtain ⟨new, -, hnew⟩ := htalk
    exact (congrArg (fun v ↦ v.haveRemote) hnew).trans hremote
  have hpump := view_pumpSsl lib ans t (htalk.inPhase hphase) (by rw [htstate]; decide) htremote
  have hunder : t.view.started = t.view := by
    rw [SessionView.started, if_pos (show t.view.handshakeStarted = true from htstarted)]
  rw [htstarted, hunder, htready] at hpump
  rw [htick]
  split_ifs at hpump ⊢
  · exact htalk.closes hpump
  · obtain ⟨v, hv, hpumped⟩ := hpump
    exact ⟨v, htalk.trans hv, hpumped⟩

/-- The timer of the handshake. -/
theorem inner_dtlsSrtpTick (hphase : s.view.InPhase) :
    Inner lib asked s.view (dtlsSrtpTick lib (rtcCallbacks ans) ans s).view := by
  rcases eq_or_ne s.dtls.state .handshaking with hengine | hengine
  · obtain ⟨hstate, -⟩ := state_of_handshaking hphase hengine
    have htick := view_dtlsSrtpTick lib ans s hphase hengine
    split_ifs at htick
    · exact htick.inner (by rw [hstate]; decide)
    · obtain ⟨v, htalk, hpumped⟩ := htick
      exact htalk.inner.trans (hpumped.inner fun _ ↦ htalk.state_eq.trans hstate)
  · rw [dtlsSrtpTick, if_pos hengine]

/-- Sending a protected RTCP packet talks at most. -/
theorem talk_dtlsSrtpSendRtcp (pkt : List UInt8) :
    Talk s.view (dtlsSrtpSendRtcp lib (rtcCallbacks ans) s pkt).1.view := by
  rw [dtlsSrtpSendRtcp]
  split_ifs
  · exact Talk.refl _
  rcases s.dtls.srtpOut with - | ctx
  · exact Talk.refl _
  dsimp only
  rcases lib.srtpProtectRtcp ctx.key ctx.calls pkt with - | data
  · exact Talk.refl _
  · exact (Talk.emit (v := s.view) (e := .rtcpProtected pkt) (Or.inl trivial)).trans
      (talk_dtlsSendUdp (RtcSession.emit
        { s with dtls := { s.dtls with srtpOut := some ⟨ctx.key, ctx.calls + 1⟩ } }
        (.rtcpProtected pkt)) .srtcp trivial data)

/-- Taking the protection off a packet is not visible. -/
theorem view_dtlsSrtpUnprotectRtcp (pkt : List UInt8) :
    (dtlsSrtpUnprotectRtcp lib s pkt).1.view = s.view := by
  rw [dtlsSrtpUnprotectRtcp]
  split_ifs
  · rfl
  rcases s.dtls.srtpIn with - | ctx <;> rfl

/-! ### Feedback and sender reports -/

/-- The body of the loop over a NACK sends what the cache holds. -/
theorem view_retransmit (seq : ℕ) : (retransmit s seq).view = s.view.resend seq := by
  have hcache : s.view.cache (seq % retxCacheSize) =
      cacheEntry (s.retxData (seq % retxCacheSize)) (s.retxLen (seq % retxCacheSize)) := rfl
  rw [SessionView.resend, hcache, cacheEntry, retransmit]
  dsimp only
  rcases Nat.eq_zero_or_pos (s.retxLen (seq % retxCacheSize)) with hlen | hlen
  · rw [hlen]
    rfl
  · rw [if_pos hlen, if_pos hlen]
    show (dtlsSendUdp (.retransmission seq) s _).view = if s.udpFd < 0 ∨ !s.haveRemote then _ else _
    rw [dtlsSendUdp]
    split_ifs <;> rfl

/-- **A NACK.** Every packet it names is sent again from the cache. -/
theorem view_onNacks (nackSeq : List ℕ) :
    (onNacks s nackSeq).view = nackSeq.foldl SessionView.resend s.view := by
  rw [onNacks]
  set t : RtcSession :=
    { s with
      stats :=
        { s.stats with nacksReceived := s.stats.nacksReceived + UInt32.ofNat nackSeq.length } }
  show _ = nackSeq.foldl SessionView.resend t.view
  clear_value t
  induction nackSeq generalizing t with
  | nil => rfl
  | cons seq seqs ih =>
    rw [List.foldl_cons, List.foldl_cons, ih, view_retransmit]

/-- Sending again is a chain of inner steps. -/
theorem inner_foldl_resend (v : SessionView) {seqs : List ℕ} (h : seqs ⊆ asked) :
    Inner lib asked v (seqs.foldl SessionView.resend v) := by
  induction seqs generalizing v with
  | nil => exact .refl
  | cons seq seqs ih =>
    obtain ⟨hseq, hseqs⟩ := List.cons_subset.1 h
    refine Relation.ReflTransGen.trans ?_ (ih (v.resend seq) hseqs)
    rw [SessionView.resend]
    rcases hcache : v.cache (seq % retxCacheSize) with - | data
    · exact .refl
    dsimp only
    split_ifs with hclosed
    · exact .refl
    · have hremote : v.haveRemote = true := by simpa using (not_or.1 hclosed).2
      exact .single (InnerStep.send v (.retransmission seq) data hremote ⟨hseq, hcache⟩)

/-- A lost picture is asked for again. -/
theorem talk_onPictureLoss (feedback : RtcpFeedback) :
    Talk s.view (onPictureLoss ans s feedback).view := by
  rw [onPictureLoss]
  split_ifs
  · exact talk_rtcSessionRequestIdr ans
      { s with
        stats :=
          { s.stats with
            pliReceived := s.stats.pliReceived + UInt32.ofNat feedback.pli
              + UInt32.ofNat feedback.fir } }
  · exact Talk.refl _

/-- Feedback closes the session with a BYE; otherwise it talks and answers the NACKs. -/
theorem inner_dtlsOnRtcp (hopen : s.state ≠ .closed) (packet : List UInt8) :
    Inner lib
      (if (rtcpParse packet packet.length).bye then [] else (rtcpParse packet packet.length).nackSeq)
      s.view (dtlsOnRtcp ans s packet).view := by
  rw [dtlsOnRtcp]
  split_ifs
  · exact (closes_rtcSessionClose ans s hopen).inner hopen
  · rw [view_onNacks]
    exact (talk_onPictureLoss ans s _).inner.trans (inner_foldl_resend lib _ (List.Subset.refl _))

/-- A sender report is talk. -/
theorem talk_senderReport (now : ℕ) : Talk s.view (senderReport lib ans s now).view := by
  have htalk := talk_dtlsSrtpSendRtcp lib ans s
    (rtcpBuildSenderReport s.rtp.ssrc ans.wallUs s.rtp.lastTimestamp s.rtp.packets s.rtp.octets)
  rw [senderReport]
  dsimp only
  rcases hsend : dtlsSrtpSendRtcp lib (rtcCallbacks ans) s
    (rtcpBuildSenderReport s.rtp.ssrc ans.wallUs s.rtp.lastTimestamp s.rtp.packets s.rtp.octets)
    with ⟨t, - | data⟩
  all_goals
    rw [hsend] at htalk
    exact htalk

/-! ### Sending media -/

/-- Copying a packet over a slot replaces its entry. -/
theorem cacheEntry_writeAt (old data : List UInt8) :
    cacheEntry (Bytes.writeAt old 0 data) (data.length % 2 ^ 16) =
      cacheEntry data (data.length % 2 ^ 16) := by
  unfold cacheEntry Bytes.writeAt
  rw [List.take_zero, List.nil_append, List.take_append_of_le_length (Nat.mod_le _ _)]

/-- The two arrays of the cache after a packet was stored, as one function. -/
theorem cache_update (retxData : ℕ → List UInt8) (retxLen : ℕ → ℕ) (slot : ℕ) (data : List UInt8) :
    (fun k ↦ cacheEntry (Function.update retxData slot (Bytes.writeAt (retxData slot) 0 data) k)
      (Function.update retxLen slot (data.length % 2 ^ 16) k)) =
    Function.update (fun k ↦ cacheEntry (retxData k) (retxLen k)) slot
      (cacheEntry data (data.length % 2 ^ 16)) := by
  funext k
  rcases eq_or_ne k slot with rfl | hne
  · simp only [Function.update_self, cacheEntry_writeAt]
  · simp only [Function.update_of_ne hne]

/-- `dtls_srtp_send_rtp` counts its use of the context, and sends the packet if it could be protected. -/
theorem dtlsSrtpSendRtp_cases (cb : DtlsSrtpCallbacks) (pkt : List UInt8) :
    (∃ t : RtcSession, dtlsSrtpSendRtp lib cb s pkt = (t, none) ∧ t.view = s.view ∧ t.rtp = s.rtp) ∨
      ∃ (t : RtcSession) (key : List UInt8) (calls : ℕ) (data : List UInt8),
        lib.srtpProtect key calls pkt = some data ∧ t.view = s.view ∧ t.rtp = s.rtp ∧
        t.retxData = s.retxData ∧ t.retxLen = s.retxLen ∧
        dtlsSrtpSendRtp lib cb s pkt = (cb.sendUdp .srtp (t.emit (.rtpProtected data)) data, some data) := by
  rw [dtlsSrtpSendRtp]
  split_ifs
  · exact Or.inl ⟨s, rfl, rfl, rfl⟩
  rcases s.dtls.srtpOut with - | ctx
  · exact Or.inl ⟨s, rfl, rfl, rfl⟩
  dsimp only
  set t : RtcSession := { s with dtls := { s.dtls with srtpOut := some ⟨ctx.key, ctx.calls + 1⟩ } }
  rcases hdata : lib.srtpProtect ctx.key ctx.calls pkt with - | data
  · exact Or.inl ⟨t, rfl, rfl, rfl⟩
  · exact Or.inr ⟨t, ctx.key, ctx.calls, data, hdata, rfl, rfl, rfl, rfl, rfl⟩

/-- A packet that could not be protected leaves no trace. -/
theorem rtpPacketSink_of_none {call : SinkCall}
    (h : (dtlsSrtpSendRtp lib (rtcCallbacks ans) s call.packet).2 = none) :
    (rtpPacketSink lib ans s call).view = s.view ∧ (rtpPacketSink lib ans s call).rtp = s.rtp := by
  rw [rtpPacketSink]
  split_ifs
  · exact ⟨rfl, rfl⟩
  rcases dtlsSrtpSendRtp_cases lib s (rtcCallbacks ans) call.packet with
    ⟨t, ht, hview, hrtp⟩ | ⟨_, _, _, _, -, -, -, -, -, ht⟩
  all_goals rw [ht] at h ⊢
  · exact ⟨hview, hrtp⟩
  · exact absurd h (Option.some_ne_none _)

/-- **The packet sink.** A packet that is protected enters the cache, and is sent. The datagram goes out
before the packet is stored; the log does not tell. -/
theorem talk_rtpPacketSink {call : SinkCall} {data : List UInt8}
    (hfits : call.packet.length ≤ rtpMaxPacket + 64)
    (h : (dtlsSrtpSendRtp lib (rtcCallbacks ans) s call.packet).2 = some data) :
    Talk (s.view.store call.sequence.toNat data) (rtpPacketSink lib ans s call).view ∧
      (rtpPacketSink lib ans s call).rtp = s.rtp := by
  rcases dtlsSrtpSendRtp_cases lib s (rtcCallbacks ans) call.packet with
    ⟨t, ht, -, -⟩ | ⟨t, _, _, sent, -, hview, hrtp, hdata, hlen, ht⟩
  all_goals rw [ht] at h
  · exact absurd h.symm (Option.some_ne_none _)
  obtain rfl : sent = data := Option.some.inj h
  rw [rtpPacketSink, if_neg (Nat.not_lt.2 hfits), ht, show (rtcCallbacks ans).sendUdp = dtlsSendUdp from rfl]
  dsimp only
  set u := dtlsSendUdp .srtp (t.emit (.rtpProtected sent)) sent with hu
  -- Sending the packet has not touched the arrays it is copied into.
  have hkept : u.retxData = s.retxData ∧ u.retxLen = s.retxLen ∧ u.rtp = s.rtp := by
    rw [hu, dtlsSendUdp, ← hrtp, ← hdata, ← hlen]
    split_ifs <;> exact ⟨rfl, rfl, rfl⟩
  obtain ⟨new, hnew, hsent⟩ := talk_dtlsSendUdp (t.emit (.rtpProtected sent)) .srtp trivial sent
  have hemit : (t.emit (.rtpProtected sent)).view = s.view.emit (.rtpProtected sent) :=
    congrArg (fun v ↦ v.emit (.rtpProtected sent)) hview
  rw [hemit] at hnew hsent
  have hstored : (RtcSession.view { u with
      retxData := Function.update u.retxData (call.sequence.toNat % retxCacheSize)
        (Bytes.writeAt (u.retxData (call.sequence.toNat % retxCacheSize)) 0 sent)
      retxLen := Function.update u.retxLen (call.sequence.toNat % retxCacheSize)
        (sent.length % 2 ^ 16) }) =
      { u.view with
        cache := Function.update s.view.cache (call.sequence.toNat % retxCacheSize)
          (cacheEntry sent (sent.length % 2 ^ 16)) } := by
    simp only [RtcSession.view, cache_update, hkept]
  refine ⟨⟨new, hnew, ?_⟩, hkept.2.2⟩
  refine Eq.trans ?_ (hstored.trans ?_)
  · rfl
  · rw [hsent]
    rfl

/-- A packet of the media. -/
theorem inner_rtpPacketSink {call : SinkCall} (hcall : call.WellFormed) :
    Inner lib asked s.view (rtpPacketSink lib ans s call).view := by
  by_cases hfits : call.packet.length ≤ rtpMaxPacket + 64
  · rcases dtlsSrtpSendRtp_cases lib s (rtcCallbacks ans) call.packet with
      ⟨t, ht, -, -⟩ | ⟨t, key, calls, data, hdata, -, -, -, -, ht⟩
    · rw [(rtpPacketSink_of_none lib ans s (by rw [ht])).1]
    · exact .head (InnerStep.store s.view call key calls data hcall hfits hdata)
        (talk_rtpPacketSink lib ans s hfits (by rw [ht])).1.inner
  · rw [rtpPacketSink, if_pos (Nat.not_le.1 hfits)]

/-- One inner chain for a whole list of packets. -/
theorem inner_foldl_rtpPacketSink {calls : List SinkCall} (hcalls : ∀ c ∈ calls, c.WellFormed) :
    Inner lib asked s.view (calls.foldl (rtpPacketSink lib ans) s).view := by
  induction calls generalizing s with
  | nil => exact .refl
  | cons c calls ih =>
    exact (inner_rtpPacketSink lib ans s (hcalls c List.mem_cons_self)).trans
      (ih (rtpPacketSink lib ans s c) fun c' hc' ↦ hcalls c' (List.mem_cons_of_mem _ hc'))

/-- The request for a keyframe is not part of the view. -/
theorem view_idrRequested (p : Prop) [Decidable p] (requested : Bool) :
    (if p then { s with idrRequested := requested } else s : RtcSession).view = s.view := by
  split_ifs <;> rfl

/-- The packets of an access unit, by induction. -/
theorem inner_rtcSessionSendAccessUnit (accessUnit : List UInt8) (ptsUs : UInt64) (isIdr : Bool) :
    Inner lib asked s.view (rtcSessionSendAccessUnit lib ans s accessUnit ptsUs isIdr).1.view := by
  rw [rtcSessionSendAccessUnit]
  set t : RtcSession := if isIdr ∧ s.idrRequested then { s with idrRequested := false } else s
  have hview : t.view = s.view := view_idrRequested _ _ _
  dsimp only
  split_ifs
  · rw [hview]
  · rw [← hview]
    exact inner_foldl_rtpPacketSink lib ans
      { t with rtp := (rtpH264Packetize t.rtp accessUnit ptsUs).1 }
      (sinkCalls_wellFormed t.rtp accessUnit ptsUs)

/-! ### Datagrams -/

/-- A check that is rejected is answered and forgotten. -/
theorem talk_stunReject (tid : List UInt8) (source : SockAddr) :
    Talk s.view (stunReject ans s tid source).view := by
  rw [stunReject, stunSendError]
  rcases stunBuildErrorResponse tid 401 ans.stack 64 with - | ⟨err, errLen⟩
  · exact Talk.refl _
  · exact Talk.emit (v := s.view) (Or.inl trivial)

/-- The peer moves to the source of a check if address or port differ. -/
theorem moves_iff {v : SessionView} (hremote : v.haveRemote = true) (source : SockAddr) :
    v.moves source = true ↔
      source.sinAddr ≠ v.remote.sinAddr ∨ source.sinPort ≠ v.remote.sinPort := by
  rw [SessionView.moves, hremote, Bool.not_true, Bool.false_or, Bool.or_eq_true, bne_iff_ne,
    bne_iff_ne]

/-- Following the peer, without the start of ICE. -/
theorem view_followPeer (source : SockAddr) :
    (followPeer s source).view = { s.view.accept source with state := s.state } := by
  rw [followPeer, SessionView.accept]
  rcases hremote : s.haveRemote with - | -
  all_goals have hview : s.view.haveRemote = s.haveRemote := rfl
  · have hmoves : s.view.moves source = true := by
      rw [SessionView.moves, hview, hremote]
      rfl
    rw [hmoves, hview, hremote]
    rfl
  · have hiff : s.view.moves source = true ↔
        source.sinAddr ≠ s.remote.sinAddr ∨ source.sinPort ≠ s.remote.sinPort :=
      moves_iff (v := s.view) hremote source
    simp only [Bool.not_true, Bool.false_eq_true, if_false]
    rcases hmoves : s.view.moves source with - | -
    · rw [if_neg fun h ↦ absurd (hmoves.symm.trans (hiff.2 h)) (by decide), hview, hremote]
      exact congrArg (fun b ↦ { s.view with haveRemote := b }) (hview.trans hremote)
    · rw [if_pos (hiff.1 hmoves), hview, hremote]
      rfl

/-- A valid check is the abstract `accept`, and a response. -/
theorem talk_stunAccept (buffer : List UInt8) (length : ℕ) (source : SockAddr) :
    Talk (s.view.accept source) (stunAccept lib ans s buffer length source).view := by
  rw [stunAccept]
  dsimp only
  set t := followPeer
    { s with stats := { s.stats with stunOk := s.stats.stunOk + 1 } } source with ht
  have hfollow : t.view = { s.view.accept source with state := s.state } :=
    view_followPeer { s with stats := { s.stats with stunOk := s.stats.stunOk + 1 } } source
  have hstate : t.state = s.state := congrArg SessionView.state hfollow
  have hice : (if t.state = .new then setState t .ice else t).view = s.view.accept source := by
    rw [hstate]
    have haccept : (s.view.accept source).state = if s.state = .new then .ice else s.state := rfl
    split_ifs at haccept ⊢ with hnew
    · show { t.view with state := .ice } = _
      rw [hfollow, ← haccept]
    · rw [hfollow, ← haccept]
  rw [← hice]
  set u := if t.state = .new then setState t .ice else t
  rcases stunBuildBindingResponse lib.hmac u.localPwd buffer length source ans.stack 128
    with - | ⟨response, responseLen⟩
  · exact Talk.refl _
  · exact Talk.emit (v := u.view) (e := .sendStun (response.take responseLen) source)
      (Or.inl trivial)

/-- A binding request starts with a zero byte, so it is classified as STUN. -/
theorem rtcClassifyPacket_of_isSome {buffer : List UInt8} {length : ℕ}
    (h : (stunIsBindingRequest buffer length).isSome = true) :
    rtcClassifyPacket buffer length = .stun := by
  rw [stunIsBindingRequest] at h
  split_ifs at h with hlen htype hcookie hlength
  · exact absurd h (by decide)
  · exact absurd h (by decide)
  · exact absurd h (by decide)
  · exact absurd h (by decide)
  · rw [stunHeaderSize] at hlen
    have hbyte : (buffer.getD 0 0).toNat = 0 := by
      have := not_not.1 htype
      rw [Bytes.readBe16] at this
      omega
    have hle : buffer.getD 0 0 ≤ 3 := by
      rw [UInt8.le_iff_toNat_le, hbyte]
      exact Nat.zero_le _
    rw [rtcClassifyPacket, if_neg (by omega), if_pos hle]

/-- **STUN datagrams.** A check that is accepted moves the peer; any other is answered at most. -/
theorem talk_onUdpStun (buffer : List UInt8) (length : ℕ) (source : SockAddr) :
    Talk (if stunAccepts lib.hmac s.localPwd s.localUfrag buffer length then s.view.accept source
      else s.view) (onUdpStun lib ans s buffer length source).view := by
  rw [onUdpStun, stunAccepts]
  dsimp only
  rcases htid : stunIsBindingRequest buffer length with - | tid
  · simp only [Option.isSome_none, Bool.false_and, Bool.false_eq_true, if_false]
    split_ifs <;> exact Talk.refl _
  dsimp only
  rcases hmi : stunVerifyMi lib.hmac buffer length s.localPwd with - | -
  · simp only [Option.isSome_some, Bool.true_and, Bool.false_and, Bool.false_eq_true, if_false,
      Bool.not_false, if_true]
    exact talk_stunReject ans { s with stats := { s.stats with stunRx := s.stats.stunRx + 1 } } tid source
  rcases huser : stunUsernameMatches buffer length s.localUfrag with - | -
  · simp only [Option.isSome_some, Bool.and_false, Bool.false_eq_true, if_false,
      Bool.not_false, Bool.not_true, if_true]
    exact talk_stunReject ans { s with stats := { s.stats with stunRx := s.stats.stunRx + 1 } } tid source
  · simp only [Option.isSome_some, Bool.and_self, if_true, Bool.not_true, Bool.false_eq_true, if_false]
    exact talk_stunAccept lib ans { s with stats := { s.stats with stunRx := s.stats.stunRx + 1 } }
      buffer length source

/-- **RTCP** is answered as its NACKs ask. -/
theorem inner_onUdpRtp (hopen : s.state ≠ .closed) {buffer : List UInt8} {length : ℕ}
    (hclass : rtcClassifyPacket buffer length = .rtp) (source : SockAddr) :
    Inner lib (nackSeqs lib s ⟨ans, .onUdp buffer length source⟩) s.view
      (onUdpRtp lib ans s buffer length).view := by
  rw [onUdpRtp, nackSeqs]
  dsimp only
  rw [hclass]
  split_ifs with hnack hrtcp hrtcp
  · have hview := view_dtlsSrtpUnprotectRtcp lib s (buffer.take length)
    rcases hunprotect : dtlsSrtpUnprotectRtcp lib s (buffer.take length) with ⟨t, - | packet⟩
    all_goals rw [hunprotect] at hview
    · exact hview ▸ .refl
    · have hstate : t.state = s.state := congrArg SessionView.state hview
      rw [← hview]
      exact inner_dtlsOnRtcp lib ans t (hstate ▸ hopen) packet
  · exact absurd hnack.2 hrtcp
  · exact absurd ⟨rfl, hrtcp⟩ hnack
  · exact .refl

/-- A session that is asked to send something again is streaming, and does just that: it talks, and then
answers the NACKs from the cache. -/
theorem view_onUdpRtp_of_nackSeqs {buffer : List UInt8} {length : ℕ} {source : SockAddr}
    (h : nackSeqs lib s ⟨ans, .onUdp buffer length source⟩ ≠ []) :
    s.state = .streaming ∧ rtcClassifyPacket buffer length = .rtp ∧
      ∃ u, Talk s.view u ∧ (onUdpRtp lib ans s buffer length).view =
        (nackSeqs lib s ⟨ans, .onUdp buffer length source⟩).foldl SessionView.resend u := by
  revert h
  rw [nackSeqs, onUdpRtp]
  dsimp only
  split_ifs with hnack hrtcp hrtcp
  · intro h
    refine ⟨hnack.2.2.2, hnack.1, ?_⟩
    have hview := view_dtlsSrtpUnprotectRtcp lib s (buffer.take length)
    rcases hunprotect : dtlsSrtpUnprotectRtcp lib s (buffer.take length) with ⟨t, - | packet⟩
    all_goals rw [hunprotect] at hview h
    · exact absurd rfl h
    · dsimp only at h ⊢
      split_ifs at h ⊢ with hbye
      · exact absurd rfl h
      · refine ⟨_, hview ▸ talk_onPictureLoss ans t (rtcpParse packet packet.length), ?_⟩
        rw [dtlsOnRtcp, if_neg hbye, view_onNacks]
  · exact absurd hnack.2 hrtcp
  · exact fun h ↦ absurd rfl h
  · exact fun h ↦ absurd rfl h

/-- What a session is asked to send again does not depend on its clocks. -/
theorem nackSeqs_arrive (e : RtcEvent) (now : ℕ) :
    nackSeqs lib { s with lastRxMs := now } e = nackSeqs lib s e := by
  have hunprotect (pkt : List UInt8) : (dtlsSrtpUnprotectRtcp lib { s with lastRxMs := now } pkt).2 =
      (dtlsSrtpUnprotectRtcp lib s pkt).2 := by
    rw [dtlsSrtpUnprotectRtcp, dtlsSrtpUnprotectRtcp]
    dsimp only
    split_ifs
    · rfl
    · rcases s.dtls.srtpIn with - | ctx <;> rfl
  obtain ⟨ans, call⟩ := e
  cases call with
  | onUdp buffer length source =>
    simp only [nackSeqs, hunprotect]
  | tick | sendAccessUnit | close | destroy => rfl

/-- A STUN datagram of an open session: its arrival, and the peer follows it if it is accepted. -/
theorem talk_rtcSessionOnUdp_stun (hopen : s.state ≠ .closed) {buffer : List UInt8} {length : ℕ}
    (hclass : rtcClassifyPacket buffer length = .stun) (source : SockAddr) :
    Talk (if stunAccepts lib.hmac s.localPwd s.localUfrag buffer length then
        (s.view.arrive ans.rxMs).accept source else s.view.arrive ans.rxMs)
      (rtcSessionOnUdp lib ans s buffer length source).view := by
  rw [rtcSessionOnUdp, if_neg hopen, hclass]
  exact talk_onUdpStun lib ans { s with lastRxMs := ans.rxMs } buffer length source

/-- **A datagram** is a front and inner steps. -/
theorem inner_rtcSessionOnUdp (hphase : s.view.InPhase) (buffer : List UInt8) (length : ℕ)
    (source : SockAddr) :
    Inner lib (nackSeqs lib s ⟨ans, .onUdp buffer length source⟩)
      (s.view.front lib ⟨ans, .onUdp buffer length source⟩)
      (rtcSessionOnUdp lib ans s buffer length source).view := by
  rw [rtcSessionOnUdp, SessionView.front]
  rcases eq_or_ne s.state .closed with hclosed | hopen
  · rw [if_pos hclosed]
    dsimp only
    rw [if_pos (show s.view.state = .closed from hclosed)]
  rw [if_neg hopen]
  dsimp only
  rw [if_neg (show s.view.state ≠ .closed from hopen)]
  set t : RtcSession := { s with lastRxMs := ans.rxMs }
  have harrive : s.view.arrive ans.rxMs = t.view := rfl
  have haccepts : s.view.accepts lib buffer length =
      stunAccepts lib.hmac t.localPwd t.localUfrag buffer length := by
    rw [SessionView.accepts, decide_eq_true (show s.view.state ≠ .closed from hopen), Bool.true_and]
    rfl
  rw [haccepts, harrive]
  -- Only what is classified as STUN can be accepted.
  have hnot : rtcClassifyPacket buffer length ≠ .stun →
      stunAccepts lib.hmac t.localPwd t.localUfrag buffer length = false := by
    intro hclass
    rcases hsome : (stunIsBindingRequest buffer length).isSome with - | -
    · rw [stunAccepts, hsome, Bool.false_and, Bool.false_and]
    · exact absurd (rtcClassifyPacket_of_isSome hsome) hclass
  rcases hclass : rtcClassifyPacket buffer length with - | - | - | -
  · exact (talk_onUdpStun lib ans t buffer length source).inner
  all_goals
    rw [hnot (by rw [hclass]; decide), if_neg (by decide)]
  · show Inner lib _ t.view (onUdpDtls lib ans t (buffer.take length)).view
    rw [onUdpDtls]
    split_ifs with hremote
    · exact inner_dtlsSrtpOnUdp lib ans t hphase hremote _
    · exact .refl
  · rw [← nackSeqs_arrive lib s _ ans.rxMs]
    exact inner_onUdpRtp lib ans t hopen hclass source

/-! ### The public operations -/

/-- Closing refines an inner step, also of a session that is closed. -/
theorem inner_rtcSessionClose : Inner lib asked s.view (rtcSessionClose ans s).view := by
  rcases eq_or_ne s.state .closed with hclosed | hopen
  · rw [rtcSessionClose_of_closed ans hclosed]
  · exact (closes_rtcSessionClose ans s hopen).inner hopen

/-- A tick: timers, handshake, report. -/
theorem inner_rtcSessionTick (hphase : s.view.InPhase) (now : ℕ) :
    Inner lib asked s.view (rtcSessionTick lib ans s now).view := by
  rw [rtcSessionTick]
  split_ifs with hclosed hidle hwatchdog
  · exact .refl
  · exact inner_rtcSessionClose lib ans s
  · exact inner_rtcSessionClose lib ans s
  · dsimp only
    split_ifs
    · exact (inner_dtlsSrtpTick lib ans s hphase).trans (talk_senderReport lib ans _ now).inner
    · exact inner_dtlsSrtpTick lib ans s hphase

/-- Freeing the session after closing it, or before, is the same to the view. -/
theorem inner_rtcSessionDestroy :
    Inner lib asked { s.view with destroyed := true } (rtcSessionDestroy ans s).view := by
  rw [rtcSessionDestroy]
  dsimp only
  split_ifs with hopen
  · obtain ⟨u, ⟨new, hnew, rfl⟩, hclose⟩ := closes_rtcSessionClose ans s hopen
    have hview : RtcSession.view { rtcSessionClose ans s with destroyed := true } =
        { (rtcSessionClose ans s).view with destroyed := true } := rfl
    refine Closes.inner ⟨{ s.view with destroyed := true, log := new ++ s.log }, ⟨new, hnew, rfl⟩, ?_⟩
      hopen
    rw [hview, hclose]
    rfl
  · exact .refl

/-- **Refinement.** Every operation of the program is a front and a chain of inner steps of the abstract
session. -/
theorem view_rtcCall (hphase : s.view.InPhase) (e : RtcEvent) :
    Inner lib (nackSeqs lib s e) (s.view.front lib e) (rtcCall lib s e).view := by
  obtain ⟨ans, call⟩ := e
  cases call with
  | onUdp buffer length source => exact inner_rtcSessionOnUdp lib ans s hphase buffer length source
  | tick now => exact inner_rtcSessionTick lib ans s hphase now
  | sendAccessUnit accessUnit ptsUs isIdr =>
    exact inner_rtcSessionSendAccessUnit lib ans s accessUnit ptsUs isIdr
  | close => exact inner_rtcSessionClose lib ans s
  | destroy => exact inner_rtcSessionDestroy lib ans s

end Camstream
