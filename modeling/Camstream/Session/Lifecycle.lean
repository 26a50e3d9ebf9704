import Camstream.Lib.Run
import Camstream.Stun.Authentication
import Camstream.Session.Refinement

/-!
# The life cycle of a session

Runs of a session from its creation: any datagrams, ticks, access units and calls of close and destroy,
with any answers of the clocks, the allocator and the DTLS library.

The abstract life cycle (`SessionView.Lifecycle`) is kept by every front and every inner step, so it is
kept by every operation and holds of every state a run reaches. The other invariants of runs are proved
on top of it, by `run_invariant`.
-/

namespace Camstream

variable {lib : Libraries} {env : CreateAnswers} {config : RtcSessionConfig} {s₀ s s' : RtcSession}
  {es : List RtcEvent} {e : RtcEvent}

/-! ### Creation -/

/-- What a created session looks like. -/
theorem rtcSessionCreate_spec (h : rtcSessionCreate env config = some s₀) :
    s₀.config = config ∧ s₀.state = .new ∧ 0 ≤ s₀.udpFd ∧
      (s₀.localUfrag, s₀.localPwd) = generateCredentials env.raw ∧ s₀.haveRemote = false ∧
      s₀.dtls = dtlsSrtpCreate config.offer.fingerprint ∧ s₀.lastRxMs = s₀.createdMs ∧
      s₀.stats.peerMoved = 0 ∧ (∀ slot, s₀.retxLen slot = 0) ∧ s₀.destroyed = false ∧ s₀.log = [] := by
  rw [rtcSessionCreate] at h
  rcases Decidable.em (!env.allocated ∨ env.udpFd < 0 ∨ !env.engineCreated ∨ env.answerLength = 0)
    with hguard | hguard
  · rw [if_pos hguard] at h
    exact nomatch h
  rw [if_neg hguard] at h
  obtain rfl := Option.some.inj h
  have hfd : ¬ env.udpFd < 0 := fun hlt ↦ hguard (Or.inr (Or.inl hlt))
  exact ⟨rfl, rfl, Int.not_lt.1 hfd, rfl, rfl, rfl, rfl, rfl, fun _ ↦ rfl, rfl, rfl⟩

/-- A session is created inside its life cycle. -/
theorem lifecycle_rtcSessionCreate (h : rtcSessionCreate env config = some s₀) :
    s₀.view.Lifecycle := by
  obtain ⟨-, hstate, -, -, hremote, hdtls, -, -, -, -, hlog⟩ := rtcSessionCreate_spec h
  refine ⟨?_, ?_⟩
  · have hphase : s₀.dtls.state = .init ∧ s₀.dtls.handshakeStarted = false ∧
        s₀.dtls.srtpReady = false ∧ s₀.haveRemote = false := by
      rw [hdtls]
      exact ⟨rfl, rfl, rfl, hremote⟩
    simp only [SessionView.InPhase, RtcSession.view, hstate]
    exact hphase
  · simp only [RtcSession.view, hstate, hlog]
    rfl

/-! ### Operations -/

/-- **Every operation keeps the life cycle.** -/
theorem lifecycle_rtcCall (lib : Libraries) (h : s.view.Lifecycle) (e : RtcEvent) :
    (rtcCall lib s e).view.Lifecycle :=
  (view_rtcCall lib s h.inPhase e).lifecycle (h.front lib e)

/-- **No operation goes back.** -/
theorem rank_le_rtcCall (lib : Libraries) (h : s.view.Lifecycle) (e : RtcEvent) :
    s.state.rank ≤ (rtcCall lib s e).state.rank :=
  (s.view.rank_le_front lib e).trans (view_rtcCall lib s h.inPhase e).rank_le

/-- Only `rtc_session_destroy` destroys a session. -/
theorem destroyed_rtcCall (hphase : s.view.InPhase) (e : RtcEvent) :
    (rtcCall lib s e).destroyed =
      match e.call with
      | .destroy => true
      | _ => s.destroyed := by
  have hframe : (rtcCall lib s e).destroyed = (s.view.front lib e).destroyed :=
    congrArg SessionFrame.destroyed (view_rtcCall lib s hphase e).frame_eq
  rw [hframe]
  obtain ⟨ans, call⟩ := e
  cases call with
  | onUdp buffer length source =>
    rw [SessionView.front]
    dsimp only
    split_ifs <;> rfl
  | tick | sendAccessUnit | close | destroy => rfl

/-- Every call is possible until the session is destroyed. -/
theorem rtcStep_eq_some : rtcStep lib s e = some s' ↔ s.destroyed = false ∧ rtcCall lib s e = s' := by
  rw [rtcStep]
  rcases s.destroyed with - | - <;> simp

/-! ### Runs -/

/-- A run keeps what every operation keeps, along with the life cycle. -/
theorem run_invariant {P : RtcSession → Prop}
    (hstep : ∀ s e, s.view.Lifecycle → P s → P (rtcCall lib s e)) (hs : s.view.Lifecycle) (hP : P s)
    (hrun : Run.exec (rtcStep lib) s es = some s') : s'.view.Lifecycle ∧ P s' := by
  refine Run.exec_invariant (P := fun t ↦ t.view.Lifecycle ∧ P t) ?_ ⟨hs, hP⟩ hrun
  intro t e t' ⟨ht, hPt⟩ hte
  obtain ⟨-, rfl⟩ := rtcStep_eq_some.1 hte
  exact ⟨lifecycle_rtcCall lib ht e, hstep t e ht hPt⟩

/-- The life cycle holds in every state a created session reaches. -/
theorem lifecycle_of_run (hcreate : rtcSessionCreate env config = some s₀)
    (hrun : Run.exec (rtcStep lib) s₀ es = some s) : s.view.Lifecycle :=
  (run_invariant (P := fun _ ↦ True) (fun _ _ _ _ ↦ trivial) (lifecycle_rtcSessionCreate hcreate)
    trivial hrun).1

/-- What is fixed about a session is fixed by its creation. -/
theorem fixed_of_run (hcreate : rtcSessionCreate env config = some s₀)
    (hrun : Run.exec (rtcStep lib) s₀ es = some s) : s.view.fixed = s₀.view.fixed := by
  refine (run_invariant (P := fun t ↦ t.view.fixed = s₀.view.fixed) (fun t e ht hfixed ↦ ?_)
    (lifecycle_rtcSessionCreate hcreate) rfl hrun).2
  exact (view_rtcCall lib t ht.inPhase e).fixed_eq.trans ((t.view.fixed_front lib e).trans hfixed)

/-- The configuration is fixed. -/
theorem config_of_run (hcreate : rtcSessionCreate env config = some s₀)
    (hrun : Run.exec (rtcStep lib) s₀ es = some s) : s.config = config :=
  (congrArg Prod.fst (fixed_of_run hcreate hrun)).trans (rtcSessionCreate_spec hcreate).1

/-- **The life cycle of a session.** In every run of a created session, between any two of its states:
the state never goes back, and a closed session stays closed; the closing hook has been called at most
once, and, if the server has one, exactly once by a closed session and not at all by an open one; a
session in the DTLS phase or streaming has a peer, and a streaming one has its keys. -/
theorem rtcSession_lifecycle {es' : List RtcEvent}
    (hcreate : rtcSessionCreate env config = some s₀)
    (hrun : Run.exec (rtcStep lib) s₀ es = some s)
    (hrun' : Run.exec (rtcStep lib) s es' = some s') :
    (s.state.rank ≤ s'.state.rank ∧ (s.state = .closed → s'.state = .closed)) ∧
    (s'.log.count .closedHook ≤ 1 ∧
      (config.onClosed = true → s'.log.count .closedHook = if s'.state = .closed then 1 else 0)) ∧
    (s'.state = .dtls ∨ s'.state = .streaming → s'.haveRemote = true) ∧
    (s'.state = .streaming → s'.dtls.srtpReady = true) := by
  have hlife := lifecycle_of_run hcreate hrun
  obtain ⟨⟨hphase, hhook⟩, hrank⟩ := run_invariant (P := fun t ↦ s.state.rank ≤ t.state.rank)
    (fun t e ht hrank ↦ hrank.trans (rank_le_rtcCall lib ht e)) hlife (Nat.le_refl _) hrun'
  have hconfig : s'.config = config := config_of_run hcreate (Run.exec_append hrun hrun')
  have hhook : s'.log.count .closedHook =
      if s'.state = .closed ∧ config.onClosed = true then 1 else 0 := hconfig ▸ hhook
  have hphase : s'.view.InPhase := hphase
  refine ⟨⟨hrank, fun hclosed ↦ ?_⟩, ⟨?_, fun hon ↦ ?_⟩, fun hstate ↦ ?_, fun hstate ↦ ?_⟩
  · -- Nothing ranks above a closed session.
    rw [hclosed] at hrank
    rcases h : s'.state with - | - | - | - | - <;> rw [h] at hrank
    all_goals exact absurd hrank (by decide)
  · rw [hhook]
    split_ifs <;> decide
  · rw [hhook]
    simp only [hon, and_true]
  · rcases hstate with hstate | hstate <;>
      simp only [SessionView.InPhase, RtcSession.view, hstate] at hphase <;> exact hphase.2.2.2
  · simp only [SessionView.InPhase, RtcSession.view, hstate] at hphase
    exact hphase.2.2.1

/-! ### A sample session

Small environments in which the theorems about sessions can be instantiated. -/

/-- A digest all of whose bytes are `AB`, tags of the usual lengths. -/
def sampleLibraries : Libraries where
  hmac := fun _ _ ↦ sampleMac
  x509Digest := fun _ ↦ some (List.replicate 32 0xAB)
  srtpProtect := fun _ _ pkt ↦ some (pkt ++ List.replicate 10 0)
  srtpProtectRtcp := fun _ _ pkt ↦ some (pkt ++ List.replicate 14 0)
  srtpUnprotectRtcp := fun _ _ pkt ↦ some (pkt.take (pkt.length - 14))

/-- An offer with a given fingerprint. -/
def sampleOffer (fingerprint : List UInt8) : SdpOffer :=
  { emptyOffer with
    iceUfrag := CString.ascii "peer", icePwd := CString.ascii "secret", fingerprint := fingerprint
    setup := CString.ascii "actpass", h264PayloadType := 96 }

/-- The fingerprint of the certificates of `sampleLibraries`. -/
def sampleFingerprint : List UInt8 :=
  CString.ascii "sha-256 " ++ (List.replicate 31 (CString.ascii "AB:")).flatten ++ CString.ascii "ab"

/-- A server with both hooks. -/
def sampleConfig (fingerprint : List UInt8) : RtcSessionConfig :=
  ⟨sampleOffer fingerprint, true, true⟩

/-- Creation at time zero; the credentials are all `a`. -/
def sampleCreate : CreateAnswers :=
  ⟨true, true, Vector.replicate 32 0, 3, 7, 0, 500⟩

/-- An environment in which OpenSSL waits for the peer. -/
def sampleAnswers (now : ℕ) : Answers where
  rxMs := now
  idrMs := now
  connectedMs := now
  wallUs := 0
  stack := List.replicate 128 0
  malloc := true
  dtlsTimeout := none
  handleTimeout := []
  ssl := ⟨[.read 4096], -1, .wantRead⟩
  initFinished := false
  keyingMaterial := some (List.replicate 60 0)
  srtpCreateOut := true
  srtpCreateIn := true
  peerCertificate := some [1]
  sslShutdown := [.write [21]]

/-- One in which the handshake is over after the call. -/
def finishedAnswers (now : ℕ) : Answers :=
  { sampleAnswers now with initFinished := true }

/-- A valid check for the credentials of `sampleCreate`. -/
def sampleCheck (now : ℕ) (source : SockAddr) : RtcEvent :=
  let ufrag := List.replicate 8 0x61
  let request := bindingRequest sampleLibraries.hmac (List.replicate 24 0x61) ufrag (by decide)
  ⟨sampleAnswers now, .onUdp request request.length source⟩

/-- A datagram OpenSSL has a use for. -/
def sampleDtls (ans : Answers) (source : SockAddr) : RtcEvent :=
  ⟨ans, .onUdp [22, 254, 253] 3 source⟩

/-- From the first check to the end: handshake, media, and a BYE that closes the session. -/
def sampleRun : List RtcEvent :=
  let peer := SockAddr.inet 0x0A000001 4000
  [sampleCheck 100 peer, sampleDtls (sampleAnswers 200) peer, sampleDtls (finishedAnswers 300) peer,
    ⟨sampleAnswers 400, .tick 400⟩, ⟨sampleAnswers 500, .sendAccessUnit [0, 0, 1, 0x65, 1] 0 true⟩,
    ⟨sampleAnswers 600, .onUdp ([0x80, 203, 0, 0] ++ List.replicate 14 0) 18 peer⟩]

theorem rtcSession_lifecycle_sample : ∃ s₀ s s',
    rtcSessionCreate sampleCreate (sampleConfig sampleFingerprint) = some s₀ ∧
    Run.exec (rtcStep sampleLibraries) s₀ (sampleRun.take 5) = some s ∧
    Run.exec (rtcStep sampleLibraries) s (sampleRun.drop 5) = some s' ∧
    s.state = .streaming ∧ s.dtls.srtpReady = true ∧ s.haveRemote = true ∧
    s'.log.count .closedHook = 1 := by
  have hrun : ((rtcSessionCreate sampleCreate (sampleConfig sampleFingerprint)).bind fun s₀ ↦
      (Run.exec (rtcStep sampleLibraries) s₀ (sampleRun.take 5)).bind fun s ↦
        (Run.exec (rtcStep sampleLibraries) s (sampleRun.drop 5)).map fun s' ↦ (s.state, s'.state)) =
      some (.streaming, .closed) := by decide +kernel
  obtain ⟨s₀, hcreate, hrun⟩ := Option.bind_eq_some_iff.1 hrun
  obtain ⟨s, hs, hrun⟩ := Option.bind_eq_some_iff.1 hrun
  obtain ⟨s', hs', hstates⟩ := Option.map_eq_some_iff.1 hrun
  obtain ⟨hstreaming, hclosed⟩ := Prod.mk.inj hstates
  obtain ⟨-, -, hremote, hready⟩ := rtcSession_lifecycle hcreate hs (Run.exec_nil s)
  obtain ⟨-, ⟨-, hhook⟩, -⟩ := rtcSession_lifecycle hcreate hs hs'
  refine ⟨s₀, s, s', hcreate, hs, hs', hstreaming, hready hstreaming,
    hremote (Or.inr hstreaming), ?_⟩
  rw [hhook rfl, if_pos hclosed]

end Camstream
