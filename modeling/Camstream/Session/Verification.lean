import Camstream.Session.Lifecycle

/-!
# The certificate of the peer

What the fingerprint of an offer is good for. A session with keys has compared the digest of the peer's
certificate with it, unless there was nothing to compare with; and then no certificate is looked at, and
anyone who can pass a check and a handshake gets the stream.

The first half is an invariant of the abstract session, over all its runs. For the second half a run is
built, one check and one DTLS datagram, that works whatever the libraries compute.
-/

namespace Camstream

variable {lib : Libraries} {env : CreateAnswers} {config : RtcSessionConfig} {s₀ s s' : RtcSession}
  {es : List RtcEvent} {e : RtcEvent} {ans : Answers} {v w : SessionView}

/-! ### The invariant -/

/-- Keys are there for a verified peer, or without a fingerprint; and without one no certificate has been
looked at. -/
structure SessionView.Secured (lib : Libraries) (v : SessionView) : Prop where
  verified : v.srtpReady = true → v.expectedFingerprint = [] ∨ v.Verified lib
  uncompared : v.expectedFingerprint = [] → ∀ peer md equal,
    .fingerprintCompared peer md equal ∉ v.log

/-- Logging something else than a comparison keeps the invariant. -/
theorem SessionView.Secured.emit (h : v.Secured lib) (e : Effect)
    (he : ∀ peer md equal, e = .fingerprintCompared peer md equal → v.expectedFingerprint ≠ []) :
    (v.emit e).Secured lib := by
  refine ⟨fun hready ↦ ?_, fun hempty peer md equal hmem ↦ ?_⟩
  · refine (h.verified hready).imp_right ?_
    rintro ⟨peer, md, hmd, hequal, hmem⟩
    exact ⟨peer, md, hmd, hequal, List.mem_cons_of_mem _ hmem⟩
  · rcases List.mem_cons.1 hmem with rfl | hmem
    · exact he peer md equal rfl hempty
    · exact h.uncompared hempty peer md equal hmem

/-- **Every inner step keeps it.** -/
theorem InnerStep.secured (hs : InnerStep lib asked v w) (h : v.Secured lib) : w.Secured lib := by
  cases hs with
  | effect e he =>
    refine h.emit e ?_
    rintro peer md equal rfl
    exact he
  | send kind data hremote hkind => exact h.emit _ (by rintro _ _ _ ⟨⟩)
  | store call key calls data hcall hfits hdata =>
    have hlog : (v.emit (.rtpProtected data)).Secured lib := h.emit _ (by rintro _ _ _ ⟨⟩)
    exact ⟨hlog.verified, hlog.uncompared⟩
  | handshake hstate => exact ⟨h.verified, h.uncompared⟩
  | connect hstate hfp => exact ⟨fun _ ↦ hfp, h.uncompared⟩
  | close hstate =>
    rcases hhook : v.config.onClosed with - | -
    · have hclose : v.close = { v with state := .closed, engine := .closed } := by
        rw [SessionView.close, hhook]
        rfl
      rw [hclose]
      exact ⟨h.verified, h.uncompared⟩
    · have hclose : v.close =
          { v.emit .closedHook with state := .closed, engine := .closed } := by
        rw [SessionView.close, hhook]
        rfl
      have hlog : (v.emit .closedHook).Secured lib := h.emit _ (by rintro _ _ _ ⟨⟩)
      rw [hclose]
      exact ⟨hlog.verified, hlog.uncompared⟩

/-- The front of an operation changes nothing it speaks of. -/
theorem SessionView.Secured.front (h : v.Secured lib) (e : RtcEvent) : (v.front lib e).Secured lib := by
  rw [SessionView.front]
  split
  · split_ifs <;> exact ⟨h.verified, h.uncompared⟩
  · exact ⟨h.verified, h.uncompared⟩
  · exact h

/-- It holds of every state a created session reaches. -/
theorem secured_of_run (hcreate : rtcSessionCreate env config = some s₀)
    (hrun : Run.exec (rtcStep lib) s₀ es = some s) : s.view.Secured lib := by
  refine (run_invariant (P := fun t ↦ t.view.Secured lib) (fun t e ht h ↦ ?_)
    (lifecycle_rtcSessionCreate hcreate) ?_ hrun).2
  · exact (view_rtcCall lib t ht.inPhase e).preserves (fun _ _ ↦ InnerStep.secured) (h.front e)
  · obtain ⟨-, -, -, -, -, hdtls, -, -, -, -, hlog⟩ := rtcSessionCreate_spec hcreate
    have hready : s₀.view.srtpReady = false := congrArg DtlsSrtp.srtpReady hdtls
    refine ⟨fun h ↦ absurd (hready.symm.trans h) (by decide), fun _ peer md equal hmem ↦ ?_⟩
    rw [show s₀.view.log = [] from hlog] at hmem
    exact absurd hmem List.not_mem_nil

/-- The fingerprint a session expects is that of its offer. -/
theorem expectedFingerprint_of_run {sdp : List UInt8} (hoffer : sdpParseOffer sdp = some config.offer)
    (hcreate : rtcSessionCreate env config = some s₀)
    (hrun : Run.exec (rtcStep lib) s₀ es = some s) :
    s.view.expectedFingerprint = config.offer.fingerprint := by
  obtain ⟨-, -, -, -, -, hdtls, -⟩ := rtcSessionCreate_spec hcreate
  have hfixed : s.view.expectedFingerprint = s₀.view.expectedFingerprint :=
    congrArg (fun p ↦ p.2.2.2.1) (fixed_of_run hcreate hrun)
  have hcreated : s₀.view.expectedFingerprint = config.offer.fingerprint.take 127 :=
    congrArg DtlsSrtp.expectedFingerprint hdtls
  rw [hfixed, hcreated, List.take_of_length_le (length_fingerprint_le hoffer)]

/-! ### A run that streams -/

/-- Without a fingerprint the keys are derived when the export and libsrtp succeed. -/
theorem deriveSrtpKeys_of_nil {material : List UInt8} (hmaterial : ans.keyingMaterial = some material)
    (hout : ans.srtpCreateOut = true) (hin : ans.srtpCreateIn = true)
    (hempty : s.dtls.expectedFingerprint = []) : (deriveSrtpKeys lib ans s).2 = true := by
  rw [deriveSrtpKeys, hmaterial, hout, hin]
  simp only [Bool.not_true, Bool.false_eq_true, if_false]
  rw [fingerprintCheck, if_pos hempty]

/-- A finished handshake whose keys are derived starts the stream. -/
theorem state_pumpSslKeys (hready : s.dtls.srtpReady = false) (hfinished : ans.initFinished = true)
    (hderive : (deriveSrtpKeys lib ans s).2 = true) :
    (pumpSslKeys lib (rtcCallbacks ans) ans s).state = .streaming := by
  have hgo : (!s.dtls.srtpReady) = true ∧ ans.initFinished = true := by
    rw [hready]
    exact ⟨rfl, hfinished⟩
  rw [pumpSslKeys, if_pos hgo]
  rcases hkeys : deriveSrtpKeys lib ans s with ⟨t, - | -⟩ <;> rw [hkeys] at hderive
  · exact absurd hderive Bool.false_ne_true
  · exact (talk_rtcSessionRequestIdr ans
      (setState (dtlsSetState (rtcCallbacks ans) t .connected) .streaming)).state_eq

/-- **The first DTLS datagram**, if OpenSSL finishes the handshake with it: a session in ICE without a
fingerprint streams. -/
theorem state_dtlsSrtpOnUdp_of_nil (ans : Answers) (hphase : s.view.InPhase) (hice : s.state = .ice)
    (hempty : s.dtls.expectedFingerprint = []) {material : List UInt8}
    (hmalloc : ans.malloc = true) (hends : ans.ssl.ends false = false)
    (hfinished : ans.initFinished = true) (hmaterial : ans.keyingMaterial = some material)
    (hout : ans.srtpCreateOut = true) (hin : ans.srtpCreateIn = true) (packet : List UInt8) :
    (dtlsSrtpOnUdp lib (rtcCallbacks ans) ans s packet).state = .streaming := by
  have hengine : s.dtls.state = .init ∧ s.dtls.handshakeStarted = false ∧
      s.dtls.srtpReady = false ∧ s.haveRemote = true := by
    have := hphase
    simp only [SessionView.InPhase, RtcSession.view, hice] at this
    exact this
  obtain ⟨hinit, hstarted, hready, -⟩ := hengine
  set q : RtcSession :=
    { s with
      dtls :=
        { rxqMakeRoom s.dtls with
          rxq := Function.update (rxqMakeRoom s.dtls).rxq (rxqMakeRoom s.dtls).rxTail (some packet)
          rxTail := ((rxqMakeRoom s.dtls).rxTail + 1) % dtlsRxQueue
          rxCount := (rxqMakeRoom s.dtls).rxCount + 1 } } with hq
  have hview : q.view = s.view := view_rxqMakeRoom s _ _ _
  have hqinit : q.dtls.state = .init := (congrArg SessionView.engine hview).trans hinit
  have honUdp : dtlsSrtpOnUdp lib (rtcCallbacks ans) ans s packet =
      pumpSsl lib (rtcCallbacks ans) ans q := by
    rw [dtlsSrtpOnUdp, if_neg (by rw [hinit]; decide), hmalloc]
    rfl
  -- The queue is not part of the view, so the pump starts where the session was.
  have hcall := view_pumpSslCall_first ans q
    ((congrArg SessionView.handshakeStarted hview).trans hstarted) hqinit
  rw [hends] at hcall
  obtain ⟨hsnd, htalk⟩ := hcall
  rw [honUdp, pumpSsl, if_neg (by rw [hqinit]; decide)]
  rcases hpair : pumpSslCall (rtcCallbacks ans) ans q with ⟨t, go⟩
  rw [hpair] at hsnd htalk
  obtain rfl : go = true := hsnd
  have htalk : Talk s.view.handshake t.view := hview ▸ htalk
  have htempty : t.dtls.expectedFingerprint = [] := by
    obtain ⟨new, -, hnew⟩ := htalk
    exact (congrArg (fun v ↦ v.expectedFingerprint) hnew).trans hempty
  exact state_pumpSslKeys (htalk.srtpReady_eq.trans hready) hfinished
    (deriveSrtpKeys_of_nil hmaterial hout hin htempty)

/-- The same, by the public operation. -/
theorem state_rtcCall_record (hphase : s.view.InPhase) (hice : s.state = .ice)
    (hempty : s.dtls.expectedFingerprint = []) (source : SockAddr) :
    (rtcCall lib s ⟨finishedAnswers 0, .onUdp [22, 254, 253] 3 source⟩).state = .streaming := by
  set ans := finishedAnswers 0
  have hremote : s.haveRemote = true := by
    have := hphase
    simp only [SessionView.InPhase, RtcSession.view, hice] at this
    exact this.2.2.2
  have honUdp : rtcCall lib s ⟨ans, .onUdp [22, 254, 253] 3 source⟩ =
      dtlsSrtpOnUdp lib (rtcCallbacks ans) ans { s with lastRxMs := ans.rxMs } [22, 254, 253] := by
    show rtcSessionOnUdp lib ans s [22, 254, 253] 3 source = _
    rw [rtcSessionOnUdp, if_neg (by rw [hice]; decide),
      show rtcClassifyPacket [22, 254, 253] 3 = .dtls by decide]
    dsimp only
    rw [onUdpDtls, if_pos hremote]
    rfl
  rw [honUdp]
  exact state_dtlsSrtpOnUdp_of_nil (s := { s with lastRxMs := ans.rxMs }) ans hphase hice hempty rfl
    rfl rfl rfl rfl rfl _

/-- The lengths of generated credentials. -/
theorem length_generateCredentials (raw : Vector UInt8 32) :
    (generateCredentials raw).1.length = 8 ∧ (generateCredentials raw).2.length = 24 := by
  simp [generateCredentials]

/-- A check that knows the credentials takes a new session into ICE. -/
theorem exists_check (lib : Libraries) (ans : Answers) (hnew : s.state = .new)
    (hufrag : s.localUfrag.length = 8) (hpwd : s.localPwd.length = 24) (source : SockAddr) :
    ∃ buffer, Talk ((s.view.arrive ans.rxMs).accept source)
      (rtcCall lib s ⟨ans, .onUdp buffer buffer.length source⟩).view := by
  have hlen : s.localUfrag.length + 1 < 2 ^ 15 := by omega
  have hpassword : s.localPwd ≠ [] := List.length_pos_iff.1 (by omega)
  have hfragment : s.localUfrag ≠ [] := List.length_pos_iff.1 (by omega)
  have haccepts := stunAccepts_bindingRequest lib.hmac hlen hpassword hfragment
  refine ⟨bindingRequest lib.hmac s.localPwd s.localUfrag (by omega), ?_⟩
  have hisSome := haccepts
  rw [stunAccepts, Bool.and_assoc] at hisSome
  have htalk := talk_rtcSessionOnUdp_stun lib ans s (by rw [hnew]; decide)
    (rtcClassifyPacket_of_isSome (Bool.and_eq_true_iff.1 hisSome).1) source
  rwa [haccepts] at htalk

/-- **A run that streams**, from any session created without a fingerprint: a check, and a datagram with
which the handshake is over. -/
theorem exists_streaming_run (lib : Libraries) (hcreate : rtcSessionCreate env config = some s₀)
    (hempty : s₀.dtls.expectedFingerprint = []) :
    ∃ es s, Run.exec (rtcStep lib) s₀ es = some s ∧ s.state = .streaming := by
  obtain ⟨-, hnew, -, hcredentials, -, -, -, -, -, hdestroyed, -⟩ := rtcSessionCreate_spec hcreate
  have hlife := lifecycle_rtcSessionCreate hcreate
  have hlengths := length_generateCredentials env.raw
  rw [← hcredentials] at hlengths
  set ans := finishedAnswers 0 with hans
  set source := SockAddr.inet 0 0
  obtain ⟨buffer, htalk⟩ := exists_check lib ans hnew hlengths.1 hlengths.2 source
  set check : RtcEvent := ⟨ans, .onUdp buffer buffer.length source⟩
  set t := rtcCall lib s₀ check
  have hlife' : t.view.Lifecycle := lifecycle_rtcCall lib hlife check
  have hice : t.state = .ice := by
    refine htalk.state_eq.trans ?_
    show (if s₀.state = .new then RtcSessionState.ice else s₀.state) = .ice
    rw [hnew]
    rfl
  obtain ⟨htempty, htremote⟩ : t.dtls.expectedFingerprint = [] ∧ t.haveRemote = true := by
    obtain ⟨new, -, hnew⟩ := htalk
    exact ⟨(congrArg (fun v ↦ v.expectedFingerprint) hnew).trans hempty,
      congrArg (fun v ↦ v.haveRemote) hnew⟩
  have htalive : t.destroyed = false := (destroyed_rtcCall hlife.inPhase check).trans hdestroyed
  set record : RtcEvent := ⟨ans, .onUdp [22, 254, 253] 3 source⟩
  refine ⟨[check, record], rtcCall lib t record, ?_, ?_⟩
  · rw [Run.exec_cons, rtcStep_eq_some.2 ⟨hdestroyed, rfl⟩]
    show Run.exec (rtcStep lib) t [record] = _
    rw [Run.exec_cons, rtcStep_eq_some.2 ⟨htalive, rfl⟩]
    rfl
  · exact state_rtcCall_record hlife'.inPhase hice htempty source

/-! ### No streaming to an unverified peer -/

/-- **When the peer is verified.** A session created from an accepted offer has compared the digest of
the peer's certificate with the fingerprint of the offer, and found it equal, whenever it streams or has
its keys, in every run, exactly if the last `a=fingerprint:` line of the offer has a value. -/
theorem verified_iff {sdp : List UInt8} (hoffer : sdpParseOffer sdp = some config.offer)
    (hcreate : rtcSessionCreate env config = some s₀) :
    (∀ es s, Run.exec (rtcStep lib) s₀ es = some s → s.state = .streaming ∨ s.dtls.srtpReady = true →
      ∃ peer md, lib.x509Digest peer = some md ∧
        fingerprintHexEqual config.offer.fingerprint md = true ∧
        .fingerprintCompared peer md true ∈ s.log) ↔ NamesFingerprint sdp := by
  rw [← fingerprint_ne_nil_iff hoffer]
  constructor
  · intro hverified hempty
    have hexpected : s₀.view.expectedFingerprint = config.offer.fingerprint :=
      expectedFingerprint_of_run hoffer hcreate (show Run.exec (rtcStep lib) s₀ [] = some s₀ from rfl)
    obtain ⟨es, s, hrun, hstreaming⟩ :=
      exists_streaming_run lib hcreate (hexpected.trans hempty)
    -- The comparison that is claimed cannot have been made.
    obtain ⟨peer, md, -, -, hmem⟩ := hverified es s hrun (Or.inl hstreaming)
    exact (secured_of_run hcreate hrun).uncompared
      ((expectedFingerprint_of_run hoffer hcreate hrun).trans hempty) peer md true hmem
  · intro hne es s hrun hstate
    have hexpected := expectedFingerprint_of_run hoffer hcreate hrun
    have hready : s.dtls.srtpReady = true := by
      refine hstate.elim (fun hstreaming ↦ ?_) id
      have hphase := (lifecycle_of_run hcreate hrun).inPhase
      simp only [SessionView.InPhase, RtcSession.view, hstreaming] at hphase
      exact hphase.2.2.1
    have hverified := ((secured_of_run hcreate hrun).verified hready).resolve_left
      fun hempty ↦ hne (hexpected.symm.trans hempty)
    rwa [SessionView.Verified, hexpected] at hverified

/-- The text of `sampleOffer`. -/
def sampleSdp (fingerprint : List UInt8) : List UInt8 :=
  CString.ascii "a=ice-ufrag:peer\r\na=ice-pwd:secret\r\na=fingerprint:" ++ fingerprint ++
    CString.ascii "\r\nm=video 9 UDP/TLS/RTP/SAVPF 96\r\na=rtpmap:96 H264/90000\r\n"

theorem verified_iff_sample : ∃ s₀ s,
    rtcSessionCreate sampleCreate (sampleConfig sampleFingerprint) = some s₀ ∧
    Run.exec (rtcStep sampleLibraries) s₀ (sampleRun.take 3) = some s ∧
    ∃ peer md, sampleLibraries.x509Digest peer = some md ∧
      fingerprintHexEqual sampleFingerprint md = true ∧
      .fingerprintCompared peer md true ∈ s.log := by
  have hoffer : sdpParseOffer (sampleSdp sampleFingerprint) = some (sampleOffer sampleFingerprint) := by
    decide +kernel
  have hline : lastFingerprintLine (sampleSdp sampleFingerprint) =
      some (CString.ascii "a=fingerprint:" ++ 115 :: sampleFingerprint.tail) := by decide +kernel
  have hrun : ((rtcSessionCreate sampleCreate (sampleConfig sampleFingerprint)).bind fun s₀ ↦
      (Run.exec (rtcStep sampleLibraries) s₀ (sampleRun.take 3)).map fun s ↦ s.state) =
      some .streaming := by decide +kernel
  obtain ⟨s₀, hcreate, hrun⟩ := Option.bind_eq_some_iff.1 hrun
  obtain ⟨s, hs, hstreaming⟩ := Option.map_eq_some_iff.1 hrun
  exact ⟨s₀, s, hcreate, hs, (verified_iff hoffer hcreate).2 ⟨115, _, hline, by decide, by decide⟩ _ s
    hs (Or.inl hstreaming)⟩

/-- An offer with an empty fingerprint is accepted, and its session streams to a peer that nobody looked
at. -/
theorem not_verified_of_streaming :
    ¬ ∀ (lib : Libraries) (env : CreateAnswers) (config : RtcSessionConfig) (sdp : List UInt8)
      (s₀ s : RtcSession) (es : List RtcEvent), sdpParseOffer sdp = some config.offer →
      rtcSessionCreate env config = some s₀ → Run.exec (rtcStep lib) s₀ es = some s →
      s.state = .streaming → ∃ peer md, lib.x509Digest peer = some md ∧
        fingerprintHexEqual config.offer.fingerprint md = true ∧
        .fingerprintCompared peer md true ∈ s.log := by
  intro hall
  have hoffer : sdpParseOffer (sampleSdp []) = some (sampleOffer []) := by decide +kernel
  have hrun : ((rtcSessionCreate sampleCreate (sampleConfig [])).bind fun s₀ ↦
      (Run.exec (rtcStep sampleLibraries) s₀ (sampleRun.take 3)).map fun s ↦ s.state) =
      some .streaming := by decide +kernel
  obtain ⟨s₀, hcreate, hrun⟩ := Option.bind_eq_some_iff.1 hrun
  obtain ⟨s, hs, hstreaming⟩ := Option.map_eq_some_iff.1 hrun
  obtain ⟨peer, md, -, -, hmem⟩ := hall _ _ _ _ s₀ s _ hoffer hcreate hs hstreaming
  exact (secured_of_run hcreate hs).uncompared (expectedFingerprint_of_run hoffer hcreate hs) peer md
    true hmem

end Camstream
