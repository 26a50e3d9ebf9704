import Camstream.Session.Lifecycle

/-!
# Where media goes

The peer of a session, over whole runs. Abstractly it is simple: the peer is the source of the latest
accepted check (`followSource`, folded over `acceptedSources`). A check changes it, nothing else does,
and every datagram to the peer goes there.

The rest of the module compares a run with the one that is left when every datagram is deleted that was
not accepted. The accepted checks are then the only datagrams, and as long as they are accepted again
the peer develops in the same way. They are not when a timer has closed the session in the meantime:
deleted datagrams kept it alive.
-/

namespace Camstream

variable {lib : Libraries} {env : CreateAnswers} {config : RtcSessionConfig} {s₀ s s' : RtcSession}
  {es : List RtcEvent} {e : RtcEvent}

/-! ### Accepted checks -/

/-- An IPv4 address. -/
def SockAddr.IsInet : SockAddr → Prop
  | inet _ _ => True
  | inet6 _ _ _ => False

/-- Whether a call is a datagram. -/
def RtcEvent.isDatagram (e : RtcEvent) : Bool :=
  match e.call with
  | .onUdp _ _ _ => true
  | _ => false

/-- The source of a datagram is an IPv4 address. -/
def RtcEvent.FromInet (e : RtcEvent) : Prop :=
  match e.call with
  | .onUdp _ _ source => source.IsInet
  | _ => True

/-- The source of the accepted check an event is, if it is one. -/
def SessionView.accepted (lib : Libraries) (v : SessionView) (e : RtcEvent) : Option SockAddr :=
  match e.call with
  | .onUdp buffer length source => if v.accepts lib buffer length then some source else none
  | _ => none

/-- The sources of the accepted checks of a run, in order. -/
def acceptedSources (lib : Libraries) : RtcSession → List RtcEvent → List SockAddr
  | _, [] => []
  | s, e :: es => (s.view.accepted lib e).toList ++ acceptedSources lib (rtcCall lib s e) es

/-- The accepted checks of two stretches of a run. -/
theorem acceptedSources_append {es' : List RtcEvent} (hrun : Run.exec (rtcStep lib) s es = some s') :
    acceptedSources lib s (es ++ es') = acceptedSources lib s es ++ acceptedSources lib s' es' := by
  induction es generalizing s with
  | nil =>
    obtain rfl := Option.some.inj hrun
    rfl
  | cons e es ih =>
    rw [Run.exec_cons] at hrun
    obtain ⟨t, ht, hrun⟩ := Option.bind_eq_some_iff.1 hrun
    obtain ⟨-, rfl⟩ := rtcStep_eq_some.1 ht
    rw [List.cons_append, acceptedSources, ih hrun, ← List.append_assoc]
    rfl

/-! ### The peer, abstractly -/

/-- Whether there is a peer, its address, and how often it has moved. -/
def SessionFrame.peer (f : SessionFrame) : Bool × SockAddr × UInt32 :=
  (f.haveRemote, f.remote, f.peerMoved)

/-- A check from `source`: it is the peer now, and has moved if there was another one. -/
def followSource (p : Bool × SockAddr × UInt32) (source : SockAddr) : Bool × SockAddr × UInt32 :=
  (true, source, if p.1 = true ∧ source ≠ p.2.1 then p.2.2 + 1 else p.2.2)

/-- How often consecutive addresses differ. -/
def addressChanges : List SockAddr → ℕ
  | a :: b :: l => (if b ≠ a then 1 else 0) + addressChanges (b :: l)
  | _ => 0

/-- Following a list of sources from a peer that is set. -/
theorem foldl_followSource_set (remote : SockAddr) (n : UInt32) (l : List SockAddr) :
    l.foldl followSource (true, remote, n) =
      (true, (l.getLast?).getD remote, n + UInt32.ofNat (addressChanges (remote :: l))) := by
  induction l generalizing remote n with
  | nil => simp [addressChanges]
  | cons a l ih =>
    rw [List.foldl_cons, followSource, ih, addressChanges, List.getLast?_cons, Option.getD_some]
    refine congrArg (fun k ↦ (true, (l.getLast?).getD a, k)) ?_
    simp only [true_and]
    split_ifs
    · rw [UInt32.ofNat_add, UInt32.add_assoc]
      rfl
    · rw [Nat.zero_add]

/-- **Following the checks of a run**: the peer is the last source, and its moves are the changes. -/
theorem foldl_followSource (remote : SockAddr) (l : List SockAddr) :
    l.foldl followSource (false, remote, 0) =
      (!l.isEmpty, (l.getLast?).getD remote, UInt32.ofNat (addressChanges l)) := by
  cases l with
  | nil => rfl
  | cons a l =>
    rw [List.foldl_cons, followSource, if_neg (by simp), foldl_followSource_set, List.getLast?_cons,
      Option.getD_some, UInt32.zero_add]
    rfl

/-! ### The peer of a session -/

/-- Two IPv4 addresses differ if and only if the code sees them differ. -/
theorem inet_ext {a b : SockAddr} (ha : a.IsInet) (hb : b.IsInet) :
    (a.sinAddr ≠ b.sinAddr ∨ a.sinPort ≠ b.sinPort) ↔ a ≠ b := by
  rcases a with ⟨addr, port⟩ | ⟨addr, port, flow⟩
  · rcases b with ⟨addr', port'⟩ | ⟨addr', port', flow'⟩
    · simp only [SockAddr.sinAddr, SockAddr.sinPort, ne_eq, SockAddr.inet.injEq, not_and_or]
    · exact absurd hb id
  · exact absurd ha id

/-- Over IPv4 the abstract `accept` follows its source. -/
theorem peer_accept {v : SessionView} {source : SockAddr} (hsource : source.IsInet)
    (hremote : v.haveRemote = true → v.remote.IsInet) :
    (v.accept source).peer = followSource v.peer source := by
  unfold SessionFrame.peer followSource SessionView.accept
  rcases hhave : v.haveRemote with - | -
  · have hmoves : v.moves source = true := by
      rw [SessionView.moves, hhave]
      rfl
    simp only [hmoves, if_true, Bool.false_and, Bool.false_eq_true, if_false, false_and]
  · have hiff := (moves_iff hhave source).trans (inet_ext hsource (hremote hhave))
    rcases hmoves : v.moves source with - | -
    · have heq : source = v.remote := by
        by_contra hne
        exact absurd (hmoves.symm.trans (hiff.2 hne)) (by decide)
      simp [heq]
    · simp [hiff.1 hmoves]

/-- **One operation** moves the peer if it is an accepted check, and not otherwise. -/
theorem peer_rtcCall (lib : Libraries) (hphase : s.view.InPhase) (hinet : e.FromInet)
    (hremote : s.haveRemote = true → s.remote.IsInet) :
    (rtcCall lib s e).view.peer = (s.view.accepted lib e).toList.foldl followSource s.view.peer := by
  have hframe : (rtcCall lib s e).view.peer = (s.view.front lib e).peer :=
    congrArg SessionFrame.peer (view_rtcCall lib s hphase e).frame_eq
  rw [hframe]
  rw [SessionView.front, SessionView.accepted]
  obtain ⟨ans, call⟩ := e
  cases call with
  | onUdp buffer length source =>
    dsimp only
    split_ifs with hclosed haccepts haccepts
    · exact absurd hclosed (of_decide_eq_true (Bool.and_eq_true_iff.1 haccepts).1)
    · rfl
    · exact peer_accept (v := s.view.arrive ans.rxMs) hinet hremote
    · rfl
  | tick | sendAccessUnit | close | destroy => rfl

/-- An IPv4 peer stays one. -/
theorem inet_rtcCall (hphase : s.view.InPhase) (hinet : e.FromInet)
    (hremote : s.haveRemote = true → s.remote.IsInet) :
    (rtcCall lib s e).haveRemote = true → (rtcCall lib s e).remote.IsInet := by
  have hpeer := peer_rtcCall lib hphase hinet hremote
  rcases haccepted : s.view.accepted lib e with - | source <;> rw [haccepted] at hpeer
  · have hhave : (rtcCall lib s e).haveRemote = s.haveRemote := congrArg Prod.fst hpeer
    have haddr : (rtcCall lib s e).remote = s.remote := congrArg (fun p ↦ p.2.1) hpeer
    rwa [hhave, haddr]
  · have haddr : (rtcCall lib s e).remote = source := congrArg (fun p ↦ p.2.1) hpeer
    intro _
    rw [haddr]
    obtain ⟨ans, call⟩ := e
    cases call with
    | onUdp buffer length source' =>
      rw [SessionView.accepted] at haccepted
      dsimp only at haccepted
      split_ifs at haccepted
      obtain rfl := Option.some.inj haccepted
      exact hinet
    | tick | sendAccessUnit | close | destroy => exact nomatch haccepted

/-- **A run** folds over its accepted checks. -/
theorem peer_of_run (hlife : s.view.Lifecycle) (hremote : s.haveRemote = true → s.remote.IsInet)
    (hinet : ∀ e ∈ es, e.FromInet) (hrun : Run.exec (rtcStep lib) s es = some s') :
    s'.view.peer = (acceptedSources lib s es).foldl followSource s.view.peer := by
  induction es generalizing s with
  | nil =>
    obtain rfl := Option.some.inj hrun
    rfl
  | cons e es ih =>
    rw [Run.exec_cons] at hrun
    obtain ⟨t, ht, hrun⟩ := Option.bind_eq_some_iff.1 hrun
    obtain ⟨-, rfl⟩ := rtcStep_eq_some.1 ht
    have he := hinet e List.mem_cons_self
    rw [acceptedSources, List.foldl_append, ← peer_rtcCall lib hlife.inPhase he hremote]
    exact ih (lifecycle_rtcCall lib hlife e) (inet_rtcCall hlife.inPhase he hremote)
      (fun e' he' ↦ hinet e' (List.mem_cons_of_mem _ he')) hrun

/-- The peer of a created session after a run. -/
theorem peer_of_created_run (hcreate : rtcSessionCreate env config = some s₀)
    (hinet : ∀ e ∈ es, e.FromInet) (hrun : Run.exec (rtcStep lib) s₀ es = some s) :
    s.view.peer = (!(acceptedSources lib s₀ es).isEmpty,
      ((acceptedSources lib s₀ es).getLast?).getD s₀.remote,
      UInt32.ofNat (addressChanges (acceptedSources lib s₀ es))) := by
  obtain ⟨-, -, -, -, hremote, -, -, hmoved, -⟩ := rtcSessionCreate_spec hcreate
  have hpeer : s₀.view.peer = (false, s₀.remote, 0) := by
    show (s₀.haveRemote, s₀.remote, s₀.stats.peerMoved) = _
    rw [hremote, hmoved]
  rw [peer_of_run (lifecycle_rtcSessionCreate hcreate) (fun h ↦ nomatch hremote.symm.trans h) hinet
    hrun, hpeer, foldl_followSource]

/-! ### Datagrams to the peer -/

/-- What an operation added to the log. -/
def sentDuring (s s' : RtcSession) : List Effect :=
  s'.log.take (s'.log.length - s.log.length)

/-- What a step has added to the log. -/
theorem sentDuring_eq {new : List Effect} (h : s'.log = new ++ s.log) : sentDuring s s' = new := by
  rw [sentDuring, h, List.length_append, Nat.add_sub_cancel, List.take_left]

/-- What inner steps send to the peer goes to the peer they started with, and a packet is only sent again
when it was asked for. -/
theorem Inner.sends {asked : List ℕ} {v w : SessionView} (h : Inner lib asked v w) :
    ∃ new, w.log = new ++ v.log ∧ ∀ kind data dest, .sendUdp kind data dest ∈ new →
      (dest = v.remote ∧ v.haveRemote = true) ∧ ∀ seq, kind = .retransmission seq → seq ∈ asked := by
  -- By induction on the inner steps: none of them changes the peer, and one of them sends.
  induction h with
  | refl => exact ⟨[], rfl, fun _ _ _ h ↦ absurd h List.not_mem_nil⟩
  | @tail u _ hrest hs ih =>
    obtain ⟨new, hlog, hnew⟩ := ih
    have hremote := Inner.remote_eq hrest
    have hhave := Inner.haveRemote_eq hrest
    cases hs with
    | effect e he =>
      refine ⟨e :: new, congrArg (e :: ·) hlog, fun kind data dest hmem ↦ ?_⟩
      rcases List.mem_cons.1 hmem with rfl | hmem
      · exact absurd he id
      · exact hnew kind data dest hmem
    | send kind' data' h hkind =>
      refine ⟨_ :: new, congrArg (_ :: ·) hlog, fun kind data dest hmem ↦ ?_⟩
      rcases List.mem_cons.1 hmem with heq | hmem
      · obtain ⟨rfl, -, rfl⟩ := Effect.sendUdp.inj heq
        refine ⟨⟨hremote, hhave.symm.trans h⟩, ?_⟩
        rintro seq rfl
        exact hkind.1
      · exact hnew kind data dest hmem
    | store call key calls data' hcall hfits hdata =>
      refine ⟨_ :: new, congrArg (_ :: ·) hlog, fun kind data dest hmem ↦ ?_⟩
      rcases List.mem_cons.1 hmem with heq | hmem
      · exact nomatch heq
      · exact hnew kind data dest hmem
    | handshake h => exact ⟨new, hlog, hnew⟩
    | connect h hfp => exact ⟨new, hlog, hnew⟩
    | close h =>
      rcases hhook : u.config.onClosed with - | -
      · refine ⟨new, ?_, hnew⟩
        show (if u.config.onClosed then .closedHook :: u.log else u.log) = _
        rw [hhook]
        exact hlog
      · refine ⟨.closedHook :: new, ?_, fun kind data dest hmem ↦ ?_⟩
        · show (if u.config.onClosed then .closedHook :: u.log else u.log) = _
          rw [hhook]
          exact congrArg (_ :: ·) hlog
        · rcases List.mem_cons.1 hmem with heq | hmem
          · exact nomatch heq
          · exact hnew kind data dest hmem

/-- The front of an operation logs and stores nothing, and keeps the socket. -/
theorem SessionView.front_spec (v : SessionView) (lib : Libraries) (e : RtcEvent) :
    (v.front lib e).log = v.log ∧ (v.front lib e).cache = v.cache ∧
      (v.front lib e).udpFd = v.udpFd := by
  rw [SessionView.front]
  split
  · split_ifs <;> exact ⟨rfl, rfl, rfl⟩
  · exact ⟨rfl, rfl, rfl⟩
  · exact ⟨rfl, rfl, rfl⟩

/-- **A datagram to the peer** goes to the address the operation leaves as the peer's. -/
theorem dest_of_sentDuring (hphase : s.view.InPhase) {kind : UdpKind} {data : List UInt8}
    {dest : SockAddr} (h : .sendUdp kind data dest ∈ sentDuring s (rtcCall lib s e)) :
    (rtcCall lib s e).haveRemote = true ∧ dest = (rtcCall lib s e).remote := by
  have hinner := view_rtcCall lib s hphase e
  obtain ⟨new, hlog, hnew⟩ := hinner.sends
  have hlog : (rtcCall lib s e).log = new ++ s.log := by
    rw [(s.view.front_spec lib e).1] at hlog
    exact hlog
  rw [sentDuring_eq hlog] at h
  obtain ⟨⟨hdest, hhave⟩, -⟩ := hnew kind data dest h
  exact ⟨hinner.haveRemote_eq.trans hhave, hdest.trans hinner.remote_eq.symm⟩

/-! ### Deleting what was not accepted -/

/-- The run without the datagrams that were not accepted. -/
def retained (lib : Libraries) : RtcSession → List RtcEvent → List RtcEvent
  | _, [] => []
  | s, e :: es =>
    (if e.isDatagram && (s.view.accepted lib e).isNone then [] else [e]) ++
      retained lib (rtcCall lib s e) es

/-- No datagram of a run reaches a closed session. -/
def ReachesOpen (lib : Libraries) (s : RtcSession) (es : List RtcEvent) : Prop :=
  ∀ es₁ e es₂ t, es = es₁ ++ e :: es₂ → e.isDatagram = true →
    Run.exec (rtcStep lib) s es₁ = some t → t.state ≠ .closed

/-- Only a datagram is accepted as a check. -/
theorem isDatagram_of_accepted {v : SessionView} {source : SockAddr}
    (h : v.accepted lib e = some source) : e.isDatagram = true := by
  obtain ⟨ans, call⟩ := e
  cases call with
  | onUdp buffer length source' => rfl
  | tick | sendAccessUnit | close | destroy => exact nomatch h

theorem accepted_of_not_isDatagram {v : SessionView} (h : e.isDatagram = false) :
    v.accepted lib e = none := by
  obtain ⟨ans, call⟩ := e
  cases call with
  | onUdp buffer length source => exact nomatch h
  | tick | sendAccessUnit | close | destroy => rfl

/-- Whether a check is accepted depends on the credentials and on the session being open. -/
theorem accepted_congr {v w : SessionView} (hv : v.state ≠ .closed) (hw : w.state ≠ .closed)
    (hfixed : w.fixed = v.fixed) (e : RtcEvent) : w.accepted lib e = v.accepted lib e := by
  have hufrag : w.localUfrag = v.localUfrag := congrArg (fun p ↦ p.2.1) hfixed
  have hpwd : w.localPwd = v.localPwd := congrArg (fun p ↦ p.2.2.1) hfixed
  simp only [SessionView.accepted, SessionView.accepts, decide_eq_true hv, decide_eq_true hw, hufrag,
    hpwd]

/-- A closed session accepts none. -/
theorem state_ne_of_accepted {v : SessionView} {source : SockAddr}
    (h : v.accepted lib e = some source) : v.state ≠ .closed := by
  obtain ⟨ans, call⟩ := e
  cases call with
  | onUdp buffer length source' =>
    rw [SessionView.accepted] at h
    dsimp only at h
    split_ifs at h with haccepts
    exact of_decide_eq_true (Bool.and_eq_true_iff.1 haccepts).1
  | tick | sendAccessUnit | close | destroy => exact nomatch h

/-- **The two runs side by side.** From two sessions with the same credentials, one at any point of the
run and one at the same point of what is retained of it, the retained run goes through; and if its
datagrams reach an open session, the same checks are accepted in both. -/
theorem retained_run {t : RtcSession} (hs : s.view.Lifecycle) (ht : t.view.Lifecycle)
    (hfixed : t.view.fixed = s.view.fixed) (hdestroyed : t.destroyed = s.destroyed)
    (hrun : Run.exec (rtcStep lib) s es = some s') :
    (∃ t', Run.exec (rtcStep lib) t (retained lib s es) = some t') ∧
      (ReachesOpen lib t (retained lib s es) →
        acceptedSources lib t (retained lib s es) = acceptedSources lib s es) := by
  induction es generalizing s t with
  | nil => exact ⟨⟨t, rfl⟩, fun _ ↦ rfl⟩
  | cons e es ih =>
    rw [Run.exec_cons] at hrun
    obtain ⟨u, hu, hrun⟩ := Option.bind_eq_some_iff.1 hrun
    obtain ⟨halive, rfl⟩ := rtcStep_eq_some.1 hu
    have hs' := lifecycle_rtcCall lib hs e
    have hfixed' : (rtcCall lib s e).view.fixed = s.view.fixed :=
      (view_rtcCall lib s hs.inPhase e).fixed_eq.trans (s.view.fixed_front lib e)
    rcases hkeep : e.isDatagram && (s.view.accepted lib e).isNone with - | -
    · -- The event is retained: both sessions take the step.
      have hret : retained lib s (e :: es) = e :: retained lib (rtcCall lib s e) es := by
        rw [retained, hkeep]
        rfl
      have ht' := lifecycle_rtcCall lib ht e
      have hfixed'' : (rtcCall lib t e).view.fixed = (rtcCall lib s e).view.fixed :=
        ((view_rtcCall lib t ht.inPhase e).fixed_eq.trans (t.view.fixed_front lib e)).trans
          (hfixed.trans hfixed'.symm)
      have hdestroyed' : (rtcCall lib t e).destroyed = (rtcCall lib s e).destroyed := by
        rw [destroyed_rtcCall ht.inPhase, destroyed_rtcCall hs.inPhase, hdestroyed]
      have hstep : rtcStep lib t e = some (rtcCall lib t e) :=
        rtcStep_eq_some.2 ⟨hdestroyed.trans halive, rfl⟩
      obtain ⟨⟨t', hrest⟩, hsources⟩ := ih hs' ht' hfixed'' hdestroyed' hrun
      rw [hret]
      refine ⟨⟨t', ?_⟩, fun hopen ↦ ?_⟩
      · rw [Run.exec_cons, hstep]
        exact hrest
      · have hsame : t.view.accepted lib e = s.view.accepted lib e := by
          rcases haccepted : s.view.accepted lib e with - | source
          · rw [haccepted, Option.isNone_none, Bool.and_true] at hkeep
            exact accepted_of_not_isDatagram hkeep
          · -- An accepted check is a datagram, so it finds the second session open.
            have hclosed := hopen [] e _ t rfl (isDatagram_of_accepted haccepted) rfl
            rw [← haccepted]
            exact accepted_congr (state_ne_of_accepted haccepted) hclosed hfixed e
        rw [acceptedSources, acceptedSources, hsame, hsources]
        intro es₁ e' es₂ t₁ heq hdatagram hrun₁
        refine hopen (e :: es₁) e' es₂ t₁ (congrArg (e :: ·) heq) hdatagram ?_
        rw [Run.exec_cons, hstep]
        exact hrun₁
    · -- The event is a datagram that was not accepted: only the full run takes the step.
      have hret : retained lib s (e :: es) = retained lib (rtcCall lib s e) es := by
        rw [retained, hkeep]
        rfl
      obtain ⟨hdatagram, hnone⟩ := Bool.and_eq_true_iff.1 hkeep
      have halive' : (rtcCall lib s e).destroyed = s.destroyed := by
        rw [destroyed_rtcCall hs.inPhase]
        obtain ⟨ans, call⟩ := e
        cases call with
        | onUdp buffer length source => rfl
        | tick | sendAccessUnit | close | destroy => exact nomatch hdatagram
      obtain ⟨hexec, hsources⟩ := ih hs' ht (hfixed.trans hfixed'.symm) (hdestroyed.trans halive'.symm)
        hrun
      rw [hret]
      refine ⟨hexec, fun hopen ↦ ?_⟩
      rw [hsources hopen, acceptedSources, Option.isNone_iff_eq_none.1 hnone]
      rfl

theorem retained_subset : ∀ e ∈ retained lib s es, e ∈ es := by
  induction es generalizing s with
  | nil => exact fun e he ↦ absurd he List.not_mem_nil
  | cons e es ih =>
    intro e' he'
    rw [retained] at he'
    rcases List.mem_append.1 he' with he' | he'
    · split_ifs at he'
      · exact absurd he' List.not_mem_nil
      · exact List.mem_cons.2 (Or.inl (List.mem_singleton.1 he'))
    · exact List.mem_cons_of_mem _ (ih e' he')

/-! ### Media destination integrity -/

/-- **Media goes to the source of the latest accepted check.** In every run of a created session over
IPv4:

* there is a peer exactly if a check was accepted, it is the source of the latest one, and `peer_moved`,
  a counter of 32 bits, counts the changes from one accepted source to the next;
* whatever an operation sends to the peer goes to the source of the latest check accepted up to it;
* the run without the datagrams that were not accepted ends with the same peer, as long as none of its
  datagrams finds the session closed. -/
theorem media_destination (hcreate : rtcSessionCreate env config = some s₀)
    (hrun : Run.exec (rtcStep lib) s₀ es = some s) (hinet : ∀ e ∈ es, e.FromInet) :
    ((s.haveRemote = true ↔ acceptedSources lib s₀ es ≠ []) ∧
      (∀ source, (acceptedSources lib s₀ es).getLast? = some source → s.remote = source) ∧
      s.stats.peerMoved = UInt32.ofNat (addressChanges (acceptedSources lib s₀ es))) ∧
    (∀ es₁ e es₂ t t', es = es₁ ++ e :: es₂ → Run.exec (rtcStep lib) s₀ es₁ = some t →
      rtcStep lib t e = some t' → ∀ kind data dest, .sendUdp kind data dest ∈ sentDuring t t' →
        (acceptedSources lib s₀ (es₁ ++ [e])).getLast? = some dest) ∧
    ∃ r, Run.exec (rtcStep lib) s₀ (retained lib s₀ es) = some r ∧
      (ReachesOpen lib s₀ (retained lib s₀ es) →
        r.haveRemote = s.haveRemote ∧ r.remote = s.remote) := by
  have hpeer := peer_of_created_run hcreate hinet hrun
  have hlife₀ := lifecycle_rtcSessionCreate hcreate
  refine ⟨⟨?_, ?_, ?_⟩, ?_, ?_⟩
  · have : s.haveRemote = !(acceptedSources lib s₀ es).isEmpty := congrArg Prod.fst hpeer
    rw [this, Bool.not_eq_true', List.isEmpty_eq_false_iff]
  · intro source hlast
    have : s.remote = ((acceptedSources lib s₀ es).getLast?).getD s₀.remote :=
      congrArg (fun p ↦ p.2.1) hpeer
    rw [this, hlast, Option.getD_some]
  · exact congrArg (fun p ↦ p.2.2) hpeer
  · intro es₁ e es₂ t t' heq ht hstep kind data dest hmem
    obtain ⟨-, rfl⟩ := rtcStep_eq_some.1 hstep
    -- The run up to and with the operation: its peer is where the operation sends.
    have hrun' : Run.exec (rtcStep lib) s₀ (es₁ ++ [e]) = some (rtcCall lib t e) := by
      refine Run.exec_append ht ?_
      rw [Run.exec_cons, hstep]
      rfl
    have hpeer' := peer_of_created_run hcreate (fun e' he' ↦ hinet e' ?_) hrun'
    · obtain ⟨hhave, rfl⟩ := dest_of_sentDuring (lifecycle_of_run hcreate ht).inPhase hmem
      have hne : acceptedSources lib s₀ (es₁ ++ [e]) ≠ [] := by
        have := (congrArg Prod.fst hpeer').symm.trans hhave
        simpa using this
      have haddr : (rtcCall lib t e).remote =
          ((acceptedSources lib s₀ (es₁ ++ [e])).getLast?).getD s₀.remote :=
        congrArg (fun p ↦ p.2.1) hpeer'
      rw [haddr, List.getLast?_eq_some_getLast hne, Option.getD_some]
    · rw [heq]
      rcases List.mem_append.1 he' with he' | he'
      · exact List.mem_append_left _ he'
      · exact List.mem_append_right _ (List.mem_singleton.1 he' ▸ List.mem_cons_self)
  · obtain ⟨⟨r, hr⟩, hsources⟩ := retained_run hlife₀ hlife₀ rfl rfl hrun
    refine ⟨r, hr, fun hopen ↦ ?_⟩
    have hpeer' := peer_of_created_run hcreate (fun e he ↦ hinet e (retained_subset e he)) hr
    rw [hsources hopen, ← hpeer] at hpeer'
    exact ⟨congrArg Prod.fst hpeer', congrArg (fun p ↦ p.2.1) hpeer'⟩

/-- The peer's addresses in the sample runs. -/
def samplePeer : SockAddr := .inet 0x0A000001 4000

/-- The address behind which the peer reappears. -/
def sampleRebound : SockAddr := .inet 0x0A000002 5000

theorem media_destination_sample : ∃ s₀ s,
    rtcSessionCreate sampleCreate (sampleConfig sampleFingerprint) = some s₀ ∧
    Run.exec (rtcStep sampleLibraries) s₀
      [sampleCheck 100 samplePeer, sampleDtls (finishedAnswers 300) sampleRebound,
        sampleCheck 400 sampleRebound] = some s ∧
    s.haveRemote = true ∧ s.remote = sampleRebound ∧ s.stats.peerMoved = 1 := by
  set es := [sampleCheck 100 samplePeer, sampleDtls (finishedAnswers 300) sampleRebound,
    sampleCheck 400 sampleRebound] with hes
  have hrun : ((rtcSessionCreate sampleCreate (sampleConfig sampleFingerprint)).bind fun s₀ ↦
      (Run.exec (rtcStep sampleLibraries) s₀ es).map fun _ ↦
        acceptedSources sampleLibraries s₀ es) = some [samplePeer, sampleRebound] := by decide +kernel
  obtain ⟨s₀, hcreate, hrun⟩ := Option.bind_eq_some_iff.1 hrun
  obtain ⟨s, hs, hsources⟩ := Option.map_eq_some_iff.1 hrun
  have hinet : ∀ e ∈ es, e.FromInet := by
    simp [hes, sampleCheck, sampleDtls, RtcEvent.FromInet, samplePeer, sampleRebound,
      SockAddr.IsInet]
  obtain ⟨⟨hhave, hlast, hmoved⟩, -⟩ := media_destination hcreate hs hinet
  rw [hsources] at hhave hlast hmoved
  exact ⟨s₀, s, hcreate, hs, hhave.2 (by decide), hlast sampleRebound rfl, hmoved.trans (by decide)⟩

/-- A viewer that streams and then moves to another address. Without its DTLS datagrams the session stays
in ICE and is reaped by the handshake watchdog before the peer moves. -/
theorem not_deletion_irrelevant :
    ¬ ∀ (lib : Libraries) (env : CreateAnswers) (config : RtcSessionConfig) (s₀ s r : RtcSession)
      (es : List RtcEvent), rtcSessionCreate env config = some s₀ →
      Run.exec (rtcStep lib) s₀ es = some s → (∀ e ∈ es, e.FromInet) →
      Run.exec (rtcStep lib) s₀ (retained lib s₀ es) = some r →
        r.haveRemote = s.haveRemote ∧ r.remote = s.remote := by
  intro hall
  set es := [sampleCheck 100 samplePeer, sampleDtls (finishedAnswers 300) samplePeer,
    sampleCheck 20000 samplePeer, ⟨sampleAnswers 31000, .tick 31000⟩,
    sampleCheck 32000 sampleRebound] with hes
  have hruns : ((rtcSessionCreate sampleCreate (sampleConfig sampleFingerprint)).bind fun s₀ ↦
      (Run.exec (rtcStep sampleLibraries) s₀ es).bind fun s ↦
        (Run.exec (rtcStep sampleLibraries) s₀ (retained sampleLibraries s₀ es)).map fun r ↦
          (s.remote, r.remote)) = some (sampleRebound, samplePeer) := by decide +kernel
  obtain ⟨s₀, hcreate, hruns⟩ := Option.bind_eq_some_iff.1 hruns
  obtain ⟨s, hs, hruns⟩ := Option.bind_eq_some_iff.1 hruns
  obtain ⟨r, hr, hremotes⟩ := Option.map_eq_some_iff.1 hruns
  obtain ⟨hfull, hreduced⟩ := Prod.mk.inj hremotes
  have hinet : ∀ e ∈ es, e.FromInet := by
    simp [hes, sampleCheck, sampleDtls, RtcEvent.FromInet, samplePeer, sampleRebound,
      SockAddr.IsInet]
  obtain ⟨-, hsame⟩ := hall sampleLibraries _ _ s₀ s r es hcreate hs hinet hr
  rw [hfull, hreduced] at hsame
  exact absurd hsame (by decide)

end Camstream
