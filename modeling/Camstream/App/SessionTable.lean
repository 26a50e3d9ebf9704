import Camstream.App.EventLoop
import Camstream.Session.Keys

/-!
# The table of sessions

The event loop and the HTTP handlers work on one array of sessions. Here that array is a table of machines
(`Hosting`): whatever a pass of the loop does to it is a sequence of sessions started, called and destroyed
(`Moves`). So the history of a slot is a list of lives, each of them a run of one session as
`Camstream.Session` knows it, and what is proved there about the runs of a session holds of every session
the server ever has (`sessions_of_passes`).
-/

namespace Camstream

open CString Hosting

/-! ### Sessions as machines in a table -/

/-- One call on a session that is kept with its id. -/
def slotStep (lib : Libraries) (x : UInt32 × RtcSession) (e : RtcEvent) : Option (UInt32 × RtcSession) :=
  (rtcStep lib x.2 e).map fun session ↦ (x.1, session)

/-- The same for the loop, which destroys a session only once it is closed. -/
def loopStep (lib : Libraries) (x : UInt32 × RtcSession) (e : RtcEvent) : Option (UInt32 × RtcSession) :=
  if e.call.isDestroy ∧ x.2.state ≠ .closed then none else slotStep lib x e

/-- A session starts as it is created, and `rtc_session_destroy` is its last call and no other. -/
def SlotEvent.Proper : SlotEvent → Prop
  | .start _ x => ∃ env config, rtcSessionCreate env config = some x.2
  | .call _ e => e.call.isDestroy = false
  | .stop _ e => e.call.isDestroy = true

/-- These events lead from one server to another, and they are the ones on its record. -/
structure Moves (step : UInt32 × RtcSession → RtcEvent → Option (UInt32 × RtcSession)) (server : Server)
    (es : List SlotEvent) (server' : Server) : Prop where
  run : Run.exec (hostStep step) server.sessions.get es = some server'.sessions.get
  proper : ∀ e ∈ es, SlotEvent.Proper e
  total : server'.sessionsTotal = server.sessionsTotal + UInt64.ofNat (es.countP Event.isStart)
  trace : server'.trace = server.trace ++ es

/-- A session that may be called: it is in the phase of its life it says it is in, it has a socket, and a
key once it has keys. -/
structure RtcSession.Sound (s : RtcSession) : Prop where
  lifecycle : s.view.Lifecycle
  alive : s.destroyed = false
  udpFd : 0 ≤ s.udpFd
  keyed : s.dtls.srtpReady = true → s.dtls.srtpOut.isSome

/-- The sessions of a server may be called. -/
def Server.Sound (server : Server) : Prop :=
  ∀ i x, server.sessions.get i = some x → x.2.Sound

section Moves

variable {step : UInt32 × RtcSession → RtcEvent → Option (UInt32 × RtcSession)} {lib : Libraries}
  {model : DataModel} {server server' server'' : Server} {es es' : List SlotEvent} {ans : Answers}

theorem slotStep_eq_some {x x' : UInt32 × RtcSession} {e : RtcEvent} :
    slotStep lib x e = some x' ↔ x.2.destroyed = false ∧ (x.1, rtcCall lib x.2 e) = x' := by
  rw [slotStep, Option.map_eq_some_iff]
  constructor
  · rintro ⟨session, hsession, rfl⟩
    obtain ⟨hlive, rfl⟩ := rtcStep_eq_some.1 hsession
    exact ⟨hlive, rfl⟩
  · rintro ⟨hlive, rfl⟩
    exact ⟨_, rtcStep_eq_some.2 ⟨hlive, rfl⟩, rfl⟩

/-- The event loop destroys closed sessions only; apart from that its calls are any calls. -/
theorem loopStep_eq_some {x x' : UInt32 × RtcSession} {e : RtcEvent} :
    loopStep lib x e = some x' ↔
      (e.call.isDestroy = true → x.2.state = .closed) ∧ slotStep lib x e = some x' := by
  rw [loopStep]
  split_ifs with h
  · exact ⟨False.elim, fun hx ↦ h.2 (hx.1 h.1)⟩
  · exact ⟨fun hx ↦ ⟨fun hdestroy ↦ by_contra fun hopen ↦ h ⟨hdestroy, hopen⟩, hx⟩, fun hx ↦ hx.2⟩

/-- What is done to a session in a slot is done to the session. -/
theorem exec_rtcStep_of_slotStep {x x' : UInt32 × RtcSession} {calls : List RtcEvent}
    (h : Run.exec (slotStep lib) x calls = some x') :
    x'.1 = x.1 ∧ Run.exec (rtcStep lib) x.2 calls = some x'.2 := by
  induction calls generalizing x with
  | nil =>
    obtain rfl := Option.some.inj h
    exact ⟨rfl, rfl⟩
  | cons e calls ih =>
    rw [Run.exec_cons] at h
    obtain ⟨y, hy, h⟩ := Option.bind_eq_some_iff.1 h
    obtain ⟨hlive, rfl⟩ := slotStep_eq_some.1 hy
    obtain ⟨hid, hrest⟩ := ih h
    exact ⟨hid, Run.exec_cons_of_step (rtcStep_eq_some.2 ⟨hlive, rfl⟩) hrest⟩

/-- A life in the event loop is a life of the session. -/
theorem exec_slotStep_of_loopStep {x x' : UInt32 × RtcSession} {calls : List RtcEvent}
    (h : Run.exec (loopStep lib) x calls = some x') : Run.exec (slotStep lib) x calls = some x' :=
  Run.exec_mono (fun _ _ _ h ↦ (loopStep_eq_some.1 h).2) h

theorem Moves.refl (server : Server) : Moves step server [] server :=
  ⟨rfl, fun _ he ↦ absurd he List.not_mem_nil, (UInt64.add_zero _).symm, (List.append_nil _).symm⟩

/-- Two stretches of the trace, one behind the other. -/
theorem Moves.trans (h : Moves step server es server') (h' : Moves step server' es' server'') :
    Moves step server (es ++ es') server'' := by
  refine ⟨Run.exec_append h.run h'.run, fun e he ↦ ?_, ?_, ?_⟩
  · exact (List.mem_append.1 he).elim (h.proper e) (h'.proper e)
  · rw [h'.total, h.total, List.countP_append, UInt64.ofNat_add, UInt64.add_assoc]
  · rw [h'.trace, h.trace, List.append_assoc]

theorem Moves.mono (h : Moves (loopStep lib) server es server') : Moves (slotStep lib) server es server' :=
  ⟨exec_hostStep_mono (fun _ _ _ h ↦ (loopStep_eq_some.1 h).2) h.run, h.proper, h.total, h.trace⟩

/-- The socket of a session is the one it was created with. -/
theorem udpFd_rtcCall {s : RtcSession} (lib : Libraries) (h : s.view.InPhase) (e : RtcEvent) :
    (rtcCall lib s e).udpFd = s.udpFd := by
  have hframe : (rtcCall lib s e).udpFd = (s.view.front lib e).udpFd :=
    congrArg SessionFrame.udpFd (view_rtcCall lib s h e).frame_eq
  exact hframe.trans (s.view.front_spec lib e).2.2

theorem sound_rtcSessionCreate {env : CreateAnswers} {config : RtcSessionConfig} {s : RtcSession}
    (h : rtcSessionCreate env config = some s) : s.Sound := by
  obtain ⟨-, -, hfd, -, -, hdtls, -, -, -, hlive, -⟩ := rtcSessionCreate_spec h
  refine ⟨lifecycle_rtcSessionCreate h, hlive, hfd, fun hready ↦ ?_⟩
  rw [hdtls] at hready
  exact absurd hready Bool.false_ne_true

/-- **A call leaves a session that may be called**, unless it destroys it. -/
theorem RtcSession.Sound.rtcCall {s : RtcSession} (h : s.Sound) (lib : Libraries) {e : RtcEvent}
    (he : e.call.isDestroy = false) : (rtcCall lib s e).Sound := by
  refine ⟨lifecycle_rtcCall lib h.lifecycle e, ?_, ?_, fun hready ↦ ?_⟩
  · rw [destroyed_rtcCall h.lifecycle.inPhase]
    split
    · rename_i hdestroy
      rw [hdestroy] at he
      exact absurd he (by decide)
    · exact h.alive
  · rw [udpFd_rtcCall lib h.lifecycle.inPhase e]
    exact h.udpFd
  · have hsome {t : RtcSession} {key : List UInt8} (ht : t.keys.2.1 = some key) :
        t.dtls.srtpOut.isSome := by
      obtain ⟨ctx, hctx, -⟩ := Option.map_eq_some_iff.1 ht
      rw [hctx]
      rfl
    -- The keys are those from before, there are none, or they were derived in this call.
    rcases rekeys_rtcCall lib s e with hsame | ⟨-, hnone | ⟨material, -, hkeys⟩⟩
    · obtain ⟨ctx, hctx⟩ := Option.isSome_iff_exists.1
        (h.keyed ((congrArg Prod.fst hsame).symm.trans hready))
      have hkey : s.keys.2.1 = some ctx.key := by
        show s.dtls.srtpOut.map SrtpContext.key = some ctx.key
        rw [hctx]
        rfl
      exact hsome ((congrArg (fun k ↦ k.2.1) hsame).trans hkey)
    · exact absurd (hnone.symm.trans hready) Bool.false_ne_true
    · exact hsome (congrArg (fun k ↦ k.2.1) hkeys)

/-- Calls other than `rtc_session_destroy` keep a session sound, and its descriptor. -/
theorem RtcSession.Sound.foldl_rtcCall {s : RtcSession} (h : s.Sound) (lib : Libraries)
    {calls : List RtcEvent} (hcalls : ∀ e ∈ calls, e.call.isDestroy = false) :
    (calls.foldl (Camstream.rtcCall lib) s).Sound ∧
      (calls.foldl (Camstream.rtcCall lib) s).udpFd = s.udpFd := by
  induction calls generalizing s with
  | nil => exact ⟨h, rfl⟩
  | cons e calls ih =>
    obtain ⟨hsound, hfd⟩ := ih (h.rtcCall lib (hcalls e List.mem_cons_self))
      fun e he ↦ hcalls e (List.mem_cons_of_mem _ he)
    exact ⟨hsound, hfd.trans (udpFd_rtcCall lib h.lifecycle.inPhase e)⟩

/-- **The sessions of the table may be called at any time.** -/
theorem Moves.sound (h : Moves (slotStep lib) server es server') (hs : server.Sound) : server'.Sound := by
  refine exec_hosted (P := fun x ↦ x.2.Sound) ?_ ?_ ?_ h.run
  · intro i x hx
    obtain ⟨env, config, hcreate⟩ := h.proper _ hx
    exact sound_rtcSessionCreate hcreate
  · intro i x e x' he hsound hstep
    obtain ⟨-, rfl⟩ := slotStep_eq_some.1 hstep
    exact hsound.rtcCall lib (h.proper _ he)
  · exact hs

/-- A loop whose passes are moves is a move. -/
theorem exists_moves_foldl {α : Type*} {f : Server → α → Server} {l : List α}
    (hf : ∀ a ∈ l, ∀ server, server.Sound → ∃ es, Moves (loopStep lib) server es (f server a))
    (hs : server.Sound) : ∃ es, Moves (loopStep lib) server es (l.foldl f server) := by
  induction l generalizing server with
  | nil => exact ⟨[], Moves.refl server⟩
  | cons a l ih =>
    obtain ⟨es, hes⟩ := hf a List.mem_cons_self server hs
    obtain ⟨es', hes'⟩ := ih (fun a ha ↦ hf a (List.mem_cons_of_mem _ ha)) (hes.mono.sound hs)
    exact ⟨es ++ es', hes.trans hes'⟩

/-! ### What the parts of a pass do to the table -/

/-- The array as a function of the slot. -/
theorem get_set_sessions (sessions : Vector (Option (UInt32 × RtcSession)) maxRtcSessions)
    (slot : Fin maxRtcSessions) (x : Option (UInt32 × RtcSession)) :
    (sessions.set slot x slot.isLt).get = Function.update sessions.get slot x := by
  funext i
  show (sessions.set slot x slot.isLt)[i.val] = _
  rw [Vector.getElem_set, Function.update_apply]
  rcases eq_or_ne i slot with h | h
  · rw [if_pos h, if_pos (congrArg Fin.val h.symm)]
  · rw [if_neg h, if_neg fun hval ↦ h (Fin.ext hval.symm)]
    rfl

/-- A call changes the session of its slot. -/
theorem get_call (slot i : Fin maxRtcSessions) (e : RtcEvent) :
    (server.call lib slot e).sessions.get i =
      if i = slot then (server.sessions.get i).map fun x ↦ (x.1, rtcCall lib x.2 e)
      else server.sessions.get i := by
  rw [Server.call]
  rcases h : server.sessions.get slot with - | ⟨id, session⟩
  · rcases eq_or_ne i slot with rfl | hne
    · rw [if_pos rfl, h]
      rfl
    · rw [if_neg hne]
  · dsimp only
    rw [get_set_sessions]
    rcases eq_or_ne i slot with rfl | hne
    · rw [Function.update_self, if_pos rfl, h]
      rfl
    · rw [Function.update_of_ne hne, if_neg hne]

theorem sessionsTotal_call (slot : Fin maxRtcSessions) (e : RtcEvent) :
    (server.call lib slot e).sessionsTotal = server.sessionsTotal := by
  rw [Server.call]
  rcases server.sessions.get slot with - | ⟨id, session⟩ <;> rfl

/-- A call is recorded. -/
theorem trace_call {slot : Fin maxRtcSessions} {x : UInt32 × RtcSession}
    (hx : server.sessions.get slot = some x) (e : RtcEvent) :
    (server.call lib slot e).trace = server.trace ++ [slotCall slot e] := by
  rw [Server.call, hx]

theorem slotCall_of_not_isDestroy {e : RtcEvent} (h : e.call.isDestroy = false)
    (slot : Fin maxRtcSessions) : slotCall slot e = .call slot e := by
  rw [slotCall, h, if_neg Bool.false_ne_true]

theorem get_vacate (slot i : Fin maxRtcSessions) :
    (server.vacate slot).sessions.get i = if i = slot then none else server.sessions.get i := by
  rw [Server.vacate, get_set_sessions, Function.update_apply]

/-- A call of the loop. -/
theorem exists_moves_call (hs : server.Sound) (slot : Fin maxRtcSessions) {e : RtcEvent}
    (he : e.call.isDestroy = false) : ∃ es, Moves (loopStep lib) server es (server.call lib slot e) := by
  rcases h : server.sessions.get slot with - | ⟨id, session⟩
  · refine ⟨[], ?_⟩
    rw [Server.call, h]
    exact Moves.refl server
  · refine ⟨[.call slot e], ⟨?_, ?_, ?_, ?_⟩⟩
    · have hstep : loopStep lib (id, session) e = some (id, rtcCall lib session e) :=
        loopStep_eq_some.2 ⟨fun hdestroy ↦ absurd (he.symm.trans hdestroy) (by decide),
          slotStep_eq_some.2 ⟨(hs slot _ h).alive, rfl⟩⟩
      refine Run.exec_cons_of_step (hostStep_eq_some.2 ⟨_, _, h, hstep, ?_⟩) (Run.exec_nil _)
      rw [Server.call, h, get_set_sessions]
    · exact fun e' he' ↦ List.mem_singleton.1 he' ▸ he
    · rw [sessionsTotal_call]
      exact (UInt64.add_zero _).symm
    · rw [trace_call h, slotCall_of_not_isDestroy he]

/-- A session is destroyed and leaves its slot. -/
theorem exists_moves_destroy (lib : Libraries) (ans : Answers) (hs : server.Sound)
    {slot : Fin maxRtcSessions} {x : UInt32 × RtcSession} (hx : server.sessions.get slot = some x)
    (hstep : ∀ x', slotStep lib x ⟨ans, .destroy⟩ = some x' → step x ⟨ans, .destroy⟩ = some x') :
    ∃ es, Moves step server es ((server.call lib slot ⟨ans, .destroy⟩).vacate slot) := by
  refine ⟨[.stop slot ⟨ans, .destroy⟩], ⟨?_, ?_, ?_, ?_⟩⟩
  · have hstep := hstep _ (slotStep_eq_some.2 ⟨(hs slot x hx).alive, rfl⟩)
    refine Run.exec_cons_of_step (hostStep_eq_some.2 ⟨_, _, hx, hstep, ?_⟩) (Run.exec_nil _)
    funext i
    rw [get_vacate, get_call, Function.update_apply]
    split_ifs <;> rfl
  · exact fun e he ↦ List.mem_singleton.1 he ▸ rfl
  · exact (sessionsTotal_call slot _).trans (UInt64.add_zero _).symm
  · exact trace_call hx _

/-- Only datagrams are handed over by the loop around `recvfrom`. -/
theorem isDestroy_of_mem_recvCalls {buffer : List UInt8} {ds : List Datagram} {e : RtcEvent}
    (he : e ∈ recvCalls buffer ds) : e.call.isDestroy = false := by
  induction ds generalizing buffer with
  | nil => exact absurd he List.not_mem_nil
  | cons d ds ih =>
    rw [recvCalls] at he
    split_ifs at he
    · exact absurd he List.not_mem_nil
    · rcases List.mem_cons.1 he with rfl | he
      · rfl
      · exact ih he

theorem exists_moves_receivePhase (lib : Libraries) (input : PassInput) (hs : server.Sound) :
    ∃ es, Moves (loopStep lib) server es (receivePhase lib input server) := by
  refine exists_moves_foldl (fun fd _ server hs ↦ ?_) hs
  rw [receiveFd]
  split_ifs
  swap
  · exact ⟨[], Moves.refl server⟩
  refine exists_moves_foldl (fun slot _ server hs ↦ ?_) hs
  rw [receiveSlot]
  split
  swap
  · exact ⟨[], Moves.refl server⟩
  split_ifs
  · exact exists_moves_foldl (fun e he server hs ↦
      exists_moves_call hs slot (isDestroy_of_mem_recvCalls he)) hs
  · exact ⟨[], Moves.refl server⟩

theorem exists_moves_tickPhase (lib : Libraries) (input : PassInput) (hs : server.Sound) :
    ∃ es, Moves (loopStep lib) server es (tickPhase lib input server) :=
  exists_moves_foldl (fun slot _ _ hs ↦ exists_moves_call hs slot rfl) hs

theorem exists_moves_fanOutPhase (lib : Libraries) (input : PassInput) (hs : server.Sound) :
    ∃ es, Moves (loopStep lib) server es (fanOutPhase lib input server) := by
  refine exists_moves_foldl (fun unit _ server hs ↦ ?_) hs
  refine exists_moves_foldl (fun slot _ server hs ↦ ?_) hs
  rw [sendSlot]
  split
  swap
  · exact ⟨[], Moves.refl server⟩
  split_ifs
  · exact exists_moves_call hs slot rfl
  · exact ⟨[], Moves.refl server⟩

/-- By induction on the slots: each is passed by, or its closed session is destroyed. -/
theorem exists_moves_reapSlots (input : PassInput) (l : List (Fin maxRtcSessions)) (n : ℕ)
    (hs : server.Sound) :
    ∃ es, Moves (loopStep lib) server es (l.foldl (reapSlot lib input) (server, n)).1 := by
  induction l generalizing server n with
  | nil => exact ⟨[], Moves.refl server⟩
  | cons slot l ih =>
    rw [List.foldl_cons, reapSlot]
    dsimp only
    split
    · exact ih n hs
    rename_i id session hslot
    split_ifs with hclosed
    · obtain ⟨es, hes⟩ := exists_moves_destroy lib (input.destroy slot) hs hslot fun _ hx ↦
        loopStep_eq_some.2 ⟨fun _ ↦ hclosed, hx⟩
      obtain ⟨es', hes'⟩ := ih n (hes.mono.sound hs)
      exact ⟨es ++ es', hes.trans hes'⟩
    · exact ih (n + 1) hs

/-- The result of the last part. -/
theorem reapPhase_eq (input : PassInput) (server : Server) :
    reapPhase lib input server =
      { ((List.finRange maxRtcSessions).foldl (reapSlot lib input) (server, 0)).1 with
        rtcActive :=
          decide (0 < ((List.finRange maxRtcSessions).foldl (reapSlot lib input) (server, 0)).2) } := by
  rw [reapPhase]

theorem exists_moves_reapPhase (lib : Libraries) (input : PassInput) (hs : server.Sound) :
    ∃ es, Moves (loopStep lib) server es (reapPhase lib input server) := by
  rw [reapPhase_eq]
  obtain ⟨es, hes⟩ := exists_moves_reapSlots input (List.finRange maxRtcSessions) 0 hs
  generalize (List.finRange maxRtcSessions).foldl (reapSlot lib input) (server, 0) = reaped at hes ⊢
  exact ⟨es, hes.run, hes.proper, hes.total, hes.trace⟩

/-- A session that an offer creates is a created session. -/
theorem exists_of_createSession {offer : SdpOffer} {env : OfferEnv} {session : RtcSession}
    {answer : List UInt8} (h : createSession offer env = some (some (session, answer))) :
    ∃ create, rtcSessionCreate create ⟨offer, true, true⟩ = some session ∧
      create.udpFd = env.create.udpFd := by
  rw [createSession] at h
  split_ifs at h
  · exact absurd (Option.some.inj h).symm (Option.some_ne_none _)
  split at h
  · exact absurd h.symm (Option.some_ne_none _)
  · exact absurd (Option.some.inj h).symm (Option.some_ne_none _)
  rename_i answer' hanswer
  obtain ⟨session', hsession, hpair⟩ := Option.map_eq_some_iff.1 (Option.some.inj h)
  obtain ⟨rfl, -⟩ := Prod.mk.inj hpair
  exact ⟨_, hsession, rfl⟩

/-- Closing a session by its id is a call of `rtc_session_close`. -/
theorem exists_moves_handleRtcClose (hs : server.Sound) (request : List UInt8) :
    ∃ es, Moves (loopStep lib) server es (handleRtcClose model server request ans).1 := by
  rw [handleRtcClose]
  split_ifs
  · exact ⟨[], Moves.refl server⟩
  split
  · exact ⟨[], Moves.refl server⟩
  dsimp only
  split
  swap
  · exact ⟨[], Moves.refl server⟩
  rename_i slot hslot
  obtain ⟨session, hx⟩ := findSession_eq_some hslot
  refine ⟨[.call slot ⟨ans, .close⟩], ⟨?_, ?_, (UInt64.add_zero _).symm, rfl⟩⟩
  · have hstep : loopStep lib _ ⟨ans, .close⟩ = some _ :=
      loopStep_eq_some.2 ⟨fun hdestroy ↦ absurd hdestroy Bool.false_ne_true,
        slotStep_eq_some.2 ⟨(hs slot _ hx).alive, rfl⟩⟩
    refine Run.exec_cons_of_step (hostStep_eq_some.2 ⟨_, _, hx, hstep, ?_⟩) (Run.exec_nil _)
    rw [Server.closeSlot, get_set_sessions, hx]
    rfl
  · exact fun e he ↦ List.mem_singleton.1 he ▸ rfl

/-- **A request** starts a session, closes one, or does nothing to the table. -/
theorem exists_moves_httpEventHandler (lib : Libraries) (hs : server.Sound) {message : HttpMessage}
    (h : httpEventHandler model server message = some server') :
    ∃ es, Moves (loopStep lib) server es server' := by
  rw [httpEventHandler] at h
  split_ifs at h
  · obtain ⟨⟨server'', reply⟩, hreply, rfl⟩ := Option.map_eq_some_iff.1 h
    rcases handleRtcOffer_cases hreply with ⟨rfl, -⟩ | ⟨_, offer, slot, session, answer, -, -, hfree, hcreate,
      rfl, -⟩
    · exact ⟨[], Moves.refl _⟩
    · obtain ⟨env, hsession, -⟩ := exists_of_createSession hcreate
      have hnone : server.sessions.get slot = none :=
        Option.isNone_iff_eq_none.1 (List.find?_eq_some_iff_append.1 hfree).1
      refine ⟨[.start slot (message.offer.id, session)], ⟨?_, ?_, rfl, rfl⟩⟩
      · refine Run.exec_cons_of_step (hostStep_eq_some.2 ⟨hnone, ?_⟩) (Run.exec_nil _)
        rw [Server.openSession, get_set_sessions]
      · exact fun e he ↦ List.mem_singleton.1 he ▸ ⟨_, _, hsession⟩
  · obtain rfl := Option.some.inj h
    exact exists_moves_handleRtcClose hs message.body
  · obtain rfl := Option.some.inj h
    exact ⟨[], Moves.refl _⟩

theorem exists_moves_httpPhase (lib : Libraries) {input : PassInput} (hs : server.Sound)
    (h : httpPhase model input server = some server') :
    ∃ es, Moves (loopStep lib) server es server' := by
  rw [httpPhase] at h
  generalize input.http = http at h
  induction http generalizing server with
  | nil =>
    obtain rfl := Option.some.inj h
    exact ⟨[], Moves.refl _⟩
  | cons message http ih =>
    rw [List.foldlM_cons] at h
    obtain ⟨t, ht, h⟩ := Option.bind_eq_some_iff.1 h
    obtain ⟨es, hes⟩ := exists_moves_httpEventHandler lib hs ht
    obtain ⟨es', hes'⟩ := ih (hes.mono.sound hs) h
    exact ⟨es ++ es', hes.trans hes'⟩

/-- **A pass of the loop** is a sequence of sessions started, called and destroyed. -/
theorem exists_moves_serverPass (lib : Libraries) {input : PassInput} (hs : server.Sound)
    (h : serverPass lib model server input = some server') :
    ∃ es, Moves (loopStep lib) server es server' := by
  obtain ⟨t, ht, rfl⟩ := Option.map_eq_some_iff.1 h
  obtain ⟨es₁, h₁⟩ := exists_moves_receivePhase lib input hs
  have hs := h₁.mono.sound hs
  obtain ⟨es₂, h₂⟩ := exists_moves_httpPhase lib hs ht
  have hs := h₂.mono.sound hs
  obtain ⟨es₃, h₃⟩ := exists_moves_tickPhase lib input hs
  have hs := h₃.mono.sound hs
  obtain ⟨es₄, h₄⟩ := exists_moves_fanOutPhase lib input hs
  have hs := h₄.mono.sound hs
  obtain ⟨es₅, h₅⟩ := exists_moves_reapPhase lib input hs
  exact ⟨es₁ ++ (es₂ ++ (es₃ ++ (es₄ ++ es₅))), h₁.trans (h₂.trans (h₃.trans (h₄.trans h₅)))⟩

/-- The loop is a sequence of them. -/
theorem exists_moves_of_passes (lib : Libraries) {inputs : List PassInput} (hs : server.Sound)
    (h : Run.exec (serverPass lib model) server inputs = some server') :
    ∃ es, Moves (loopStep lib) server es server' := by
  induction inputs generalizing server with
  | nil =>
    obtain rfl := Option.some.inj h
    exact ⟨[], Moves.refl _⟩
  | cons input inputs ih =>
    rw [Run.exec_cons] at h
    obtain ⟨t, ht, h⟩ := Option.bind_eq_some_iff.1 h
    obtain ⟨es, hes⟩ := exists_moves_serverPass lib hs ht
    obtain ⟨es', hes'⟩ := ih (hes.mono.sound hs) h
    exact ⟨es ++ es', hes.trans hes'⟩

/-- A server without sessions is sound. -/
theorem sound_of_empty (h : ∀ i, server.sessions.get i = none) : server.Sound := by
  intro i x hx
  rw [h i] at hx
  exact absurd hx.symm (Option.some_ne_none x)

/-- The invariant of the table along every run of the loop. -/
theorem sound_of_passes {inputs : List PassInput} (hempty : ∀ i, server.sessions.get i = none)
    (h : Run.exec (serverPass lib model) server inputs = some server') : server'.Sound := by
  obtain ⟨es, hes⟩ := exists_moves_of_passes lib (sound_of_empty hempty) h
  exact hes.mono.sound (sound_of_empty hempty)

/-! ### The history of a slot -/

/-- A life of the loop: a session as it was created, its calls, and `rtc_session_destroy` as the last of
them once the session is closed. -/
structure SlotLife (lib : Libraries) (life : Life (UInt32 × RtcSession) RtcEvent)
    (session : RtcSession) : Prop where
  created : ∃ env config, rtcSessionCreate env config = some life.first.2
  run : Run.exec (rtcStep lib) life.first.2 life.calls = some session
  calls : ∀ e ∈ life.calls, e.call.isDestroy = false
  last : ∀ e ∈ life.last, e.call.isDestroy = true ∧ session.state = .closed

/-- **The sessions of a server.** The calls of a run of the event loop on its sessions are a list of lives
in every slot, the newest first, and no other calls. Each life is a run of one session from its creation
on; the session is destroyed at most once, by its last call, and only when it is closed. All but the newest
have ended, and the session in the slot is what the newest has come to, with the id it was created with.
`sessions_total` counts the lives. -/
theorem sessions_of_passes {inputs : List PassInput} (hempty : ∀ i, server.sessions.get i = none)
    (h : Run.exec (serverPass lib model) server inputs = some server') :
    ∃ es, server'.trace = server.trace ++ es ∧
      (∀ i, (lives i es).reverse.flatMap (Life.trace i) = es.filter fun e ↦ e.place = i) ∧
      (∀ i, ∀ life ∈ lives i es, ∃ session, SlotLife lib life session) ∧
      (∀ i, ∀ life ∈ (lives i es).tail, life.last.isSome) ∧
      (∀ i, server'.sessions.get i = none → ∀ life ∈ lives i es, life.last.isSome) ∧
      (∀ i x, server'.sessions.get i = some x → ∃ life older, lives i es = life :: older ∧
        life.last = none ∧ x.1 = life.first.1 ∧ SlotLife lib life x.2) ∧
      server'.sessionsTotal = server.sessionsTotal +
        UInt64.ofNat ((List.finRange maxRtcSessions).flatMap fun i ↦ lives i es).length := by
  obtain ⟨es, hes⟩ := exists_moves_of_passes lib (sound_of_empty hempty) h
  have hrun := hes.run
  rw [funext hempty] at hrun
  have haccounts := accounts_of_exec hrun
  -- What starts, calls and ends a life is in the trace, and everything in the trace is proper.
  have hparts : ∀ i, ∀ life ∈ lives i es, (∃ env config, rtcSessionCreate env config = some life.first.2) ∧
      (∀ e ∈ life.calls, e.call.isDestroy = false) ∧ ∀ e ∈ life.last, e.call.isDestroy = true := by
    intro i life hlife
    obtain ⟨hstart, hcalls, hlast⟩ := mem_of_mem_lives hlife
    exact ⟨hes.proper _ hstart, fun e he ↦ hes.proper _ (hcalls e he), fun e he ↦ hes.proper _ (hlast e he)⟩
  refine ⟨es, hes.trace, flatMap_trace_lives hrun, fun i life hlife ↦ ?_, fun i ↦ (haccounts i).ended,
    fun i hnone ↦ ?_, fun i x hx ↦ ?_, ?_⟩
  · obtain ⟨hcreated, hcalls, hdestroy⟩ := hparts i life hlife
    obtain ⟨x, hx⟩ := (haccounts i).runs life hlife
    rw [Life.events] at hx
    obtain ⟨y, hy, hlast⟩ := Run.exists_of_exec_append hx
    refine ⟨y.2, hcreated, (exec_rtcStep_of_slotStep (exec_slotStep_of_loopStep hy)).2, hcalls,
      fun e he ↦ ⟨hdestroy e he, ?_⟩⟩
    rw [Option.mem_def.1 he, Option.toList_some, Run.exec_cons] at hlast
    obtain ⟨z, hz, -⟩ := Option.bind_eq_some_iff.1 hlast
    exact (loopStep_eq_some.1 hz).1 (hdestroy e he)
  · exact Accounts.ended_of_none (hnone ▸ haccounts i)
  · obtain ⟨life, older, hlives, hlast, hx⟩ := Accounts.exists_of_some (hx ▸ haccounts i)
    obtain ⟨hcreated, hcalls, -⟩ := hparts i life (hlives ▸ List.mem_cons_self)
    obtain ⟨hid, hsession⟩ := exec_rtcStep_of_slotStep (exec_slotStep_of_loopStep hx)
    refine ⟨life, older, hlives, hlast, hid, hcreated, hsession, hcalls, fun e he ↦ ?_⟩
    rw [hlast] at he
    exact absurd he (Option.not_mem_none e)
  · rw [hes.total, length_flatMap_lives (List.nodup_finRange _) (List.mem_finRange)]

/-! ### The end of the loop -/

/-- The sessions that are left are destroyed, slot by slot. -/
theorem exists_moves_shutdown (lib : Libraries) (ans : Fin maxRtcSessions → Answers)
    (l : List (Fin maxRtcSessions))
    (hs : server.Sound) :
    ∃ es, Moves (slotStep lib) server es
      (l.foldl (fun server slot ↦ (server.call lib slot ⟨ans slot, .destroy⟩).vacate slot) server) := by
  induction l generalizing server with
  | nil => exact ⟨[], Moves.refl server⟩
  | cons slot l ih =>
    rcases hx : server.sessions.get slot with - | x
    · -- An empty slot stays as it is.
      have hsame : ((server.call lib slot ⟨ans slot, .destroy⟩).vacate slot).sessions.get =
          server.sessions.get := by
        funext i
        rw [get_vacate, get_call]
        split_ifs with hi
        · rw [hi, hx]
        · rfl
      have hsound : ((server.call lib slot ⟨ans slot, .destroy⟩).vacate slot).Sound := by
        intro i x hx
        rw [hsame] at hx
        exact hs i x hx
      obtain ⟨es, hes⟩ := ih hsound
      have htrace : (server.call lib slot ⟨ans slot, .destroy⟩).trace = server.trace := by
        rw [Server.call, hx]
      refine ⟨es, ⟨hsame ▸ hes.run, hes.proper, hes.total.trans ?_, ?_⟩⟩
      · rw [show ((server.call lib slot ⟨ans slot, .destroy⟩).vacate slot).sessionsTotal =
          server.sessionsTotal from sessionsTotal_call slot _]
      · exact hes.trace.trans (congrArg (· ++ es) htrace)
    · obtain ⟨es, hes⟩ := exists_moves_destroy lib (ans slot) hs hx fun _ h ↦ h
      obtain ⟨es', hes'⟩ := ih (hes.sound hs)
      exact ⟨es ++ es', hes.trans hes'⟩

/-- A destroyed session is closed. -/
theorem state_rtcSessionDestroy (s : RtcSession) : (rtcSessionDestroy ans s).state = .closed := by
  rw [rtcSessionDestroy]
  rcases eq_or_ne s.state .closed with hclosed | hopen
  · rw [if_neg (not_not.2 hclosed)]
    exact hclosed
  · rw [if_pos hopen]
    exact state_rtcSessionClose s

/-- Nothing is left. -/
theorem get_serverShutdown (ans : Fin maxRtcSessions → Answers) (i : Fin maxRtcSessions) :
    (serverShutdown lib ans server).sessions.get i = none := by
  refine (@foldl_places _ _ Server _ (fun t ↦ t.sessions.get)
    (fun server slot ↦ (server.call lib slot ⟨ans slot, .destroy⟩).vacate slot) (fun _ _ ↦ none)
    (fun t slot j ↦ ?_) _ (List.nodup_finRange _) server i).trans (if_pos (List.mem_finRange i))
  rw [get_vacate, get_call]
  split_ifs <;> rfl

/-- **Every session is destroyed exactly once.** When the loop has ended and the sessions that are left are
destroyed, no slot has a session, and the calls on the sessions of a slot are a list of lives that have all
ended: a session as it was created, then calls none of which is `rtc_session_destroy`, and
`rtc_session_destroy` as the last one, all of them on a session that is not destroyed yet. `sessions_total`
counts them. -/
theorem sessions_of_shutdown {inputs : List PassInput} (ans : Fin maxRtcSessions → Answers)
    (hempty : ∀ i, server.sessions.get i = none)
    (h : Run.exec (serverPass lib model) server inputs = some server') :
    (∀ i, (serverShutdown lib ans server').sessions.get i = none) ∧
    ∃ es, (serverShutdown lib ans server').trace = server.trace ++ es ∧
      (∀ i, (lives i es).reverse.flatMap (Life.trace i) = es.filter fun e ↦ e.place = i) ∧
      (∀ i, ∀ life ∈ lives i es, ∃ e, life.last = some e ∧ e.call.isDestroy = true ∧
        (∃ env config, rtcSessionCreate env config = some life.first.2) ∧
        (∀ e ∈ life.calls, e.call.isDestroy = false) ∧
        ∃ session, Run.exec (rtcStep lib) life.first.2 (life.calls ++ [e]) = some session ∧
          session.destroyed = true ∧ session.state = .closed) ∧
      (serverShutdown lib ans server').sessionsTotal = server.sessionsTotal +
        UInt64.ofNat ((List.finRange maxRtcSessions).flatMap fun i ↦ lives i es).length := by
  obtain ⟨es₁, h₁⟩ := exists_moves_of_passes lib (sound_of_empty hempty) h
  obtain ⟨es₂, h₂⟩ := exists_moves_shutdown lib ans (List.finRange maxRtcSessions)
    (h₁.mono.sound (sound_of_empty hempty))
  have hmoves : Moves (slotStep lib) server (es₁ ++ es₂) (serverShutdown lib ans server') := h₁.mono.trans h₂
  have hrun := hmoves.run
  rw [funext hempty] at hrun
  have hnone (i : Fin maxRtcSessions) : (serverShutdown lib ans server').sessions.get i = none :=
    get_serverShutdown ans i
  refine ⟨hnone, es₁ ++ es₂, hmoves.trace, flatMap_trace_lives hrun, fun i life hlife ↦ ?_, ?_⟩
  · obtain ⟨hstart, hcalls, hlast⟩ := mem_of_mem_lives hlife
    have haccounts := accounts_of_exec hrun i
    rw [hnone i] at haccounts
    -- The slot is empty, so the newest life has ended as well.
    obtain ⟨e, he⟩ := Option.isSome_iff_exists.1 (haccounts.ended_of_none life hlife)
    obtain ⟨env, config, hcreate⟩ := hmoves.proper _ hstart
    have hdestroy : e.call.isDestroy = true := hmoves.proper _ (hlast e he)
    obtain ⟨x, hx⟩ := haccounts.runs life hlife
    have hevents : life.events = life.calls ++ [e] := by
      rw [Life.events, he]
      rfl
    rw [hevents] at hx
    obtain ⟨-, hsession⟩ := exec_rtcStep_of_slotStep hx
    refine ⟨e, he, hdestroy, ⟨env, config, hcreate⟩, fun e he ↦ hmoves.proper _ (hcalls e he), x.2,
      hsession, ?_⟩
    obtain ⟨t, ht, hstep⟩ := Run.exists_of_exec_snoc hsession
    obtain ⟨-, hcall⟩ := rtcStep_eq_some.1 hstep
    obtain ⟨answers, call⟩ := e
    cases call with
    | destroy =>
      rw [← hcall]
      exact ⟨rfl, state_rtcSessionDestroy t⟩
    | onUdp | tick | sendAccessUnit | close => exact absurd hdestroy Bool.false_ne_true
  · rw [hmoves.total, length_flatMap_lives (List.nodup_finRange _) List.mem_finRange]

end Moves

/-! ### A pass with an offer -/

/-- The offer of a browser with the certificate that `sampleLibraries` knows. -/
def viewerOfferText : List UInt8 :=
  Lines.crlf [ascii "v=0", ascii "a=ice-ufrag:u", ascii "a=ice-pwd:p", ascii "a=fingerprint:" ++ sampleFingerprint,
    ascii "m=video 9 X 96", ascii "a=mid:0", ascii "a=rtpmap:96 H264/90000",
    ascii "a=fmtp:96 packetization-mode=1"]

/-- What is parsed of it. -/
def viewerOffer : SdpOffer where
  iceUfrag := ascii "u"
  icePwd := ascii "p"
  fingerprint := sampleFingerprint
  setup := ascii "actpass"
  videoMid := ascii "0"
  audioMid := []
  hasAudio := false
  h264PayloadType := 96
  h264PacketizationMode := 1

theorem sdpParseOffer_viewerOfferText : sdpParseOffer viewerOfferText = some viewerOffer := by
  decide +kernel

/-- A request with this offer. -/
def sampleOfferRequest : List UInt8 :=
  ascii "\x7b\"sdp\":\"" ++ jsonEscape viewerOfferText ++ ascii "\"\x7d"

/-- What its handler asks. -/
def sampleOfferEnv : OfferEnv where
  stack := []
  sessionId := 7
  create := sampleCreate
  localFingerprint := sampleFingerprint
  advertiseIp := ascii "192.0.2.1"
  extraIps := []
  boundPort := 50000
  destroy := sampleAnswers 5

/-- A pass in which nothing happens but these requests. -/
def samplePass (http : List HttpMessage) : PassInput where
  dtlsTimeout := fun _ ↦ none
  pollIn := fun _ ↦ true
  stack := List.replicate recvSize 0
  inbox := fun _ _ ↦ []
  http := http
  now := 10
  tick := fun _ ↦ sampleAnswers 10
  units := []
  send := fun _ _ ↦ sampleAnswers 10
  destroy := fun _ ↦ sampleAnswers 10

/-- What asks for the session of the sample offer to be closed. -/
def sampleCloseMessage : HttpMessage :=
  ⟨ascii "/rtc/close", closeRequest 0 7, sampleOfferEnv, sampleAnswers 8⟩

/-- The sample offer. -/
def sampleOfferMessage : HttpMessage :=
  ⟨ascii "/rtc/offer", sampleOfferRequest, sampleOfferEnv, sampleAnswers 5⟩

theorem fits_sampleOfferEnv : sampleOfferEnv.args.Fits where
  localFingerprint := by decide
  localUfrag := by decide +kernel
  localPwd := by decide +kernel
  advertiseIp := by decide
  extraCount := by decide
  extraIps := fun _ hip ↦ absurd hip List.not_mem_nil

/-- There is a session for it. -/
theorem exists_createSession_sample : ∃ session answer,
    rtcSessionCreate sampleCreate ⟨viewerOffer, true, true⟩ = some session ∧
      createSession viewerOffer sampleOfferEnv = some (some (session, answer)) ∧
      answer.length < answerSize := by
  have hfits := (fits_of_sdpParseOffer sdpParseOffer_viewerOfferText).printable
    (h264PayloadType_bounds sdpParseOffer_viewerOfferText)
  have htext := (sdpBuildAnswerMulti_of_fits hfits fits_sampleOfferEnv answerSize).trans
    (if_pos (sdpAnswerText_of_fits hfits fits_sampleOfferEnv).2)
  have hcreate : rtcSessionCreate sampleCreate ⟨viewerOffer, true, true⟩ = some _ := if_neg (by decide)
  refine ⟨_, _, hcreate, ?_, length_lt_of_sdpBuildAnswerMulti htext⟩
  rw [createSession, if_neg (by decide), rtcAnswer_eq, htext]
  dsimp only
  rw [rtcSessionCreate, if_neg]
  · rfl
  · rintro (h | h | h | h)
    · exact absurd h (by decide)
    · exact absurd h (by decide)
    · exact absurd h (by decide)
    · exact absurd (List.length_eq_zero_iff.1 h) (by decide +kernel)

theorem exists_httpEventHandler_sample : ∃ session,
    rtcSessionCreate sampleCreate ⟨viewerOffer, true, true⟩ = some session ∧
    httpEventHandler .lp64 idleServer sampleOfferMessage =
      some (idleServer.openSession ⟨0, maxRtcSessions_pos⟩ sampleOfferEnv.id session) := by
  obtain ⟨session, answer, hsession, hcreate, hlength⟩ := exists_createSession_sample
  have hbody : (sampleOfferRequest ++ 0 :: sampleOfferEnv.stack).take requestSize =
      ascii "\x7b" ++ jsonPattern (ascii "sdp") ++ ascii ":" ++
        0x22 :: (jsonEscape viewerOfferText ++ 0x22 :: [0x7D, 0]) := by
    decide +kernel
  have hget : jsonGetString ((sampleOfferRequest ++ 0 :: sampleOfferEnv.stack).take requestSize)
      (ascii "sdp") answerSize = .stored viewerOfferText true := by
    refine jsonGetString_escape ⟨?_, _, _, _, hbody, ?_, ?_⟩ (by decide +kernel) (by decide +kernel)
    · rw [hbody]
      refine List.mem_append_right _ (List.mem_cons_of_mem _ (List.mem_append_right _ ?_))
      exact List.mem_cons_of_mem _ (List.mem_cons_of_mem _ List.mem_cons_self)
    · exact fun c hc ↦ Or.inr (List.mem_singleton.1 hc)
    · rw [hbody]
      decide +kernel
  have hcstring : cstring viewerOfferText = viewerOfferText := by decide +kernel
  have hfree : freeSlot idleServer = some ⟨0, maxRtcSessions_pos⟩ := by decide
  refine ⟨session, hsession, ?_⟩
  rw [httpEventHandler, if_pos (show sampleOfferMessage.uri = ascii "/rtc/offer" from rfl)]
  show (handleRtcOffer idleServer sampleOfferRequest sampleOfferEnv).map Prod.fst = _
  rw [handleRtcOffer, if_neg (by decide +kernel), hget]
  dsimp only
  rw [hcstring, sdpParseOffer_viewerOfferText]
  dsimp only
  rw [hfree]
  dsimp only
  rw [hcreate]
  dsimp only
  rw [replyToOffer_eq hlength]
  rfl

/-- A server without sessions has nothing to receive. -/
theorem receivePhase_idleServer (input : PassInput) :
    receivePhase sampleLibraries input idleServer = idleServer := by
  have hfds : pollFds idleServer = [] := by decide
  rw [receivePhase, hfds]
  rfl

/-- What is left of a pass after its requests. -/
def samplePassTail (http : List HttpMessage) (server : Server) : Server :=
  reapPhase sampleLibraries (samplePass http) (fanOutPhase sampleLibraries (samplePass http)
    (tickPhase sampleLibraries (samplePass http) server))

theorem serverPass_samplePass {http : List HttpMessage} {server' : Server}
    (h : http.foldlM (httpEventHandler .lp64) idleServer = some server') :
    serverPass sampleLibraries .lp64 idleServer (samplePass http) =
      some (samplePassTail http server') := by
  rw [serverPass, receivePhase_idleServer]
  exact congrArg (Option.map _) h

theorem exists_foldlM_sample : ∃ session,
    rtcSessionCreate sampleCreate ⟨viewerOffer, true, true⟩ = some session ∧
    [sampleOfferMessage].foldlM (httpEventHandler .lp64) idleServer =
      some (idleServer.openSession ⟨0, maxRtcSessions_pos⟩ sampleOfferEnv.id session) := by
  obtain ⟨session, hsession, hserver⟩ := exists_httpEventHandler_sample
  refine ⟨session, hsession, ?_⟩
  rw [List.foldlM_cons, hserver]
  rfl

theorem exists_serverPass_sample :
    ∃ server, Run.exec (serverPass sampleLibraries .lp64) idleServer [samplePass [sampleOfferMessage]] =
      some server := by
  obtain ⟨session, -, hhttp⟩ := exists_foldlM_sample
  exact ⟨_, Run.exec_cons_of_step (serverPass_samplePass hhttp) (Run.exec_nil _)⟩

theorem get_idleServer (i : Fin maxRtcSessions) : idleServer.sessions.get i = none := by
  revert i
  decide

/-- The server after the pass with the offer. -/
def sampleOffered (session : RtcSession) : Server :=
  samplePassTail [sampleOfferMessage]
    (idleServer.openSession ⟨0, maxRtcSessions_pos⟩ sampleOfferEnv.id session)

/-- The lives in the first slot of a server that had none: how many calls, and whether the last has come. -/
def Server.firstLives (server : Server) : List (ℕ × Bool) :=
  (lives ⟨0, maxRtcSessions_pos⟩ server.trace).map fun life ↦ (life.calls.length, life.last.isSome)

/-- The session is closed by the request, and destroyed at the end of the pass. -/
theorem firstLives_close :
    ((rtcSessionCreate sampleCreate ⟨viewerOffer, true, true⟩).bind fun session ↦
      (serverPass sampleLibraries .lp64 (sampleOffered session) (samplePass [sampleCloseMessage])).map
        Server.firstLives) = some [(3, true)] := by
  decide +kernel

/-- It is destroyed when the loop ends. -/
theorem firstLives_serverShutdown :
    ((rtcSessionCreate sampleCreate ⟨viewerOffer, true, true⟩).map fun session ↦
      (serverShutdown sampleLibraries (fun _ ↦ sampleAnswers 20) (sampleOffered session)).firstLives) =
      some [(1, true)] := by
  decide +kernel

/-- The life that the sample computes, as a life of the trace. -/
theorem exists_of_firstLives {server : Server} {calls : ℕ} {es : List SlotEvent}
    (h : server.firstLives = [(calls, true)]) (htrace : server.trace = idleServer.trace ++ es) :
    ∃ life e, lives ⟨0, maxRtcSessions_pos⟩ es = [life] ∧ life.calls.length = calls ∧ life.last = some e := by
  rw [Server.firstLives, htrace] at h
  obtain ⟨life, hlives, hlife⟩ := List.map_eq_singleton_iff.1 h
  obtain ⟨hcalls, hlast⟩ := Prod.mk.inj hlife
  obtain ⟨e, he⟩ := Option.isSome_iff_exists.1 hlast
  exact ⟨life, e, hlives, hcalls, he⟩

theorem sessions_of_passes_sample : ∃ server es life e session,
    Run.exec (serverPass sampleLibraries .lp64) idleServer
      [samplePass [sampleOfferMessage], samplePass [sampleCloseMessage]] = some server ∧
    server.trace = es ∧ lives ⟨0, maxRtcSessions_pos⟩ es = [life] ∧ life.calls.length = 3 ∧ life.last = some e ∧
    SlotLife sampleLibraries life session := by
  obtain ⟨created, hcreated, hhttp⟩ := exists_foldlM_sample
  have hlives := firstLives_close
  rw [hcreated, Option.bind_some] at hlives
  obtain ⟨server, hpass, hlives⟩ := Option.map_eq_some_iff.1 hlives
  have hrun := Run.exec_cons_of_step (serverPass_samplePass hhttp)
    (Run.exec_cons_of_step hpass (Run.exec_nil _))
  obtain ⟨es, htrace, -, hlife, -⟩ := sessions_of_passes get_idleServer hrun
  obtain ⟨life, e, hone, hcalls, hlast⟩ := exists_of_firstLives hlives htrace
  obtain ⟨session, hsession⟩ := hlife _ life (hone ▸ List.mem_singleton_self life)
  exact ⟨server, es, life, e, session, hrun, htrace, hone, hcalls, hlast, hsession⟩

theorem sessions_of_shutdown_sample : ∃ server es life e,
    Run.exec (serverPass sampleLibraries .lp64) idleServer [samplePass [sampleOfferMessage]] = some server ∧
    (serverShutdown sampleLibraries (fun _ ↦ sampleAnswers 20) server).trace = es ∧
    lives ⟨0, maxRtcSessions_pos⟩ es = [life] ∧ life.calls.length = 1 ∧ life.last = some e ∧
    e.call.isDestroy = true := by
  obtain ⟨created, hcreated, hhttp⟩ := exists_foldlM_sample
  have hlives := firstLives_serverShutdown
  rw [hcreated, Option.map_some, Option.some_inj] at hlives
  have hrun := Run.exec_cons_of_step (serverPass_samplePass hhttp) (Run.exec_nil _)
  obtain ⟨-, es, htrace, -, hlife, -⟩ :=
    sessions_of_shutdown (fun _ ↦ sampleAnswers 20) get_idleServer hrun
  obtain ⟨life, e, hone, hcalls, hlast⟩ := exists_of_firstLives hlives htrace
  obtain ⟨e', he', hdestroy, -⟩ := hlife _ life (hone ▸ List.mem_singleton_self life)
  obtain rfl := Option.some.inj (hlast.symm.trans he')
  exact ⟨_, es, life, e, hrun, htrace, hone, hcalls, hlast, hdestroy⟩

end Camstream
