import Camstream.App.SessionTable

/-!
# What a pass does to the viewers

The parts of a pass work on one slot after the other, and so what they do to the table can be said of each
slot by itself: a tick for every session (`get_tickPhase`), the access units for those that stream
(`get_fanOutPhase`), and the closed ones leave (`get_reapPhase`). The first part is different, since it
looks for the session by its descriptor: `get_foldl_receiveFd` needs descriptors that are in use once only, as
the operating system hands them out (`FreshSockets`).
-/

namespace Camstream

open CString Hosting

variable {lib : Libraries} {model : DataModel} {server server' : Server} {input : PassInput}
  {s : RtcSession} {ans : Answers}

/-! ### One session -/

/-- A session has the descriptor that the operating system has given it. -/
theorem udpFd_rtcSessionCreate {env : CreateAnswers} {config : RtcSessionConfig}
    (h : rtcSessionCreate env config = some s) : s.udpFd = env.udpFd := by
  rw [rtcSessionCreate] at h
  rcases Decidable.em (!env.allocated ∨ env.udpFd < 0 ∨ !env.engineCreated ∨ env.answerLength = 0)
    with hguard | hguard
  · rw [if_pos hguard] at h
    exact absurd h.symm (Option.some_ne_none s)
  · rw [if_neg hguard] at h
    obtain rfl := Option.some.inj h
    rfl

/-- Handing a packet to the sink does not change where the session is in its life. -/
theorem state_rtpPacketSink (s : RtcSession) (call : SinkCall) :
    (rtpPacketSink lib ans s call).state = s.state := by
  by_cases hfits : call.packet.length ≤ rtpMaxPacket + 64
  · rcases h : (dtlsSrtpSendRtp lib (rtcCallbacks ans) s call.packet).2 with - | data
    · exact congrArg SessionView.state (rtpPacketSink_of_none lib ans s h).1
    · exact (talk_rtpPacketSink lib ans s hfits h).1.state_eq
  · rw [rtpPacketSink, if_pos (Nat.not_le.1 hfits)]

/-- Sending changes no state. -/
theorem state_rtcSessionSendAccessUnit (s : RtcSession) (accessUnit : List UInt8) (ptsUs : UInt64)
    (isIdr : Bool) : (rtcSessionSendAccessUnit lib ans s accessUnit ptsUs isIdr).1.state = s.state := by
  have hfold (calls : List SinkCall) (t : RtcSession) :
      (calls.foldl (rtpPacketSink lib ans) t).state = t.state := by
    induction calls generalizing t with
    | nil => rfl
    | cons call calls ih => exact (ih _).trans (state_rtpPacketSink t call)
  rw [rtcSessionSendAccessUnit]
  set t : RtcSession := if isIdr ∧ s.idrRequested then { s with idrRequested := false } else s with ht
  have hstate : t.state = s.state := by
    rw [ht]
    split_ifs <;> rfl
  dsimp only
  split_ifs
  · exact hstate
  · exact (hfold _ _).trans hstate

/-- **The timers of a session after a tick.** Unless it is closed, it has heard something in the last
fifteen seconds, and if it is still in ICE it is not older than thirty. -/
theorem timers_rtcSessionTick (lib : Libraries) (ans : Answers) (hphase : s.view.InPhase) {now : ℕ}
    (h : (rtcSessionTick lib ans s now).state ≠ .closed) :
    now - (rtcSessionTick lib ans s now).lastRxMs ≤ sessionIdleTimeoutMs ∧
      ((rtcSessionTick lib ans s now).state = .ice →
        now - (rtcSessionTick lib ans s now).createdMs ≤ sessionDtlsWatchdogMs) := by
  have hinner : Inner lib [] s.view (rtcSessionTick lib ans s now).view :=
    inner_rtcSessionTick lib ans s hphase now
  have hrx : (rtcSessionTick lib ans s now).lastRxMs = s.lastRxMs :=
    congrArg SessionFrame.lastRxMs hinner.frame_eq
  have hcreated : (rtcSessionTick lib ans s now).createdMs = s.createdMs :=
    congrArg SessionFrame.createdMs hinner.frame_eq
  have hopen : s.state ≠ .closed := by
    intro hclosed
    rw [rtcSessionTick, if_pos hclosed] at h
    exact h hclosed
  rw [hrx, hcreated]
  refine ⟨Nat.not_lt.1 fun hidle ↦ h (rtcSessionTick_of_idle hidle), fun hice ↦ Nat.not_lt.1 fun hold ↦ ?_⟩
  -- A tick starts no ICE, so that the session was in it already.
  have hstate : s.state = .ice := by
    refine hinner.preserves (P := fun v ↦ v.state = .ice → s.state = .ice) (fun v w hstep hv hw ↦ ?_) id hice
    cases hstep with
    | effect | send | store => exact hv hw
    | handshake => exact absurd hw (show RtcSessionState.dtls ≠ .ice by decide)
    | connect => exact absurd hw (show RtcSessionState.streaming ≠ .ice by decide)
    | close => exact absurd hw (show RtcSessionState.closed ≠ .ice by decide)
  refine h ?_
  rw [rtcSessionTick, if_neg hopen]
  split_ifs with hidle hwatchdog
  · exact state_rtcSessionClose s
  · exact state_rtcSessionClose s
  · exact absurd ⟨hstate, hold⟩ hwatchdog

/-! ### One slot -/

/-- Calls on the session of one slot. -/
theorem get_foldl_call (calls : List RtcEvent) (server : Server) (slot i : Fin maxRtcSessions) :
    (calls.foldl (fun server e ↦ server.call lib slot e) server).sessions.get i =
      if i = slot then (server.sessions.get i).map fun x ↦ (x.1, calls.foldl (rtcCall lib) x.2)
      else server.sessions.get i := by
  induction calls generalizing server with
  | nil => simp
  | cons e calls ih =>
    rw [List.foldl_cons, ih, get_call]
    split_ifs
    · rw [Option.map_map]
      rfl
    · rfl

/-- A loop over the slots that works on one at a time. -/
theorem get_foldl_slots {f : Server → Fin maxRtcSessions → Server}
    {g : Fin maxRtcSessions → Option (UInt32 × RtcSession) → Option (UInt32 × RtcSession)}
    (hf : ∀ t slot i, (f t slot).sessions.get i =
      if i = slot then g slot (t.sessions.get i) else t.sessions.get i) (server : Server)
    (i : Fin maxRtcSessions) :
    ((List.finRange maxRtcSessions).foldl f server).sessions.get i = g i (server.sessions.get i) :=
  (@foldl_places _ _ Server _ (fun t ↦ t.sessions.get) f g hf _ (List.nodup_finRange _) server i).trans
    (if_pos (List.mem_finRange i))

/-- **Every session gets its tick.** -/
theorem get_tickPhase (lib : Libraries) (input : PassInput) (server : Server) (i : Fin maxRtcSessions) :
    (tickPhase lib input server).sessions.get i =
      (server.sessions.get i).map fun x ↦ (x.1, rtcCall lib x.2 ⟨input.tick i, .tick input.now⟩) := by
  refine get_foldl_slots (g := fun i o ↦ o.map fun x ↦
    (x.1, rtcCall lib x.2 ⟨input.tick i, .tick input.now⟩)) (fun t slot i ↦ ?_) server i
  exact get_call slot i _

/-- An access unit for the sessions that stream. -/
theorem get_sendUnit (lib : Libraries) (input : PassInput) (server : Server) (unit : AccessUnit × ℕ)
    (i : Fin maxRtcSessions) :
    (sendUnit lib input server unit).sessions.get i =
      (server.sessions.get i).map fun x ↦
        if x.2.state = .streaming then (x.1, rtcCall lib x.2 (input.sendEvent i unit)) else x := by
  refine get_foldl_slots (g := fun i o ↦ o.map fun x ↦
    if x.2.state = .streaming then (x.1, rtcCall lib x.2 (input.sendEvent i unit)) else x)
    (fun t slot i ↦ ?_) server i
  rw [sendSlot]
  rcases h : t.sessions.get slot with - | ⟨id, session⟩
  · dsimp only
    split_ifs with hi
    · rw [hi, h]
      rfl
    · rfl
  · dsimp only
    split_ifs with hstreaming hi hi
    · rw [get_call, if_pos hi, hi, h, Option.map_some, Option.map_some, if_pos hstreaming]
    · rw [get_call, if_neg hi]
    · rw [hi, h, Option.map_some, if_neg hstreaming]
    · rfl

/-- **Every viewer gets every access unit, and nobody else does.** -/
theorem get_fanOutPhase (lib : Libraries) (input : PassInput) (server : Server) (i : Fin maxRtcSessions) :
    (fanOutPhase lib input server).sessions.get i =
      (server.sessions.get i).map fun x ↦
        if x.2.state = .streaming then
          (x.1, (input.units.zipIdx.map (input.sendEvent i)).foldl (rtcCall lib) x.2)
        else x := by
  rw [fanOutPhase]
  generalize input.units.zipIdx = units
  induction units generalizing server with
  | nil => simp
  | cons unit units ih =>
    rw [List.foldl_cons, ih, get_sendUnit, Option.map_map]
    refine congrArg (Option.map · _) (funext fun x ↦ ?_)
    dsimp only [Function.comp_apply]
    split_ifs with hstreaming hnext
    · rfl
    · exact absurd ((state_rtcSessionSendAccessUnit x.2 _ _ _).trans hstreaming) hnext
    · rfl

theorem state_foldl_sendEvent (i : Fin maxRtcSessions) (units : List (AccessUnit × ℕ)) (s : RtcSession) :
    ((units.map (input.sendEvent i)).foldl (rtcCall lib) s).state = s.state := by
  induction units generalizing s with
  | nil => rfl
  | cons unit units ih => exact (ih _).trans (state_rtcSessionSendAccessUnit s _ _ _)

/-- Access units leave the timers alone. -/
theorem timers_foldl_sendEvent (i : Fin maxRtcSessions) (units : List (AccessUnit × ℕ))
    (h : s.view.Lifecycle) :
    ((units.map (input.sendEvent i)).foldl (rtcCall lib) s).lastRxMs = s.lastRxMs := by
  induction units generalizing s with
  | nil => rfl
  | cons unit units ih =>
    refine (ih (lifecycle_rtcCall lib h _)).trans ?_
    exact congrArg SessionFrame.lastRxMs (view_rtcCall lib s h.inPhase (input.sendEvent i unit)).frame_eq

/-! ### Reaping -/

/-- What is left of a slot: its session, unless it is closed. -/
def leftOpen (o : Option (UInt32 × RtcSession)) : Option (UInt32 × RtcSession) :=
  o.filter fun x ↦ x.2.state ≠ .closed

/-- The loop over the slots: closed sessions leave, and the others are counted. -/
theorem foldl_reapSlot (lib : Libraries) (input : PassInput) {l : List (Fin maxRtcSessions)}
    (hl : l.Nodup) (server : Server) (n : ℕ) :
    (∀ i, (l.foldl (reapSlot lib input) (server, n)).1.sessions.get i =
      if i ∈ l then leftOpen (server.sessions.get i) else server.sessions.get i) ∧
    (l.foldl (reapSlot lib input) (server, n)).2 =
      n + l.countP fun i ↦ (leftOpen (server.sessions.get i)).isSome := by
  induction l generalizing server n with
  | nil => exact ⟨fun i ↦ (if_neg List.not_mem_nil).symm, rfl⟩
  | cons slot l ih =>
    obtain ⟨hslot, hl⟩ := List.nodup_cons.1 hl
    -- One slot is seen to, and the rest of the loop finds the others as they were.
    have hone : ∃ server' n', reapSlot lib input (server, n) slot = (server', n') ∧
        (∀ i, server'.sessions.get i =
          if i = slot then leftOpen (server.sessions.get i) else server.sessions.get i) ∧
        n' = n + if (leftOpen (server.sessions.get slot)).isSome then 1 else 0 := by
      rw [reapSlot]
      dsimp only
      rcases h : server.sessions.get slot with - | ⟨id, session⟩
      · refine ⟨server, n, rfl, fun i ↦ ?_, rfl⟩
        split_ifs with hi
        · rw [hi, h]
          rfl
        · rfl
      · dsimp only
        rcases eq_or_ne session.state .closed with hclosed | hopen
        · rw [if_pos hclosed]
          have hleft : leftOpen (some (id, session)) = none := by simp [leftOpen, hclosed]
          refine ⟨_, _, rfl, fun i ↦ ?_, by rw [hleft]; rfl⟩
          rw [get_vacate, get_call]
          split_ifs with hi
          · rw [hi, h, hleft]
          · rfl
        · rw [if_neg hopen]
          have hleft : leftOpen (some (id, session)) = some (id, session) := by simp [leftOpen, hopen]
          refine ⟨_, _, rfl, fun i ↦ ?_, by rw [hleft]; rfl⟩
          split_ifs with hi
          · rw [hi, h, hleft]
          · rfl
    obtain ⟨server', n', heq, hget, hn⟩ := hone
    rw [List.foldl_cons, heq]
    obtain ⟨ihget, ihn⟩ := ih hl server' n'
    constructor
    · intro i
      rw [ihget, hget]
      rcases eq_or_ne i slot with rfl | hne
      · rw [if_neg hslot, if_pos rfl, if_pos List.mem_cons_self]
      · rw [if_neg hne]
        exact if_congr (by rw [List.mem_cons, or_iff_right hne]) rfl rfl
    · have hrest : (l.countP fun i ↦ (leftOpen (server'.sessions.get i)).isSome) =
          l.countP fun i ↦ (leftOpen (server.sessions.get i)).isSome := by
        refine List.countP_congr fun i hi ↦ ?_
        have hne : i ≠ slot := fun h ↦ hslot (h ▸ hi)
        rw [hget, if_neg hne]
      rw [ihn, hn, hrest, List.countP_cons]
      omega

/-- **Closed sessions leave at the end of a pass.** -/
theorem get_reapPhase (lib : Libraries) (input : PassInput) (server : Server) (i : Fin maxRtcSessions) :
    (reapPhase lib input server).sessions.get i = leftOpen (server.sessions.get i) := by
  have hloop := (foldl_reapSlot lib input (List.nodup_finRange _) server 0).1 i
  rw [if_pos (List.mem_finRange i)] at hloop
  rw [reapPhase_eq, ← hloop]

/-- **The encoder runs as long as there is a session.** -/
theorem rtcActive_reapPhase (lib : Libraries) (input : PassInput) (server : Server) :
    (reapPhase lib input server).rtcActive = true ↔
      ∃ i, ((reapPhase lib input server).sessions.get i).isSome := by
  simp only [get_reapPhase]
  rw [reapPhase_eq, decide_eq_true_iff, (foldl_reapSlot lib input (List.nodup_finRange _) server 0).2,
    Nat.zero_add, List.countP_pos_iff]
  exact exists_congr fun i ↦ and_iff_right (List.mem_finRange i)

/-! ### The sockets -/

/-- The calls of the loop around `recvfrom` for the session of a slot, if its descriptor is at a place. -/
def PassInput.received (input : PassInput) (k : ℕ) (slot : Fin maxRtcSessions) : List RtcEvent :=
  if input.pollIn k then recvCalls input.stack (input.inbox k slot) else []

theorem isDestroy_of_mem_received {k : ℕ} {i : Fin maxRtcSessions} {e : RtcEvent}
    (he : e ∈ input.received k i) : e.call.isDestroy = false := by
  rw [PassInput.received] at he
  split_ifs at he
  · exact isDestroy_of_mem_recvCalls he
  · exact absurd he List.not_mem_nil

theorem isDestroy_of_mem_sendEvent {i : Fin maxRtcSessions} {units : List (AccessUnit × ℕ)} {e : RtcEvent}
    (he : e ∈ units.map (input.sendEvent i)) : e.call.isDestroy = false := by
  obtain ⟨unit, -, rfl⟩ := List.mem_map.1 he
  rfl

/-- A descriptor is read for the sessions that have it. -/
theorem get_receiveFd (lib : Libraries) (input : PassInput) (server : Server) (fd : ℤ × ℕ)
    (i : Fin maxRtcSessions) :
    (receiveFd lib input server fd).sessions.get i =
      (server.sessions.get i).map fun x ↦
        if x.2.udpFd = fd.1 then (x.1, (input.received fd.2 i).foldl (rtcCall lib) x.2) else x := by
  rw [receiveFd, PassInput.received]
  split_ifs with hin
  swap
  · simp
  refine get_foldl_slots (g := fun i o ↦ o.map fun x ↦
    if x.2.udpFd = fd.1 then (x.1, (recvCalls input.stack (input.inbox fd.2 i)).foldl (rtcCall lib) x.2)
    else x) (fun t slot i ↦ ?_) server i
  -- One turn of the loop over the slots: the session of this slot, if the descriptor is its own.
  rw [receiveSlot]
  rcases h : t.sessions.get slot with - | ⟨id, session⟩
  · dsimp only
    split_ifs with hi
    · rw [hi, h]
      rfl
    · rfl
  · dsimp only
    split_ifs with hfd hi hi
    · rw [get_foldl_call, if_pos hi, hi, h, Option.map_some, Option.map_some, if_pos hfd]
    · rw [get_foldl_call, if_neg hi]
    · rw [hi, h, Option.map_some, if_neg hfd]
    · rfl

/-- No two sessions have the same socket. -/
def Server.DistinctFds (server : Server) : Prop :=
  ∀ i j x y, server.sessions.get i = some x → server.sessions.get j = some y →
    x.2.udpFd = y.2.udpFd → i = j

/-- The sessions that are polled: those that are in a slot and not closed. -/
theorem open?_eq_some {i : Fin maxRtcSessions} :
    server.open? i = some s ↔ ∃ id, server.sessions.get i = some (id, s) ∧ s.state ≠ .closed := by
  rw [Server.open?]
  rcases h : server.sessions.get i with - | ⟨id, session⟩
  · simp
  · dsimp only
    split_ifs with hclosed
    · simp only [false_iff]
      rintro ⟨id', heq, hopen⟩
      obtain ⟨-, rfl⟩ := Prod.mk.inj (Option.some.inj heq)
      exact hopen hclosed
    · constructor
      · rintro heq
        obtain rfl := Option.some.inj heq
        exact ⟨id, rfl, hclosed⟩
      · rintro ⟨id', heq, -⟩
        rw [(Prod.mk.inj (Option.some.inj heq)).2]

/-- A slot is polled by the descriptor of its open session. -/
theorem pollFd?_eq_some {i : Fin maxRtcSessions} {fd : ℤ} :
    server.pollFd? i = some fd ↔ ∃ x, server.sessions.get i = some x ∧ x.2.state ≠ .closed ∧
      x.2.udpFd = fd ∧ 0 ≤ fd := by
  rw [Server.pollFd?]
  constructor
  · intro hi
    split at hi
    · rename_i session hopen
      obtain ⟨id, hget, hstate⟩ := open?_eq_some.1 hopen
      split_ifs at hi with hfd
      obtain rfl := Option.some.inj hi
      exact ⟨_, hget, hstate, rfl, hfd⟩
    · exact absurd hi.symm (Option.some_ne_none _)
  · rintro ⟨⟨id, session⟩, hget, hstate, rfl, hfd⟩
    rw [open?_eq_some.2 ⟨id, hget, hstate⟩]
    exact if_pos hfd

/-- The descriptors of a poll are those of the open sessions. -/
theorem mem_pollFds {fd : ℤ} :
    fd ∈ pollFds server ↔ ∃ i x, server.sessions.get i = some x ∧ x.2.state ≠ .closed ∧
      x.2.udpFd = fd ∧ 0 ≤ fd := by
  rw [pollFds, List.mem_filterMap]
  constructor
  · rintro ⟨i, -, hi⟩
    exact ⟨i, pollFd?_eq_some.1 hi⟩
  · rintro ⟨i, hi⟩
    exact ⟨i, List.mem_finRange i, pollFd?_eq_some.2 hi⟩

/-- No descriptor is polled twice. -/
theorem nodup_pollFds (h : server.DistinctFds) : (pollFds server).Nodup := by
  refine (List.nodup_finRange _).filterMap fun i j fd hi hj ↦ ?_
  obtain ⟨x, hx, -, hxfd, -⟩ := pollFd?_eq_some.1 hi
  obtain ⟨y, hy, -, hyfd, -⟩ := pollFd?_eq_some.1 hj
  exact h i j x y hx hy (hxfd.trans hyfd.symm)

/-- The loop over the descriptors: each session is handed what its own has received. -/
theorem get_foldl_receiveFd (input : PassInput) {fds : List ℤ} (hfds : fds.Nodup) (k : ℕ)
    (hs : server.Sound) (i : Fin maxRtcSessions) :
    (((fds.zipIdx k).foldl (receiveFd lib input) server).sessions.get i) =
      (server.sessions.get i).map fun x ↦
        if x.2.udpFd ∈ fds then
          (x.1, (input.received (k + fds.idxOf x.2.udpFd) i).foldl (rtcCall lib) x.2)
        else x := by
  induction fds generalizing server k with
  | nil => simp
  | cons fd fds ih =>
    obtain ⟨hfd, hfds⟩ := List.nodup_cons.1 hfds
    have hsound : (receiveFd lib input server (fd, k)).Sound := by
      intro j y hy
      rw [get_receiveFd] at hy
      obtain ⟨x, hx, rfl⟩ := Option.map_eq_some_iff.1 hy
      split_ifs
      · exact ((hs j x hx).foldl_rtcCall lib fun _ ↦ isDestroy_of_mem_received).1
      · exact hs j x hx
    rw [List.zipIdx_cons, List.foldl_cons, ih hfds (k + 1) hsound, get_receiveFd]
    rcases hx : server.sessions.get i with - | x
    · rfl
    rw [Option.map_some, Option.map_some, Option.map_some]
    rcases eq_or_ne x.2.udpFd fd with heq | hne
    · -- The rest of the descriptors are others.
      have hsame := ((hs i x hx).foldl_rtcCall lib fun _ ↦
        @isDestroy_of_mem_received input k i _).2
      rw [if_pos heq, if_neg fun h ↦ hfd (heq ▸ hsame ▸ h), if_pos (List.mem_cons.2 (Or.inl heq)), heq,
        List.idxOf_cons_self, Nat.add_zero]
    · rw [if_neg hne, List.idxOf_cons_ne _ hne.symm]
      refine congrArg some (if_congr ?_ ?_ rfl)
      · rw [List.mem_cons, or_iff_right hne]
      · rw [Nat.add_right_comm, Nat.add_assoc k]

/-! ### Sockets are not shared -/

/-- The operating system gives a new socket a descriptor that no session has. -/
def FreshOffers (model : DataModel) : Server → List HttpMessage → Prop
  | _, [] => True
  | server, message :: rest =>
    (message.uri = ascii "/rtc/offer" → ∀ i x, server.sessions.get i = some x →
      x.2.udpFd ≠ message.offer.create.udpFd) ∧
    ∀ server', httpEventHandler model server message = some server' → FreshOffers model server' rest

/-- It does so in every pass. -/
def FreshSockets (lib : Libraries) (model : DataModel) : Server → List PassInput → Prop
  | _, [] => True
  | server, input :: rest =>
    FreshOffers model (receivePhase lib input server) input.http ∧
    ∀ server', serverPass lib model server input = some server' → FreshSockets lib model server' rest

/-- Every session that is there was there before, with the same socket. -/
def Server.Shrinks (server server' : Server) : Prop :=
  ∀ i x', server'.sessions.get i = some x' →
    ∃ x, server.sessions.get i = some x ∧ x'.2.udpFd = x.2.udpFd

/-- Sessions that only leave do not make two descriptors equal. -/
theorem Server.DistinctFds.of_shrinks (h : server.DistinctFds) (hs : server.Shrinks server') :
    server'.DistinctFds := by
  intro i j x' y' hx' hy' hfd
  obtain ⟨x, hx, hxfd⟩ := hs i x' hx'
  obtain ⟨y, hy, hyfd⟩ := hs j y' hy'
  exact h i j x y hx hy (hxfd.symm.trans (hfd.trans hyfd))

/-- Sessions that change where they are. -/
theorem shrinks_of_map {f : Fin maxRtcSessions → UInt32 × RtcSession → UInt32 × RtcSession}
    (hget : ∀ i, server'.sessions.get i = (server.sessions.get i).map (f i))
    (hfd : ∀ i x, server.sessions.get i = some x → (f i x).2.udpFd = x.2.udpFd) :
    server.Shrinks server' := by
  intro i x' hx'
  rw [hget] at hx'
  obtain ⟨x, hx, rfl⟩ := Option.map_eq_some_iff.1 hx'
  exact ⟨x, hx, hfd i x hx⟩

theorem shrinks_receivePhase (lib : Libraries) (input : PassInput) (hs : server.Sound)
    (hfds : server.DistinctFds) : server.Shrinks (receivePhase lib input server) := by
  refine shrinks_of_map (get_foldl_receiveFd input (nodup_pollFds hfds) 0 hs) fun i x hx ↦ ?_
  split_ifs
  · exact ((hs i x hx).foldl_rtcCall lib fun _ ↦ isDestroy_of_mem_received).2
  · rfl

theorem shrinks_tickPhase (lib : Libraries) (input : PassInput) (hs : server.Sound) :
    server.Shrinks (tickPhase lib input server) :=
  shrinks_of_map (get_tickPhase lib input server) fun i x hx ↦ udpFd_rtcCall lib (hs i x hx).lifecycle.inPhase _

theorem shrinks_fanOutPhase (lib : Libraries) (input : PassInput) (hs : server.Sound) :
    server.Shrinks (fanOutPhase lib input server) := by
  refine shrinks_of_map (get_fanOutPhase lib input server) fun i x hx ↦ ?_
  split_ifs
  · exact ((hs i x hx).foldl_rtcCall lib fun _ ↦ isDestroy_of_mem_sendEvent).2
  · rfl

theorem shrinks_reapPhase (lib : Libraries) (input : PassInput) (server : Server) :
    server.Shrinks (reapPhase lib input server) := by
  intro i x hx
  rw [get_reapPhase] at hx
  exact ⟨x, (Option.filter_eq_some_iff.1 hx).1, rfl⟩

/-- Closing a session by its id shares no socket, and neither does an offer with a fresh one. -/
theorem distinctFds_httpEventHandler {message : HttpMessage} (hs : server.Sound) (h : server.DistinctFds)
    (hfresh : message.uri = ascii "/rtc/offer" → ∀ i x, server.sessions.get i = some x →
      x.2.udpFd ≠ message.offer.create.udpFd)
    (hhandler : httpEventHandler model server message = some server') : server'.DistinctFds := by
  rw [httpEventHandler] at hhandler
  split_ifs at hhandler with hoffer
  · obtain ⟨⟨server'', reply⟩, hreply, rfl⟩ := Option.map_eq_some_iff.1 hhandler
    rcases handleRtcOffer_cases hreply with ⟨rfl, -⟩ | ⟨_, offer, slot, session, answer, -, -, -, hcreate,
      rfl, -⟩
    · exact h
    · obtain ⟨env, hsession, henv⟩ := exists_of_createSession hcreate
      have hfd : session.udpFd = message.offer.create.udpFd :=
        (udpFd_rtcSessionCreate hsession).trans henv
      -- The new session has the fresh descriptor, and the others have kept theirs.
      intro i j x y hx hy hxy
      rw [get_openSession] at hx hy
      split_ifs at hx hy with hi hj hj
      · exact hi.trans hj.symm
      · obtain rfl := Option.some.inj hx
        exact absurd (hxy.symm.trans hfd) (hfresh hoffer j y hy)
      · obtain rfl := Option.some.inj hy
        exact absurd (hxy.trans hfd) (hfresh hoffer i x hx)
      · exact h i j x y hx hy hxy
  · obtain rfl := Option.some.inj hhandler
    refine h.of_shrinks ?_
    rw [handleRtcClose]
    split_ifs
    · exact fun i x hx ↦ ⟨x, hx, rfl⟩
    split
    · exact fun i x hx ↦ ⟨x, hx, rfl⟩
    dsimp only
    split
    swap
    · exact fun i x hx ↦ ⟨x, hx, rfl⟩
    intro i x' hx'
    rw [get_closeSlot] at hx'
    split_ifs at hx'
    · obtain ⟨x, hx, rfl⟩ := Option.map_eq_some_iff.1 hx'
      exact ⟨x, hx, udpFd_rtcCall sampleLibraries (hs i x hx).lifecycle.inPhase ⟨message.close, .close⟩⟩
    · exact ⟨x', hx', rfl⟩
  · obtain rfl := Option.some.inj hhandler
    exact h

/-- The requests of a pass open sessions on fresh descriptors. -/
theorem distinctFds_foldlM {http : List HttpMessage} (hs : server.Sound) (h : server.DistinctFds)
    (hfresh : FreshOffers model server http)
    (hhttp : http.foldlM (httpEventHandler model) server = some server') : server'.DistinctFds := by
  induction http generalizing server with
  | nil =>
    obtain rfl := Option.some.inj hhttp
    exact h
  | cons message http ih =>
    rw [List.foldlM_cons] at hhttp
    obtain ⟨t, ht, hhttp⟩ := Option.bind_eq_some_iff.1 hhttp
    obtain ⟨es, hes⟩ := exists_moves_httpEventHandler sampleLibraries hs ht
    exact ih (hes.mono.sound hs) (distinctFds_httpEventHandler hs h hfresh.1 ht) (hfresh.2 t ht) hhttp

/-- The table as the parts of a pass find it. -/
structure PassParts (lib : Libraries) (model : DataModel) (server : Server) (input : PassInput)
    (requested ticked server' : Server) : Prop where
  http : httpPhase model input (receivePhase lib input server) = some requested
  tick_eq : ticked = tickPhase lib input requested
  reap_eq : server' = reapPhase lib input (fanOutPhase lib input ticked)
  sound_requested : requested.Sound
  sound_ticked : ticked.Sound

/-- The server between the parts of a pass. -/
theorem exists_passParts (hs : server.Sound) (h : serverPass lib model server input = some server') :
    ∃ requested ticked, PassParts lib model server input requested ticked server' := by
  obtain ⟨t, ht, rfl⟩ := Option.map_eq_some_iff.1 h
  obtain ⟨es₁, h₁⟩ := exists_moves_receivePhase lib input hs
  obtain ⟨es₂, h₂⟩ := exists_moves_httpPhase lib (h₁.mono.sound hs) ht
  have hs := h₂.mono.sound (h₁.mono.sound hs)
  obtain ⟨es₃, h₃⟩ := exists_moves_tickPhase lib input hs
  exact ⟨t, _, ht, rfl, rfl, hs, h₃.mono.sound hs⟩

/-- A pass keeps the descriptors distinct. -/
theorem distinctFds_serverPass (hs : server.Sound) (h : server.DistinctFds)
    (hfresh : FreshOffers model (receivePhase lib input server) input.http)
    (hpass : serverPass lib model server input = some server') : server'.DistinctFds := by
  obtain ⟨requested, ticked, parts⟩ := exists_passParts hs hpass
  obtain ⟨es, hes⟩ := exists_moves_receivePhase lib input hs
  have hrequested : requested.DistinctFds :=
    distinctFds_foldlM (hes.mono.sound hs) (h.of_shrinks (shrinks_receivePhase lib input hs h)) hfresh
      parts.http
  have hticked : ticked.DistinctFds :=
    parts.tick_eq ▸ hrequested.of_shrinks (shrinks_tickPhase lib input parts.sound_requested)
  rw [parts.reap_eq]
  exact (hticked.of_shrinks (shrinks_fanOutPhase lib input parts.sound_ticked)).of_shrinks
    (shrinks_reapPhase lib input _)

/-- **No two sessions ever share a socket.** -/
theorem distinctFds_of_passes {inputs : List PassInput} (hs : server.Sound) (h : server.DistinctFds)
    (hfresh : FreshSockets lib model server inputs)
    (hrun : Run.exec (serverPass lib model) server inputs = some server') : server'.DistinctFds := by
  induction inputs generalizing server with
  | nil =>
    obtain rfl := Option.some.inj hrun
    exact h
  | cons input inputs ih =>
    rw [Run.exec_cons] at hrun
    obtain ⟨t, ht, hrun⟩ := Option.bind_eq_some_iff.1 hrun
    obtain ⟨es, hes⟩ := exists_moves_serverPass lib hs ht
    exact ih (hes.mono.sound hs) (distinctFds_serverPass hs h hfresh.1 ht) (hfresh.2 t ht) hrun

/-! ### Datagrams -/

/-- What a call hands to a session. -/
def RtcEvent.datagram? (e : RtcEvent) : Option (List UInt8 × SockAddr) :=
  match e.call with
  | .onUdp buffer length source => some (buffer.take length, source)
  | _ => none

/-- **The loop around `recvfrom`** hands over the datagrams in front of the first empty one, in their
order, each of them up to the size of the buffer. -/
theorem datagrams_recvCalls (buffer : List UInt8) (ds : List Datagram) :
    (recvCalls buffer ds).map RtcEvent.datagram? =
      (ds.takeWhile fun d ↦ d.data ≠ []).map fun d ↦ some (d.data.take recvSize, d.source) := by
  induction ds generalizing buffer with
  | nil => rfl
  | cons d ds ih =>
    rw [recvCalls]
    split_ifs with hempty
    · rw [List.takeWhile_cons_of_neg (by simpa using hempty)]
      rfl
    · rw [List.takeWhile_cons_of_pos (by simpa using hempty), List.map_cons, List.map_cons, ih]
      refine congrArg (· :: _) (congrArg some (Prod.ext ?_ rfl))
      show (recvInto buffer d.data).take _ = _
      rw [recvInto, Bytes.writeAt, List.take_zero, List.nil_append, List.take_left]

/-- No session is closed between two passes. -/
theorem open_of_passes {inputs : List PassInput} (hempty : ∀ i, server.sessions.get i = none)
    (hrun : Run.exec (serverPass lib model) server inputs = some server') {i : Fin maxRtcSessions}
    {x : UInt32 × RtcSession} (hx : server'.sessions.get i = some x) : x.2.state ≠ .closed := by
  rcases List.eq_nil_or_concat inputs with rfl | ⟨inputs, input, rfl⟩
  · obtain rfl := Option.some.inj hrun
    rw [hempty] at hx
    exact absurd hx.symm (Option.some_ne_none x)
  · rw [List.concat_eq_append] at hrun
    obtain ⟨t, -, hpass⟩ := Run.exists_of_exec_snoc hrun
    obtain ⟨_, -, rfl⟩ := Option.map_eq_some_iff.1 hpass
    rw [get_reapPhase] at hx
    exact of_decide_eq_true (Option.filter_eq_some_iff.1 hx).2

/-- Where `fds` has the descriptor of a session. -/
def Server.place (server : Server) (session : RtcSession) : ℕ :=
  (pollFds server).idxOf session.udpFd

/-- Every session after a run is polled. -/
theorem udpFd_mem_pollFds_of_passes {inputs : List PassInput} (hempty : ∀ i, server.sessions.get i = none)
    (hrun : Run.exec (serverPass lib model) server inputs = some server') {i : Fin maxRtcSessions}
    {x : UInt32 × RtcSession} (hx : server'.sessions.get i = some x) : x.2.udpFd ∈ pollFds server' :=
  mem_pollFds.2 ⟨i, x, hx, open_of_passes hempty hrun hx, rfl, (sound_of_passes hempty hrun i x hx).udpFd⟩

/-- A server without sessions has no descriptor twice, and so it stays. -/
theorem distinctFds_of_empty {inputs : List PassInput} (hempty : ∀ i, server.sessions.get i = none)
    (hfresh : FreshSockets lib model server inputs)
    (hrun : Run.exec (serverPass lib model) server inputs = some server') : server'.DistinctFds := by
  refine distinctFds_of_passes (sound_of_empty hempty) (fun i j x y hx ↦ ?_) hfresh hrun
  rw [hempty] at hx
  exact absurd hx.symm (Option.some_ne_none x)

/-- **What the first part of a pass does to a slot**, after any run. -/
theorem get_receivePhase_of_passes {inputs : List PassInput} (hempty : ∀ i, server.sessions.get i = none)
    (hfresh : FreshSockets lib model server inputs)
    (hrun : Run.exec (serverPass lib model) server inputs = some server') (input : PassInput)
    (i : Fin maxRtcSessions) :
    (receivePhase lib input server').sessions.get i = (server'.sessions.get i).map fun x ↦
      (x.1, (input.received (server'.place x.2) i).foldl (rtcCall lib) x.2) := by
  rw [receivePhase, get_foldl_receiveFd input (nodup_pollFds (distinctFds_of_empty hempty hfresh hrun)) 0
    (sound_of_passes hempty hrun)]
  rcases hx : server'.sessions.get i with - | x
  · rfl
  · rw [Option.map_some, Option.map_some, if_pos (udpFd_mem_pollFds_of_passes hempty hrun hx), Nat.zero_add,
      Server.place]

/-! ### A viewer that connects and streams -/

theorem length_sampleUfrag : (List.replicate 8 (0x61 : UInt8)).length + 1 < 2 ^ 16 := by
  rw [List.length_replicate]
  omega

/-- What the viewer sends: a valid check, and two datagrams for OpenSSL. -/
def viewerDatagrams : List Datagram :=
  let peer := SockAddr.inet 0x0A000001 4000
  let check :=
    bindingRequest sampleLibraries.hmac (List.replicate 24 0x61) (List.replicate 8 0x61) length_sampleUfrag
  [⟨check, peer, sampleAnswers 100⟩, ⟨[22, 254, 253], peer, sampleAnswers 200⟩,
    ⟨[22, 254, 253], peer, finishedAnswers 300⟩]

/-- The pass in which it connects. -/
def connectPass : PassInput :=
  { samplePass [] with inbox := fun _ _ ↦ viewerDatagrams, now := 310, tick := fun _ ↦ sampleAnswers 310 }

/-- A pass with an access unit. -/
def streamPass : PassInput :=
  { samplePass [] with
    now := 400
    tick := fun _ ↦ sampleAnswers 400
    units := [⟨[0, 0, 1, 0x65, 1], ⟨0, 0, 1, 5⟩⟩] }

/-- The slot of the viewer. -/
def viewerSlot : Fin maxRtcSessions := ⟨0, maxRtcSessions_pos⟩

/-- The session of the viewer after the pass of its offer. -/
def viewerOffered (s : RtcSession) : RtcSession :=
  rtcCall sampleLibraries s ⟨sampleAnswers 10, .tick 10⟩

/-- After the pass in which it connects. -/
def viewerConnected (s : RtcSession) : RtcSession :=
  rtcCall sampleLibraries
    ((recvCalls connectPass.stack viewerDatagrams).foldl (rtcCall sampleLibraries) (viewerOffered s))
    ⟨sampleAnswers 310, .tick 310⟩

/-- Before the access unit. -/
def viewerTicked (s : RtcSession) : RtcSession :=
  rtcCall sampleLibraries (viewerConnected s) ⟨sampleAnswers 400, .tick 400⟩

/-- After it. -/
def viewerStreamed (s : RtcSession) : RtcSession :=
  (streamPass.units.zipIdx.map (streamPass.sendEvent viewerSlot)).foldl (rtcCall sampleLibraries)
    (viewerTicked s)

/-- The sample viewer: new, streaming once it has connected, and streaming from then on. -/
theorem states_viewer {s : RtcSession}
    (hs : rtcSessionCreate sampleCreate ⟨viewerOffer, true, true⟩ = some s) :
    (viewerOffered s).state = .new ∧ (viewerConnected s).state = .streaming ∧
      (viewerTicked s).state = .streaming ∧ (viewerStreamed s).state = .streaming := by
  have hstates : (rtcSessionCreate sampleCreate ⟨viewerOffer, true, true⟩).map (fun s ↦
      ((viewerOffered s).state, (viewerConnected s).state, (viewerTicked s).state,
        (viewerStreamed s).state)) = some (.new, .streaming, .streaming, .streaming) := by
    decide +kernel
  rw [hs] at hstates
  simpa only [Option.map_some, Option.some.injEq, Prod.mk.injEq] using hstates

/-- What the last three parts of a pass make of a slot. -/
theorem get_passTail (lib : Libraries) (input : PassInput) (server : Server) (i : Fin maxRtcSessions)
    {x : UInt32 × RtcSession} (hx : server.sessions.get i = some x) {s : RtcSession}
    (hs : rtcCall lib x.2 ⟨input.tick i, .tick input.now⟩ = s) {t : RtcSession}
    (ht : (if s.state = .streaming then (input.units.zipIdx.map (input.sendEvent i)).foldl (rtcCall lib) s
      else s) = t) (hopen : t.state ≠ .closed) :
    (reapPhase lib input (fanOutPhase lib input (tickPhase lib input server))).sessions.get i =
      some (x.1, t) := by
  rw [get_reapPhase, get_fanOutPhase, get_tickPhase, hx, Option.map_some, Option.map_some]
  refine Option.filter_eq_some_iff.2 ⟨?_, decide_eq_true hopen⟩
  dsimp only
  rw [hs, ← ht]
  split_ifs <;> rfl

/-- Without requests the second part does nothing. -/
theorem httpPhase_of_quiet (model : DataModel) (input : PassInput) (server : Server)
    (h : input.http = []) : httpPhase model input server = some server := by
  rw [httpPhase, h]
  rfl

/-- A pass without requests. -/
theorem serverPass_of_quiet (lib : Libraries) (model : DataModel) (server : Server) {input : PassInput}
    (h : input.http = []) : serverPass lib model server input =
      some (reapPhase lib input (fanOutPhase lib input (tickPhase lib input
        (receivePhase lib input server)))) := by
  rw [serverPass, httpPhase_of_quiet model _ _ h]
  rfl

theorem received_of_inbox {k : ℕ} {slot : Fin maxRtcSessions} (h : input.inbox k slot = []) :
    input.received k slot = [] := by
  rw [PassInput.received, h]
  split_ifs <;> rfl

/-- The offer. -/
theorem exists_offered : ∃ s offered,
    rtcSessionCreate sampleCreate ⟨viewerOffer, true, true⟩ = some s ∧
    Run.exec (serverPass sampleLibraries .lp64) idleServer [samplePass [sampleOfferMessage]] =
      some offered ∧
    offered.sessions.get viewerSlot = some (sampleOfferEnv.id, viewerOffered s) := by
  obtain ⟨s, hs, hhttp⟩ := exists_foldlM_sample
  have hstate := (states_viewer hs).1
  refine ⟨s, _, hs, Run.exec_cons_of_step (serverPass_samplePass hhttp) (Run.exec_nil _), ?_⟩
  refine get_passTail _ _ _ viewerSlot (x := (sampleOfferEnv.id, s)) ?_ rfl ?_ ?_
  · rw [get_openSession]
    exact if_pos rfl
  · exact if_neg fun h ↦ RtcSessionState.noConfusion (hstate.symm.trans h)
  · exact fun h ↦ RtcSessionState.noConfusion (hstate.symm.trans h)

/-- The first offer of a server has a socket of its own. -/
theorem freshSockets_sample :
    FreshSockets sampleLibraries .lp64 idleServer [samplePass [sampleOfferMessage]] := by
  refine ⟨?_, fun _ _ ↦ trivial⟩
  rw [receivePhase_idleServer]
  refine ⟨fun _ i x hx ↦ ?_, fun _ _ ↦ trivial⟩
  rw [get_idleServer] at hx
  exact absurd hx.symm (Option.some_ne_none x)

/-! ### Where the datagrams go -/

/-- **Every datagram goes to the session whose socket received it.** In every run of the loop, as long as
the operating system gives new sockets descriptors that are not in use: the descriptor of each session is
polled, at a place that it shares with no other; and the first part of the next pass hands to the session
in each slot exactly what was received on this descriptor, in this order. An empty datagram ends the
reading, and a long one is cut to the size of the buffer. -/
theorem datagrams_of_passes {inputs : List PassInput} (hempty : ∀ i, server.sessions.get i = none)
    (hfresh : FreshSockets lib model server inputs)
    (hrun : Run.exec (serverPass lib model) server inputs = some server') (input : PassInput) :
    (∀ i x, server'.sessions.get i = some x →
      (pollFds server')[server'.place x.2]? = some x.2.udpFd ∧
      ∀ j y, server'.sessions.get j = some y → server'.place x.2 = server'.place y.2 → i = j) ∧
    (∀ i, (receivePhase lib input server').sessions.get i = (server'.sessions.get i).map fun x ↦
      (x.1, (input.received (server'.place x.2) i).foldl (rtcCall lib) x.2)) ∧
    ∀ k i, (input.received k i).map RtcEvent.datagram? =
      if input.pollIn k then ((input.inbox k i).takeWhile fun d ↦ d.data ≠ []).map fun d ↦
        some (d.data.take recvSize, d.source)
      else [] := by
  have hmem : ∀ i x, server'.sessions.get i = some x → x.2.udpFd ∈ pollFds server' :=
    fun _ _ ↦ udpFd_mem_pollFds_of_passes hempty hrun
  refine ⟨fun i x hx ↦ ⟨?_, fun j y hy hplace ↦ ?_⟩, get_receivePhase_of_passes hempty hfresh hrun input,
    fun k i ↦ ?_⟩
  · exact List.getElem?_idxOf (hmem i x hx)
  · exact distinctFds_of_empty hempty hfresh hrun i j x y hx hy ((List.idxOf_inj (hmem i x hx)).1 hplace)
  · rw [PassInput.received]
    split_ifs
    · exact datagrams_recvCalls _ _
    · rfl

/-- The datagrams of the viewer come to its session. -/
theorem datagrams_of_passes_sample : ∃ (s : RtcSession) (offered : Server) (calls : List RtcEvent),
    Run.exec (serverPass sampleLibraries .lp64) idleServer [samplePass [sampleOfferMessage]] =
      some offered ∧
    offered.sessions.get viewerSlot = some (sampleOfferEnv.id, viewerOffered s) ∧
    calls.map RtcEvent.datagram? = viewerDatagrams.map (fun d ↦ some (d.data, d.source)) ∧
    (receivePhase sampleLibraries connectPass offered).sessions.get viewerSlot =
      some (sampleOfferEnv.id, calls.foldl (rtcCall sampleLibraries) (viewerOffered s)) := by
  obtain ⟨s, offered, -, hrun, hget⟩ := exists_offered
  obtain ⟨-, hreceived, hinbox⟩ :=
    datagrams_of_passes get_idleServer freshSockets_sample hrun connectPass
  have hslot := hreceived viewerSlot
  rw [hget, Option.map_some] at hslot
  have hwhole : ((viewerDatagrams.takeWhile fun d ↦ d.data ≠ []).map fun d ↦
      some (d.data.take recvSize, d.source)) = viewerDatagrams.map fun d ↦ some (d.data, d.source) := by
    decide +kernel
  exact ⟨s, offered, _, hrun, hget, (hinbox _ viewerSlot).trans ((if_pos rfl).trans hwhole), hslot⟩

/-- **The table after a pass.** In every run of the loop, after each pass: no session of the table is
closed; each has heard something in the fifteen seconds before the tick, and if it is still in ICE it is
not older than thirty; and the encoder is told to run exactly if there is a session. -/
theorem viewers_after_pass {inputs : List PassInput} (hempty : ∀ i, server.sessions.get i = none)
    (hrun : Run.exec (serverPass lib model) server (inputs ++ [input]) = some server') :
    (∀ i x, server'.sessions.get i = some x → x.2.state ≠ .closed ∧
      input.now - x.2.lastRxMs ≤ sessionIdleTimeoutMs ∧
      (x.2.state = .ice → input.now - x.2.createdMs ≤ sessionDtlsWatchdogMs)) ∧
    (server'.rtcActive = true ↔ ∃ i, (server'.sessions.get i).isSome) := by
  obtain ⟨t, ht, hpass⟩ := Run.exists_of_exec_snoc hrun
  obtain ⟨requested, ticked, parts⟩ := exists_passParts (sound_of_passes hempty ht) hpass
  rw [parts.reap_eq]
  refine ⟨fun i x hx ↦ ?_, rtcActive_reapPhase lib input _⟩
  rw [get_reapPhase] at hx
  obtain ⟨hx, hopen⟩ := Option.filter_eq_some_iff.1 hx
  have hopen : x.2.state ≠ .closed := of_decide_eq_true hopen
  rw [get_fanOutPhase] at hx
  obtain ⟨y, hy, rfl⟩ := Option.map_eq_some_iff.1 hx
  have hlife := (parts.sound_ticked i y hy).lifecycle
  rw [parts.tick_eq, get_tickPhase] at hy
  obtain ⟨z, hz, rfl⟩ := Option.map_eq_some_iff.1 hy
  have hphase := (parts.sound_requested i z hz).lifecycle.inPhase
  dsimp only at hopen hlife ⊢
  split_ifs at hopen ⊢ with hstreaming
  · -- A viewer: the access units leave its timers alone.
    have hstate := @state_foldl_sendEvent lib input i input.units.zipIdx
      (rtcCall lib z.2 ⟨input.tick i, .tick input.now⟩)
    have hrx := @timers_foldl_sendEvent lib input _ i input.units.zipIdx hlife
    have hticked : (rtcSessionTick lib (input.tick i) z.2 input.now).state ≠ .closed := fun hclosed ↦
      RtcSessionState.noConfusion (hstreaming.symm.trans hclosed)
    have htimers := timers_rtcSessionTick lib (input.tick i) hphase hticked
    refine ⟨hopen, ?_, fun hice ↦ ?_⟩
    · rw [hrx]
      exact htimers.1
    · rw [hstate, hstreaming] at hice
      exact absurd hice (by decide)
  · obtain ⟨hrx, hice⟩ := timers_rtcSessionTick lib _ hphase hopen
    exact ⟨hopen, hrx, hice⟩

theorem viewers_after_pass_sample : ∃ server,
    Run.exec (serverPass sampleLibraries .lp64) idleServer ([] ++ [samplePass [sampleOfferMessage]]) =
      some server ∧
    (server.rtcActive = true ↔ ∃ i, (server.sessions.get i).isSome) := by
  obtain ⟨server, hserver⟩ := exists_serverPass_sample
  rw [← List.nil_append [samplePass _]] at hserver
  exact ⟨server, hserver, (viewers_after_pass get_idleServer hserver).2⟩

end Camstream
