import Camstream.App.Viewers
import Camstream.Lib.Rounds
import Camstream.Media.Accounting

/-!
# From the encoder to the event loop

The encode worker and the event loop share the ring of access units, `force_idr` and `rtc_active`, and
nothing else. The loop works in rounds (`Rounds`): `passOps` is the script of a pass, in the order in which
the source touches what is shared, and the steps of the worker come anywhere in between.

`Conveys` connects the worker and its ring to a queue that drops its oldest element, whose history is what
the encoder has produced. `pipeline_of_run` is what holds after every run of the two threads: the loop has
gone through its passes, and has handed the viewers what the encoder has produced, in this order, each
access unit at most once; what it has not handed out is still in the ring, or was overwritten. Nothing is
overwritten as long as the loop finds the ring empty once in eight access units (`lossless_of_run`).
-/

namespace Camstream

open CString

/-- `AU_RING_SLOTS` -/
def auRingSlots : ℕ := 8

/-! ### What is shared -/

/-- The worker with its ring and `force_idr`, and `rtc_active`. -/
structure SharedState where
  worker : EncoderWorker
  active : Bool

/-- What the thread of the worker does, and `encoder_worker_stop`. -/
inductive ThreadEvent
  | stop
  | take (frame : Option Frame)
  | exchange
  | encode (answers : H264Answers)
  | clear
  | push

/-- The worker reads `rtc_active` when it has taken a frame. -/
def ThreadEvent.workerEvent (active : Bool) : ThreadEvent → WorkerEvent
  | stop => .stop
  | take frame => .take frame active
  | exchange => .exchange
  | encode answers => .encode answers
  | clear => .clear
  | push => .push

/-- A step of the worker. -/
def threadStep (s : SharedState) (e : ThreadEvent) : Option SharedState :=
  (workerEventStep s.worker (e.workerEvent s.active)).map fun worker ↦ { s with worker }

/-- What the event loop does to what is shared: `atomic_store(&server->force_idr, 1)`,
`atomic_store(&server->rtc_active, active)`, and `au_ring_pop` with what it returns. -/
inductive LoopOp
  | request
  | activate (active : Bool)
  | pop (unit : Option AccessUnit)

/-- The loop pops into a buffer of `AU_SLOT_CAPACITY` bytes. -/
def loopOpStep (s : SharedState) : LoopOp → Option SharedState
  | .request => (workerEventStep s.worker .request).map fun worker ↦ { s with worker }
  | .activate active => some { s with active }
  | .pop unit =>
    if (auRingPop s.worker.ring auSlotCapacity).1 = unit then
      (workerEventStep s.worker (.pop auSlotCapacity)).map fun worker ↦ { s with worker }
    else none

/-! ### The script of a pass -/

/-- The keyframes that the sessions of a table have asked for. -/
def Server.requestOps (before after : Server) : List LoopOp :=
  (List.finRange maxRtcSessions).flatMap fun slot ↦
    match before.sessions.get slot, after.sessions.get slot with
    | some x, some y => List.replicate ((sentDuring x.2 y.2).count .idrRequest) .request
    | _, _ => []

/-- The requests of a pass: a session that is created activates the encoder and asks for a keyframe. -/
def httpOps (model : DataModel) (server : Server) : List HttpMessage → List LoopOp
  | [] => []
  | message :: rest =>
    match httpEventHandler model server message with
    | none => []
    | some server' =>
      (if server'.sessionsTotal = server.sessionsTotal then [] else [.activate true, .request]) ++
        httpOps model server' rest

/-- The loop around `au_ring_pop`, until the ring is empty. -/
def fanOutOps (lib : Libraries) (input : PassInput) (server : Server) :
    List (AccessUnit × ℕ) → List LoopOp
  | [] => [.pop none]
  | unit :: rest =>
    .pop (some unit.1) :: (server.requestOps (sendUnit lib input server unit) ++
      fanOutOps lib input (sendUnit lib input server unit) rest)

/-- What a pass does to what is shared, and the server after it. No session asks for a keyframe while it is
destroyed. -/
def passOps (lib : Libraries) (model : DataModel) (server : Server) (input : PassInput) :
    Option (List LoopOp × Server) :=
  let received := receivePhase lib input server
  (httpPhase model input received).map fun requested ↦
    let ticked := tickPhase lib input requested
    let reaped := reapPhase lib input (fanOutPhase lib input ticked)
    (server.requestOps received ++ httpOps model received input.http ++ requested.requestOps ticked ++
        fanOutOps lib input ticked input.units.zipIdx ++ [.activate reaped.rtcActive],
      reaped)

/-- The two threads, with what the loop has still to do in its pass. -/
abbrev Pipeline := Rounds.State SharedState Server LoopOp

/-- One step of either thread. -/
def pipelineStep (lib : Libraries) (model : DataModel) : Pipeline → Rounds.Event ThreadEvent PassInput →
    Option Pipeline :=
  Rounds.step threadStep loopOpStep (passOps lib model)

/-- The access units that some operations pop. -/
def poppedUnits (ops : List LoopOp) : List AccessUnit :=
  ops.filterMap fun
    | .pop unit => unit
    | _ => none

/-- `rtc_active` after some operations. -/
def lastActive (active : Bool) (ops : List LoopOp) : Bool :=
  ops.foldl (fun active op ↦
    match op with
    | .activate active => active
    | _ => active) active

section Pass

variable {lib : Libraries} {model : DataModel} {server server' : Server} {input : PassInput}
  {ops ops' : List LoopOp}

theorem poppedUnits_append (ops ops' : List LoopOp) :
    poppedUnits (ops ++ ops') = poppedUnits ops ++ poppedUnits ops' :=
  List.filterMap_append

/-- A request pops nothing. -/
theorem poppedUnits_requestOps (before after : Server) : poppedUnits (before.requestOps after) = [] := by
  refine List.filterMap_eq_nil_iff.2 fun op hop ↦ ?_
  rw [Server.requestOps, List.mem_flatMap] at hop
  obtain ⟨slot, -, hop⟩ := hop
  split at hop
  · obtain rfl := List.eq_of_mem_replicate hop
    rfl
  · exact absurd hop List.not_mem_nil

theorem poppedUnits_httpOps (model : DataModel) (server : Server) (http : List HttpMessage) :
    poppedUnits (httpOps model server http) = [] := by
  induction http generalizing server with
  | nil => rfl
  | cons message http ih =>
    rw [httpOps]
    rcases httpEventHandler model server message with - | server'
    · rfl
    · dsimp only
      rw [poppedUnits_append, ih]
      split_ifs <;> rfl

/-- The fan-out pops the access units of the pass, in their order. -/
theorem poppedUnits_fanOutOps (lib : Libraries) (input : PassInput) (server : Server)
    (units : List (AccessUnit × ℕ)) :
    poppedUnits (fanOutOps lib input server units) = units.map Prod.fst := by
  induction units generalizing server with
  | nil => rfl
  | cons unit units ih =>
    rw [fanOutOps, List.map_cons]
    refine congrArg (unit.1 :: ·) ?_
    show poppedUnits _ = _
    rw [poppedUnits_append, poppedUnits_requestOps, ih, List.nil_append]

/-- A script is the pass of the server with the units of its input, and ends with `rtc_active`. -/
theorem passOps_eq_some (h : passOps lib model server input = some (ops, server')) :
    serverPass lib model server input = some server' ∧ poppedUnits ops = input.units ∧
      ∃ before, ops = before ++ [.activate server'.rtcActive] := by
  rw [passOps] at h
  obtain ⟨requested, hhttp, heq⟩ := Option.map_eq_some_iff.1 h
  obtain ⟨rfl, rfl⟩ := Prod.mk.inj heq
  refine ⟨Option.map_eq_some_iff.2 ⟨requested, hhttp, rfl⟩, ?_, _, rfl⟩
  simp only [poppedUnits_append, poppedUnits_requestOps, poppedUnits_httpOps, poppedUnits_fanOutOps,
    List.nil_append, List.zipIdx_map_fst]
  exact List.append_nil _

theorem lastActive_append (active : Bool) (ops ops' : List LoopOp) :
    lastActive active (ops ++ ops') = lastActive (lastActive active ops) ops' :=
  List.foldl_append

end Pass

/-! ### The worker and its ring -/

/-- The ring of the worker is a queue, and what was put in is what the worker has pushed. -/
structure Conveys (worker : EncoderWorker) (q : DropOldest AccessUnit) : Prop where
  fits : worker.Fits
  ring : worker.ring.Represents auSlotCapacity auRingSlots q
  pushed : q.accepted.map AccessUnit.accounted = acceptedUnits worker.log

section Worker

variable {worker worker' : EncoderWorker} {q : DropOldest AccessUnit}

/-- A fresh worker and its ring convey the empty queue. -/
theorem conveys_create {backend : H264Backend} {width height : UInt32} {ring : AuRing} {forceIdr : Bool}
    (hring : auRingCreate auSlotCapacity auRingSlots = some ring)
    (h : encoderWorkerCreate backend width height ring forceIdr = some worker) :
    Conveys worker .empty := by
  have hfits := (fits_encoderWorkerCreate hring h).1
  rw [encoderWorkerCreate] at h
  split_ifs at h
  obtain rfl := Option.some.inj h
  exact ⟨hfits, (refines_auRingCreate hring).represents, rfl⟩

theorem Conveys.stocked (h : Conveys worker q) : Stocked auSlotCapacity auRingSlots worker q :=
  ⟨h.ring, h.pushed⟩

/-- The access unit that is still to be pushed is the one in hand. -/
theorem WorkerPhase.mem_unit_of_mem_unpushed {phase : WorkerPhase} {u : AccountedUnit}
    (hu : u ∈ phase.unpushed) : u.1 ∈ phase.unit? := by
  cases phase with
  | encoded ptsUs out isIdr | cleared ptsUs out isIdr =>
    obtain rfl := List.mem_singleton.1 hu
    rfl
  | top | converted | exchanged | stopped => exact absurd hu List.not_mem_nil

/-- **What the thread pushes** goes into the queue, and nothing else changes it. -/
theorem conveys_workerEvent (h : Conveys worker q) {e : ThreadEvent} {active : Bool}
    (hs : workerEventStep worker (e.workerEvent active) = some worker') :
    (∃ unit, e = .push ∧ Conveys worker' (q.push auRingSlots unit)) ∨ e ≠ .push ∧ Conveys worker' q := by
  have hfits' := (view_workerEventStep h.fits hs).2
  -- A step that leaves the ring alone, and accepts nothing.
  have hidle (hring : worker'.ring = worker.ring)
      (hlog : acceptedUnits worker'.log = acceptedUnits worker.log) : Conveys worker' q :=
    ⟨hfits', hring ▸ h.ring, h.pushed.trans hlog.symm⟩
  cases e with
  | stop =>
    obtain rfl := Option.some.inj hs
    exact Or.inr ⟨nofun, hidle rfl rfl⟩
  | take frame =>
    obtain ⟨hring, hlog⟩ := ring_encoderThreadTake hs
    exact Or.inr ⟨nofun, hidle hring (congrArg acceptedUnits hlog)⟩
  | exchange =>
    obtain ⟨ptsUs, -, rfl⟩ := encoderThreadExchange_eq_some hs
    exact Or.inr ⟨nofun, hidle rfl rfl⟩
  | encode answers =>
    obtain ⟨ptsUs, forceIdr, outcome, backend, effects, -, -, rfl⟩ := encoderThreadEncode_eq_some hs
    have hlog : acceptedUnits (worker.log ++ effects.map WorkerEffect.encoder) = acceptedUnits worker.log := by
      rw [acceptedUnits_append, acceptedUnits_encoder, List.append_nil]
    refine Or.inr ⟨nofun, hidle ?_ ?_⟩ <;> dsimp only <;> split_ifs <;> first | rfl | exact hlog
  | clear =>
    obtain ⟨ptsUs, out, isIdr, -, rfl⟩ := encoderThreadClear_eq_some hs
    exact Or.inr ⟨nofun, hidle rfl rfl⟩
  | push =>
    obtain ⟨unit, hpush⟩ := h.stocked.push (by decide)
      (fun u hu ↦ h.fits.unit_fits u.1 (WorkerPhase.mem_unit_of_mem_unpushed hu)) hs
    exact Or.inl ⟨unit, rfl, hfits', hpush.ring, hpush.accepted⟩

/-- **What the loop pops** comes out of the queue. -/
theorem conveys_pop (h : Conveys worker q) :
    (auRingPop worker.ring auSlotCapacity).1 = q.stored.head? ∧
      Conveys { worker with ring := (auRingPop worker.ring auSlotCapacity).2 } q.take := by
  obtain ⟨hunit, hring⟩ := h.ring.auRingPop (le_refl auSlotCapacity)
  refine ⟨hunit, ⟨(slotCapacity_auRingPop _ _).trans h.fits.slotCapacity_eq, h.fits.unit_fits⟩, hring, ?_⟩
  rw [DropOldest.accepted_take]
  exact h.pushed

end Worker

/-! ### Runs -/

section Runs

variable {lib : Libraries} {model : DataModel} {server : Server} {s s' : SharedState} {p : Pipeline}
  {q : DropOldest AccessUnit} {worker : EncoderWorker} {ring : AuRing} {backend : H264Backend}
  {width height : UInt32} {es : List (Rounds.Event ThreadEvent PassInput)}

/-- A step of the worker pushes one access unit or leaves the queue as it is. -/
theorem conveys_threadStep (h : Conveys s.worker q) {e : ThreadEvent} (hs : threadStep s e = some s') :
    s'.active = s.active ∧ ((∃ unit, e = .push ∧ Conveys s'.worker (q.push auRingSlots unit)) ∨
      e ≠ .push ∧ Conveys s'.worker q) := by
  obtain ⟨worker', hworker, rfl⟩ := Option.map_eq_some_iff.1 hs
  exact ⟨rfl, conveys_workerEvent h hworker⟩

/-- An operation of the loop takes the oldest access unit, or leaves the queue as it is; it finds the ring
empty only if the queue is. -/
theorem conveys_loopOpStep (h : Conveys s.worker q) {op : LoopOp} (hs : loopOpStep s op = some s') :
    s'.active = lastActive s.active [op] ∧
      ((∃ unit rest, op = .pop (some unit) ∧ q.stored = unit :: rest ∧ Conveys s'.worker q.take) ∨
        poppedUnits [op] = [] ∧ Conveys s'.worker q ∧ (op = .pop none → q.stored = [])) := by
  cases op with
  | request =>
    rw [loopOpStep] at hs
    obtain ⟨worker', hworker, rfl⟩ := Option.map_eq_some_iff.1 hs
    obtain rfl := Option.some.inj hworker
    have hlog : acceptedUnits (s.worker.log ++ [.requested]) = acceptedUnits s.worker.log := by
      rw [acceptedUnits_append]
      exact List.append_nil _
    exact ⟨rfl, Or.inr ⟨rfl, ⟨⟨h.fits.slotCapacity_eq, h.fits.unit_fits⟩, h.ring, h.pushed.trans hlog.symm⟩,
      nofun⟩⟩
  | activate active =>
    obtain rfl := Option.some.inj hs
    exact ⟨rfl, Or.inr ⟨rfl, h, nofun⟩⟩
  | pop unit =>
    obtain ⟨hunit, hpop⟩ := conveys_pop h
    rw [loopOpStep] at hs
    split_ifs at hs with hreturned
    obtain ⟨worker', hworker, rfl⟩ := Option.map_eq_some_iff.1 hs
    obtain rfl := Option.some.inj hworker
    rw [hunit] at hreturned
    refine ⟨rfl, ?_⟩
    -- From an empty queue nothing is taken, and the ring returns nothing.
    rcases hq : q.stored with - | ⟨oldest, rest⟩
    · have htake : q.take = q := by
        rw [DropOldest.take, DropOldest.shift, hq]
      rw [htake] at hpop
      rw [hq] at hreturned
      obtain rfl := hreturned
      exact Or.inr ⟨rfl, hpop, fun _ ↦ rfl⟩
    · rw [hq] at hreturned
      obtain rfl := hreturned
      exact Or.inl ⟨oldest, rest, rfl, rfl, hpop⟩

/-- What has been popped has left the queue, in this order. -/
theorem conveys_of_moves {moves : List (ThreadEvent ⊕ LoopOp)} (h : Conveys s.worker q)
    (hrun : Run.exec (Rounds.either threadStep loopOpStep) s moves = some s') :
    s'.active = lastActive s.active (moves.filterMap Sum.getRight?) ∧
      ∃ q', Conveys s'.worker q' ∧
        q'.taken = q.taken ++ poppedUnits (moves.filterMap Sum.getRight?) := by
  -- By induction on the moves. A push of the worker takes nothing, a pop takes what it returns.
  induction moves generalizing s q with
  | nil =>
    obtain rfl := Option.some.inj hrun
    exact ⟨rfl, q, h, (List.append_nil _).symm⟩
  | cons move moves ih =>
    rw [Run.exec_cons] at hrun
    obtain ⟨t, ht, hrest⟩ := Option.bind_eq_some_iff.1 hrun
    rcases move with e | op
    · obtain ⟨hactive, ⟨unit, -, hq⟩ | ⟨-, hq⟩⟩ := conveys_threadStep h ht
      · obtain ⟨hactive', q', hq', htaken⟩ := ih hq hrest
        rw [hactive] at hactive'
        rw [DropOldest.taken_push] at htaken
        exact ⟨hactive', q', hq', htaken⟩
      · obtain ⟨hactive', hq'⟩ := ih hq hrest
        rw [hactive] at hactive'
        exact ⟨hactive', hq'⟩
    · have hops : (Sum.inr op :: moves).filterMap Sum.getRight? =
          [op] ++ moves.filterMap Sum.getRight? := rfl
      rw [hops, lastActive_append, poppedUnits_append]
      obtain ⟨hactive, ⟨unit, rest, rfl, hstored, hq⟩ | ⟨hnone, hq, -⟩⟩ := conveys_loopOpStep h ht
      · obtain ⟨hactive', q', hq', htaken⟩ := ih hq hrest
        rw [hactive] at hactive'
        rw [DropOldest.taken_take hstored, List.append_assoc] at htaken
        exact ⟨hactive', q', hq', htaken⟩
      · obtain ⟨hactive', q', hq', htaken⟩ := ih hq hrest
        rw [hactive] at hactive'
        rw [hnone, List.nil_append]
        exact ⟨hactive', q', hq', htaken⟩

/-- `rtc_active` between two passes. -/
theorem lastActive_of_script {inputs : List PassInput} {server' : Server} {ops : List LoopOp} {active : Bool}
    (hactive : active = true ↔ ∃ i, (server.sessions.get i).isSome)
    (h : Rounds.script (passOps lib model) server inputs = some (ops, server')) :
    lastActive active ops = true ↔ ∃ i, (server'.sessions.get i).isSome := by
  induction inputs generalizing server active ops with
  | nil =>
    obtain ⟨rfl, rfl⟩ := Prod.mk.inj (Option.some.inj h)
    exact hactive
  | cons input inputs ih =>
    obtain ⟨o, t, os, hround, hscript, rfl⟩ := Rounds.script_cons.1 h
    obtain ⟨hpass, -, before, rfl⟩ := passOps_eq_some hround
    rw [lastActive_append]
    refine ih ?_ hscript
    obtain ⟨_, -, rfl⟩ := Option.map_eq_some_iff.1 hpass
    rw [lastActive_append]
    exact rtcActive_reapPhase lib input _

/-- What the two threads do to the worker is a run of the worker. -/
theorem exists_exec_workerEventStep {moves : List (ThreadEvent ⊕ LoopOp)}
    (hrun : Run.exec (Rounds.either threadStep loopOpStep) s moves = some s') :
    ∃ calls, Run.exec workerEventStep s.worker calls = some s'.worker := by
  refine Run.exec_invariant (P := fun t ↦ ∃ calls, Run.exec workerEventStep s.worker calls = some t.worker)
    ?_ ⟨[], rfl⟩ hrun
  rintro t move t' ⟨calls, hcalls⟩ ht
  rcases move with e | (- | active | unit)
  · obtain ⟨worker', hworker, rfl⟩ := Option.map_eq_some_iff.1 ht
    exact ⟨_, Run.exec_snoc hcalls hworker⟩
  · rw [Rounds.either, loopOpStep] at ht
    obtain ⟨worker', hworker, rfl⟩ := Option.map_eq_some_iff.1 ht
    exact ⟨_, Run.exec_snoc hcalls hworker⟩
  · obtain rfl := Option.some.inj ht
    exact ⟨calls, hcalls⟩
  · rw [Rounds.either, loopOpStep] at ht
    split_ifs at ht
    obtain ⟨worker', hworker, rfl⟩ := Option.map_eq_some_iff.1 ht
    exact ⟨_, Run.exec_snoc hcalls hworker⟩

/-- What a script does to the table is the pass itself. -/
theorem map_snd_passOps (server : Server) (input : PassInput) :
    (passOps lib model server input).map Prod.snd = serverPass lib model server input := by
  rw [passOps, Option.map_map, serverPass]
  rfl

/-- **From the encoder to the viewers.** Whatever the two threads do: the loop goes through its passes and
the worker makes its calls, each as if it were alone; the access units of the passes are what has left the
queue by being popped, and what this pass has still to pop; the ring has the rest of the queue, and counts
those that were overwritten; and what was put into the queue is what the worker has pushed. So between two
passes the viewers have been handed access units that the encoder has produced, in its order and each at
most once; and then the encoder is told to run exactly if there is a session. -/
theorem pipeline_of_run (hring : auRingCreate auSlotCapacity auRingSlots = some ring)
    (hworker : encoderWorkerCreate backend width height ring false = some worker)
    (hempty : ∀ i, server.sessions.get i = none)
    (hrun : Run.exec (pipelineStep lib model) ⟨⟨worker, false⟩, server, []⟩ es = some p) :
    Run.exec (serverPass lib model) server (Rounds.rounds es) = some p.client ∧
      (∃ calls, Run.exec workerEventStep worker calls = some p.shared.worker) ∧
      (∃ q : DropOldest AccessUnit,
        (Rounds.rounds es).flatMap PassInput.units = q.taken ++ poppedUnits p.pending ∧
        p.shared.worker.ring.stored = q.stored ∧
        p.shared.worker.ring.dropped = UInt64.ofNat q.dropped ∧
        q.accepted.map AccessUnit.accounted = acceptedUnits p.shared.worker.log) ∧
      (p.pending = [] →
        (((Rounds.rounds es).flatMap PassInput.units).map AccessUnit.accounted).Sublist
          (acceptedUnits p.shared.worker.log) ∧
        (p.shared.active = true ↔ ∃ i, (p.client.sessions.get i).isSome)) := by
  obtain ⟨moves, ops, hmoves, -, hscript, hops⟩ := Rounds.exists_of_exec hrun
  rw [List.nil_append] at hops
  obtain ⟨hactive, q, hq, htaken⟩ := conveys_of_moves (conveys_create hring hworker) hmoves
  -- What was popped is what the scripts have popped, up to the operations that are pending.
  have hunits : (Rounds.rounds es).flatMap PassInput.units = q.taken ++ poppedUnits p.pending := by
    have hpopped := Rounds.flatMap_of_script (f := poppedUnits) (g := PassInput.units) rfl poppedUnits_append
      (fun _ _ _ _ h ↦ (passOps_eq_some h).2.1) hscript
    rw [← hpopped, hops, poppedUnits_append, htaken]
    rfl
  refine ⟨?_, exists_exec_workerEventStep hmoves,
    ⟨q, hunits, hq.ring.stored_eq, hq.ring.dropped_eq, hq.pushed⟩, fun hpending ↦ ⟨?_, ?_⟩⟩
  · rw [← Rounds.exec_of_script hscript]
    exact Run.exec_congr (fun input _ server ↦ (map_snd_passOps server input).symm) server
  · rw [hunits, hpending, ← hq.pushed]
    exact (List.append_nil q.taken).symm ▸ DropOldest.taken_sublist.map _
  · have hnobody : false = true ↔ ∃ i, (server.sessions.get i).isSome := by
      simp [hempty]
    rw [hpending, List.append_nil] at hops
    rw [hactive, ← hops]
    exact lastActive_of_script hnobody hscript

/-! ### Nothing is lost -/

/-- The access units pushed since the loop last found the ring empty. -/
def ringLag (p : Pipeline) (n : ℕ) : Rounds.Event ThreadEvent PassInput → ℕ
  | .own .push => n + 1
  | .perform =>
    match p.pending with
    | .pop none :: _ => 0
    | _ => n
  | _ => n

/-- A step with this count. -/
def laggedStep (lib : Libraries) (model : DataModel) (c : Pipeline × ℕ)
    (e : Rounds.Event ThreadEvent PassInput) : Option (Pipeline × ℕ) :=
  (pipelineStep lib model c.1 e).map fun p ↦ (p, ringLag c.1 c.2 e)

/-- The count changes nothing. -/
theorem exec_laggedStep (c : Pipeline × ℕ) (es : List (Rounds.Event ThreadEvent PassInput)) :
    (Run.exec (laggedStep lib model) c es).map Prod.fst = Run.exec (pipelineStep lib model) c.1 es :=
  Run.exec_map (fun c e ↦ by rw [laggedStep, Option.map_map]; exact Option.map_id') c es

/-- The queue has dropped nothing, and is not longer than the count. -/
structure Lossless (c : Pipeline × ℕ) (units : List AccessUnit) (q : DropOldest AccessUnit) : Prop where
  conveys : Conveys c.1.shared.worker q
  units_eq : units = q.taken ++ poppedUnits c.1.pending
  length_le : q.stored.length ≤ c.2
  dropped_eq : q.dropped = 0

/-- A step of the worker: a push finds room if the count does not exceed the number of slots. -/
theorem Lossless.own {c : Pipeline × ℕ} {p : Pipeline} {e : ThreadEvent} {units : List AccessUnit}
    (h : Lossless c units q) (hs : pipelineStep lib model c.1 (.own e) = some p)
    (hlag : ringLag c.1 c.2 (.own e) ≤ auRingSlots) :
    ∃ q', Lossless (p, ringLag c.1 c.2 (.own e)) units q' := by
  obtain ⟨shared, hshared, rfl⟩ := Option.map_eq_some_iff.1 hs
  obtain ⟨-, ⟨unit, rfl, hq⟩ | ⟨hne, hq⟩⟩ := conveys_threadStep h.conveys hshared
  · -- There is still room for one more.
    have hlag : c.2 + 1 ≤ auRingSlots := hlag
    have hroom : q.stored.length ≠ auRingSlots := by
      have := h.length_le
      omega
    have hpush : q.push auRingSlots unit = ⟨q.gone, q.stored ++ [unit]⟩ := by
      rw [DropOldest.push, if_neg hroom]
    refine ⟨_, hq, ?_, ?_, ?_⟩
    · rw [DropOldest.taken_push]
      exact h.units_eq
    · rw [hpush, List.length_append]
      exact Nat.succ_le_succ h.length_le
    · rw [hpush]
      exact h.dropped_eq
  · refine ⟨q, hq, h.units_eq, h.length_le.trans ?_, h.dropped_eq⟩
    cases e <;> first | exact le_refl _ | exact absurd rfl hne

/-- An operation of the loop: the count starts again where it finds the ring empty. -/
theorem Lossless.perform {c : Pipeline × ℕ} {p : Pipeline} {units : List AccessUnit} (h : Lossless c units q)
    (hs : pipelineStep lib model c.1 .perform = some p) :
    ∃ q', Lossless (p, ringLag c.1 c.2 .perform) units q' := by
  rw [pipelineStep, Rounds.step] at hs
  rcases hpending : c.1.pending with - | ⟨op, rest⟩
  · rw [hpending] at hs
    exact absurd hs.symm (Option.some_ne_none p)
  rw [hpending] at hs
  obtain ⟨shared, hshared, rfl⟩ := Option.map_eq_some_iff.1 hs
  have hpopped : poppedUnits c.1.pending = poppedUnits [op] ++ poppedUnits rest := by
    rw [hpending, ← poppedUnits_append]
    rfl
  obtain ⟨-, ⟨unit, after, rfl, hstored, hq⟩ | ⟨hnone, hq, hempty⟩⟩ :=
    conveys_loopOpStep h.conveys hshared
  · refine ⟨_, hq, ?_, ?_, DropOldest.dropped_take.trans h.dropped_eq⟩
    · rw [h.units_eq, hpopped, DropOldest.taken_take hstored, List.append_assoc]
      rfl
    · have hlength := h.length_le
      rw [DropOldest.take, DropOldest.stored_shift, ringLag, hpending]
      exact (List.length_tail ▸ Nat.sub_le _ _).trans hlength
  · refine ⟨q, hq, ?_, ?_, h.dropped_eq⟩
    · rw [h.units_eq, hpopped, hnone, List.nil_append]
    · rw [ringLag, hpending]
      split
      · rename_i heq
        obtain ⟨rfl, rfl⟩ := List.cons.inj heq
        rw [hempty rfl]
        exact le_refl 0
      · exact h.length_le

/-- A pass begins: its access units are those its script has still to pop. -/
theorem Lossless.start {c : Pipeline × ℕ} {p : Pipeline} {input : PassInput} {units : List AccessUnit}
    (h : Lossless c units q) (hs : pipelineStep lib model c.1 (.start input) = some p) :
    ∃ q', Lossless (p, ringLag c.1 c.2 (.start input)) (units ++ input.units) q' := by
  rw [pipelineStep, Rounds.step] at hs
  rcases hpending : c.1.pending with - | ⟨op, rest⟩
  swap
  · rw [hpending] at hs
    exact absurd hs.symm (Option.some_ne_none p)
  rw [hpending] at hs
  obtain ⟨⟨ops, server'⟩, hround, rfl⟩ := Option.map_eq_some_iff.1 hs
  refine ⟨q, h.conveys, ?_, h.length_le, h.dropped_eq⟩
  rw [h.units_eq, hpending, ← (passOps_eq_some hround).2.1]
  exact congrArg (· ++ poppedUnits ops) (List.append_nil q.taken)

/-- **A step loses nothing** if the count does not exceed the number of slots. -/
theorem exists_lossless_laggedStep {c c' : Pipeline × ℕ} {e : Rounds.Event ThreadEvent PassInput}
    {units : List AccessUnit} (h : Lossless c units q) (hs : laggedStep lib model c e = some c')
    (hlag : c'.2 ≤ auRingSlots) :
    ∃ q', Lossless c' (units ++ (Rounds.rounds [e]).flatMap PassInput.units) q' := by
  obtain ⟨p', hp, rfl⟩ := Option.map_eq_some_iff.1 hs
  cases e with
  | own e =>
    obtain ⟨q', hq⟩ := h.own hp hlag
    exact ⟨q', (List.append_nil units).symm ▸ hq⟩
  | perform =>
    obtain ⟨q', hq⟩ := h.perform hp
    exact ⟨q', (List.append_nil units).symm ▸ hq⟩
  | start input =>
    have hinput : (Rounds.rounds [(.start input : Rounds.Event ThreadEvent PassInput)]).flatMap
        PassInput.units = input.units := List.append_nil _
    obtain ⟨q', hq⟩ := h.start hp
    exact ⟨q', hinput.symm ▸ hq⟩

/-- **Nothing is lost** as long as no more than eight access units are pushed between two times that the
loop finds the ring empty: between two passes the viewers have been handed all that the encoder has
produced, in its order, but for what is in the ring. -/
theorem lossless_of_run (hring : auRingCreate auSlotCapacity auRingSlots = some ring)
    (hworker : encoderWorkerCreate backend width height ring false = some worker) {c : Pipeline × ℕ}
    (hrun : Run.exec (laggedStep lib model) (⟨⟨worker, false⟩, server, []⟩, 0) es = some c)
    (hlag : ∀ es' c', es' <+: es →
      Run.exec (laggedStep lib model) (⟨⟨worker, false⟩, server, []⟩, 0) es' = some c' →
      c'.2 ≤ auRingSlots) (hpending : c.1.pending = []) :
    acceptedUnits c.1.shared.worker.log =
        ((Rounds.rounds es).flatMap PassInput.units ++ c.1.shared.worker.ring.stored).map
          AccessUnit.accounted ∧
      c.1.shared.worker.ring.dropped = 0 := by
  -- The lag is bounded before every step, so the invariant holds after every initial run.
  have hlossless : ∀ es' c', es' <+: es →
      Run.exec (laggedStep lib model) (⟨⟨worker, false⟩, server, []⟩, 0) es' = some c' →
      ∃ q, Lossless c' ((Rounds.rounds es').flatMap PassInput.units) q := by
    intro es' c' hes hexec
    induction es' using List.reverseRecOn generalizing c' with
    | nil =>
      obtain rfl := Option.some.inj hexec
      exact ⟨.empty, conveys_create hring hworker, rfl, le_refl 0, rfl⟩
    | append_singleton es' e ih =>
      obtain ⟨t, ht, hstep⟩ := Run.exists_of_exec_snoc hexec
      obtain ⟨q, hq⟩ := ih t ((List.prefix_append es' [e]).trans hes) ht
      obtain ⟨q', hq'⟩ := exists_lossless_laggedStep hq hstep (hlag _ _ hes hexec)
      refine ⟨q', ?_⟩
      rwa [Rounds.rounds, List.filterMap_append, List.flatMap_append]
  obtain ⟨q, hq⟩ := hlossless es c (List.prefix_refl es) hrun
  have hunits := hq.units_eq
  rw [hpending] at hunits
  have htaken : (Rounds.rounds es).flatMap PassInput.units = q.taken := hunits.trans (List.append_nil _)
  refine ⟨?_, ?_⟩
  · rw [htaken, hq.conveys.ring.stored_eq, ← DropOldest.accepted_eq_taken_append hq.dropped_eq]
    exact hq.conveys.pushed.symm
  · rw [hq.conveys.ring.dropped_eq, hq.dropped_eq]
    rfl

/-- Whether the worker pushes. -/
def isPush : Rounds.Event ThreadEvent PassInput → Bool
  | .own .push => true
  | _ => false

/-- The count is that of the access units pushed at most. -/
theorem ringLag_le_countP {c : Pipeline × ℕ} {start : Pipeline}
    (hrun : Run.exec (laggedStep lib model) (start, 0) es = some c) : c.2 ≤ es.countP isPush := by
  induction es using List.reverseRecOn generalizing c with
  | nil =>
    obtain rfl := Option.some.inj hrun
    exact le_refl 0
  | append_singleton es e ih =>
    obtain ⟨t, ht, hstep⟩ := Run.exists_of_exec_snoc hrun
    obtain ⟨p, -, rfl⟩ := Option.map_eq_some_iff.1 hstep
    have hlag := ih ht
    have hone : ringLag t.1 t.2 e ≤ t.2 + if isPush e then 1 else 0 := by
      rw [ringLag.eq_def, isPush.eq_def]
      split <;> split <;> first | omega | simp_all
    rw [List.countP_append, List.countP_singleton]
    dsimp only
    omega

end Runs

/-! ### A viewer, and access units for it -/

/-- The worker encodes a frame, and pushes the access unit. -/
def encodeTurn (timestampUs : UInt64) : List (Rounds.Event ThreadEvent PassInput) :=
  [.own (.take (some (smallFrame timestampUs))), .own .exchange,
    .own (.encode (.x264 ⟨5, 1, fun i ↦ [0, 0, 1, 0x65, 1].getD i 0, true⟩)), .own .clear, .own .push]

/-- After the pass of the offer: the viewer connects, a first access unit is pushed, popped in the next pass
and sent to the viewer, and a second one is pushed. -/
def viewerRunRest : List (Rounds.Event ThreadEvent PassInput) :=
  List.replicate 4 .perform ++ .start connectPass :: List.replicate 3 .perform ++ encodeTurn 0 ++
    .start streamPass :: List.replicate 3 .perform ++ encodeTurn 100

/-- The run from its first pass on. -/
def viewerRun : List (Rounds.Event ThreadEvent PassInput) :=
  .start (samplePass [sampleOfferMessage]) :: viewerRunRest

/-- What the pass of the offer does to what is shared. -/
def sampleOfferOps (session : RtcSession) : List LoopOp :=
  let opened := idleServer.openSession ⟨0, maxRtcSessions_pos⟩ sampleOfferEnv.id session
  idleServer.requestOps idleServer ++ [.activate true, .request] ++
    opened.requestOps (tickPhase sampleLibraries (samplePass [sampleOfferMessage]) opened) ++ [.pop none] ++
    [.activate (sampleOffered session).rtcActive]

theorem exists_passOps_sample : ∃ session,
    rtcSessionCreate sampleCreate ⟨viewerOffer, true, true⟩ = some session ∧
    passOps sampleLibraries .lp64 idleServer (samplePass [sampleOfferMessage]) =
      some (sampleOfferOps session, sampleOffered session) := by
  obtain ⟨session, hsession, hmessage⟩ := exists_httpEventHandler_sample
  have hhttp : httpPhase .lp64 (samplePass [sampleOfferMessage]) idleServer =
      some (idleServer.openSession ⟨0, maxRtcSessions_pos⟩ sampleOfferEnv.id session) := by
    rw [httpPhase, samplePass, List.foldlM_cons, hmessage]
    rfl
  have hops : httpOps .lp64 idleServer (samplePass [sampleOfferMessage]).http = [.activate true, .request] := by
    rw [samplePass, httpOps, hmessage]
    rfl
  refine ⟨session, hsession, ?_⟩
  rw [passOps, receivePhase_idleServer, hhttp, hops]
  rfl

/-- How the run goes on. -/
theorem exec_viewerRunRest :
    ((rtcSessionCreate sampleCreate ⟨viewerOffer, true, true⟩).bind fun session ↦
      (auRingCreate auSlotCapacity auRingSlots).bind fun ring ↦
      (encoderWorkerCreate .x264 2 2 ring false).bind fun worker ↦
      (Run.exec (laggedStep sampleLibraries .lp64)
        (⟨⟨worker, false⟩, sampleOffered session, sampleOfferOps session⟩, 0) viewerRunRest).map fun c ↦
          (c.1.pending.length, c.1.shared.worker.ring.stored,
            (c.1.client.sessions.get viewerSlot).map fun x ↦ x.2.state)) =
      some (0, [⟨[0, 0, 1, 0x65, 1], ⟨100, 1, 1, 5⟩⟩], some .streaming) := by
  decide +kernel

theorem exists_viewerRun : ∃ ring worker c x,
    auRingCreate auSlotCapacity auRingSlots = some ring ∧
    encoderWorkerCreate .x264 2 2 ring false = some worker ∧
    Run.exec (laggedStep sampleLibraries .lp64) (⟨⟨worker, false⟩, idleServer, []⟩, 0) viewerRun =
      some c ∧ c.1.pending = [] ∧
    c.1.shared.worker.ring.stored = [⟨[0, 0, 1, 0x65, 1], ⟨100, 1, 1, 5⟩⟩] ∧
    c.1.client.sessions.get viewerSlot = some x ∧ x.2.state = .streaming := by
  obtain ⟨session, hsession, hops⟩ := exists_passOps_sample
  have hrest := exec_viewerRunRest
  rw [hsession, Option.bind_some] at hrest
  obtain ⟨ring, hring, hrest⟩ := Option.bind_eq_some_iff.1 hrest
  obtain ⟨worker, hworker, hrest⟩ := Option.bind_eq_some_iff.1 hrest
  obtain ⟨c, hrun, hc⟩ := Option.map_eq_some_iff.1 hrest
  simp only [Prod.mk.injEq, List.length_eq_zero_iff, Option.map_eq_some_iff] at hc
  obtain ⟨hpending, hstored, x, hx, hstate⟩ := hc
  refine ⟨ring, worker, c, x, hring, hworker, Run.exec_cons_of_step ?_ hrun, hpending, hstored, hx, hstate⟩
  rw [laggedStep, pipelineStep, Rounds.step, hops]
  rfl

/-- The first access unit has been handed out, and the second is in the ring. -/
theorem pipeline_of_run_sample : ∃ ring worker p x, ∃ q : DropOldest AccessUnit,
    auRingCreate auSlotCapacity auRingSlots = some ring ∧
    encoderWorkerCreate .x264 2 2 ring false = some worker ∧
    Run.exec (pipelineStep sampleLibraries .lp64) ⟨⟨worker, false⟩, idleServer, []⟩ viewerRun = some p ∧
    p.client.sessions.get viewerSlot = some x ∧ x.2.state = .streaming ∧ p.shared.active = true ∧
    q.taken = [⟨[0, 0, 1, 0x65, 1], ⟨0, 0, 1, 5⟩⟩] ∧
    q.stored = [⟨[0, 0, 1, 0x65, 1], ⟨100, 1, 1, 5⟩⟩] ∧
    q.accepted.map AccessUnit.accounted = acceptedUnits p.shared.worker.log := by
  obtain ⟨ring, worker, c, x, hring, hworker, hlagged, hpending, hstored, hx, hstate⟩ := exists_viewerRun
  have hrun : Run.exec (pipelineStep sampleLibraries .lp64) ⟨⟨worker, false⟩, idleServer, []⟩ viewerRun =
      some c.1 :=
    (exec_laggedStep (⟨⟨worker, false⟩, idleServer, []⟩, 0) viewerRun).symm.trans
      (congrArg (Option.map Prod.fst) hlagged)
  obtain ⟨-, -, ⟨q, hunits, hq, -, hpushed⟩, hbetween⟩ :=
    pipeline_of_run hring hworker get_idleServer hrun
  rw [hpending] at hunits
  refine ⟨ring, worker, c.1, x, q, hring, hworker, hrun, hx, hstate, ?_, ?_, hq.symm.trans hstored,
    hpushed⟩
  · exact (hbetween hpending).2.2 ⟨viewerSlot, by rw [hx]; rfl⟩
  · exact (hunits.trans (List.append_nil _)).symm

/-- Two access units are pushed, and neither is lost. -/
theorem lossless_of_run_sample : ∃ ring worker c,
    auRingCreate auSlotCapacity auRingSlots = some ring ∧
    encoderWorkerCreate .x264 2 2 ring false = some worker ∧
    Run.exec (laggedStep sampleLibraries .lp64) (⟨⟨worker, false⟩, idleServer, []⟩, 0) viewerRun =
      some c ∧
    acceptedUnits c.1.shared.worker.log =
      [([0, 0, 1, 0x65, 1], 0, true), ([0, 0, 1, 0x65, 1], 100, true)] ∧
    c.1.shared.worker.ring.dropped = 0 := by
  obtain ⟨ring, worker, c, -, hring, hworker, hrun, hpending, hstored, -, -⟩ := exists_viewerRun
  obtain ⟨haccepted, hdropped⟩ := lossless_of_run hring hworker hrun
    (fun es' c' hes hexec ↦ (ringLag_le_countP hexec).trans (hes.sublist.countP_le.trans (by decide)))
    hpending
  refine ⟨ring, worker, c, hring, hworker, hrun, ?_, hdropped⟩
  rw [haccepted, hstored]
  rfl

end Camstream
