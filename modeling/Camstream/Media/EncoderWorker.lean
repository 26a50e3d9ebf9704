import Camstream.Media.AuRing
import Camstream.Media.FramePool
import Camstream.Media.H264Encoder

/-!
# The encode worker

`src/media/encoder_worker.c`: the thread takes frames from its mailbox, has them encoded and pushes the
access units to the ring. It shares `force_idr` with the threads that ask for a keyframe, and so an
iteration is cut where it touches the flag: the frame is taken and converted, the flag is exchanged, the
encoder is called, the flag is cleared if an IDR picture came out, the access unit is pushed. Anything
else may happen in between.

The log has what others can observe of a run: the requests, what was done to the encoder, the access
units the ring accepted. `WorkerView.Step` says once what a step does to the phase, the flag and the log.
-/

namespace Camstream

/-- `ENCODE_SCRATCH_MAX` -/
def encodeScratchMax : ℕ := 4096 * 4096 * 3 / 2

/-- `AU_SCRATCH_CAPACITY` -/
def auScratchCapacity : ℕ := 512 * 1024

/-- `AU_SLOT_CAPACITY`: what `src/app/app_server.c` creates the ring of the worker with. -/
def auSlotCapacity : ℕ := 512 * 1024

/-- Where the thread is in an iteration. -/
inductive WorkerPhase
  /-- At the top of the loop. -/
  | top
  /-- A frame is converted. -/
  | converted (ptsUs : UInt64)
  /-- `force_idr` is exchanged. -/
  | exchanged (ptsUs : UInt64) (forceIdr : Bool)
  /-- The encoder has returned an access unit. -/
  | encoded (ptsUs : UInt64) (out : List UInt8) (isIdr : Bool)
  /-- `force_idr` is cleared, if that was an IDR picture. -/
  | cleared (ptsUs : UInt64) (out : List UInt8) (isIdr : Bool)
  /-- The thread has left the loop. -/
  | stopped
  deriving DecidableEq, Repr

/-- What a run shows to the outside. -/
inductive WorkerEffect
  | requested
  | encoder (effect : H264Effect)
  | pushed (out : List UInt8) (ptsUs : UInt64) (isIdr : Bool)
  deriving DecidableEq, Repr

/-- `struct EncoderWorker` with the flag it shares, the phase of its thread, the local variable `frame` of the
thread, the frames that its calls of `frame_hub_take` returned and those that its calls of `frame_unref` were
given, and the log. -/
structure EncoderWorker where
  width : UInt32
  height : UInt32
  backend : H264Backend
  ring : AuRing
  forceIdr : Bool
  running : Bool
  framesIn : UInt64
  framesEncoded : UInt64
  skippedIdle : UInt64
  skippedMismatch : UInt64
  skippedBadSize : UInt64
  noOutput : UInt64
  phase : WorkerPhase
  frame : Option Frame
  taken : List Frame
  unrefs : List Frame
  log : List WorkerEffect

/-- `encoder_worker_create`, and the start of the thread. -/
def encoderWorkerCreate (backend : H264Backend) (width height : UInt32) (ring : AuRing)
    (forceIdr : Bool) : Option EncoderWorker :=
  let i420Size := width.toNat * height.toNat * 3 % 2 ^ 64 / 2
  if encodeScratchMax < i420Size then none
  else some
    { width := width
      height := height
      backend := backend
      ring := ring
      forceIdr := forceIdr
      running := true
      framesIn := 0
      framesEncoded := 0
      skippedIdle := 0
      skippedMismatch := 0
      skippedBadSize := 0
      noOutput := 0
      phase := .top
      frame := none
      taken := []
      unrefs := []
      log := [] }

/-- What happens: a viewer asks for a keyframe, `encoder_worker_stop` is called, the event loop pops the
ring; or the thread goes on. -/
inductive WorkerEvent
  | request
  | stop
  | pop (bufferCapacity : ℕ)
  | take (frame : Option Frame) (active : Bool)
  | exchange
  | encode (answers : H264Answers)
  | clear
  | push

/-! ### The iteration -/

/-- `Frame *frame = frame_hub_take(worker->consumer)`, where it returns a frame. -/
def EncoderWorker.take (worker : EncoderWorker) (frame : Frame) : EncoderWorker :=
  { worker with frame := some frame, taken := worker.taken ++ [frame] }

/-- `frame_unref(frame_hub_pool(worker->hub), frame)`. The variable still points to the frame afterwards. -/
def EncoderWorker.unref (worker : EncoderWorker) : EncoderWorker :=
  { worker with unrefs := worker.unrefs ++ worker.frame.toList }

/-- From the top of the loop to the conversion; `frame` is what `frame_hub_take` returns. -/
def encoderThreadTake (worker : EncoderWorker) (frame : Option Frame) (active : Bool) :
    Option EncoderWorker :=
  match worker.phase with
  | .top =>
    if ¬ worker.running then some { worker with phase := .stopped }
    else
      match frame with
      | none => some worker
      | some frame =>
        let worker := { worker.take frame with framesIn := worker.framesIn + 1 }
        if ¬ active then some { worker with skippedIdle := worker.skippedIdle + 1 }.unref
        else if frame.width ≠ worker.width ∨ frame.height ≠ worker.height then
          some { worker with skippedMismatch := worker.skippedMismatch + 1 }.unref
        else if frame.size = 0 then
          some { worker with skippedBadSize := worker.skippedBadSize + 1 }.unref
        else some { worker with phase := .converted frame.timestampUs }
  | _ => none

/-- `atomic_exchange(worker->force_idr, 0)` -/
def encoderThreadExchange (worker : EncoderWorker) : Option EncoderWorker :=
  match worker.phase with
  | .converted ptsUs =>
    some { worker with forceIdr := false, phase := .exchanged ptsUs worker.forceIdr }
  | _ => none

/-- The call of `h264_encoder_encode` and what follows from its result. -/
def encoderThreadEncode (worker : EncoderWorker) (answers : H264Answers) : Option EncoderWorker :=
  match worker.phase with
  | .exchanged ptsUs forceIdr =>
    (h264EncoderEncode worker.backend ptsUs forceIdr auScratchCapacity answers).map fun r ↦
      let worker := { worker with backend := r.2.1, log := worker.log ++ r.2.2.map WorkerEffect.encoder }
      let worker := worker.unref
      if r.1.result < 0 then { worker with phase := .stopped }
      else if r.1.result = 0 then { worker with noOutput := worker.noOutput + 1, phase := .top }
      else
        { worker with
          framesEncoded := worker.framesEncoded + 1
          phase := .encoded ptsUs r.1.out r.1.isIdr }
  | _ => none

/-- "Satisfy pending keyframe requests that arrived while this IDR was produced." -/
def encoderThreadClear (worker : EncoderWorker) : Option EncoderWorker :=
  match worker.phase with
  | .encoded ptsUs out isIdr =>
    some
      { worker with
        forceIdr := if isIdr then false else worker.forceIdr
        phase := .cleared ptsUs out isIdr }
  | _ => none

/-- The push at the end of the loop. -/
def encoderThreadPush (worker : EncoderWorker) : Option EncoderWorker :=
  match worker.phase with
  | .cleared ptsUs out isIdr =>
    let r := auRingPush worker.ring (some fun k ↦ out.getD k 0) out.length ptsUs (if isIdr then 1 else 0)
    some
      { worker with
        ring := r.2
        log := if r.1 = 0 then worker.log ++ [.pushed out ptsUs isIdr] else worker.log
        phase := .top }
  | _ => none

/-- One step of the system. -/
def workerEventStep (worker : EncoderWorker) : WorkerEvent → Option EncoderWorker
  | .request => some { worker with forceIdr := true, log := worker.log ++ [.requested] }
  | .stop => some { worker with running := false }
  | .pop bufferCapacity => some { worker with ring := (auRingPop worker.ring bufferCapacity).2 }
  | .take frame active => encoderThreadTake worker frame active
  | .exchange => encoderThreadExchange worker
  | .encode answers => encoderThreadEncode worker answers
  | .clear => encoderThreadClear worker
  | .push => encoderThreadPush worker

/-- A frame of two by two pixels. -/
def smallFrame (timestampUs : UInt64) : Frame := ⟨2, 2, 0, 4, 8, 0, timestampUs, 0, 0, 1⟩

/-- The thread takes such a frame and has it encoded. -/
def encodeSmallFrame (timestampUs : UInt64) (answers : H264Answers) : List WorkerEvent :=
  [.take (some (smallFrame timestampUs)) true, .exchange, .encode answers]

/-! ### What the thread carries -/

/-- The access unit the thread has in its hands. -/
def WorkerPhase.unit? : WorkerPhase → Option (List UInt8)
  | encoded _ out _ | cleared _ out _ => some out
  | _ => none

/-- The ring takes what the encoder returns. -/
structure EncoderWorker.Fits (worker : EncoderWorker) : Prop where
  slotCapacity_eq : worker.ring.slotCapacity = auSlotCapacity
  unit_fits : ∀ out ∈ worker.phase.unit?, 0 < out.length ∧ out.length ≤ auScratchCapacity

/-- The part of the worker that the keyframe requests and the access units are about. -/
structure WorkerView where
  backend : H264Backend
  forceIdr : Bool
  phase : WorkerPhase
  log : List WorkerEffect

def EncoderWorker.view (worker : EncoderWorker) : WorkerView :=
  ⟨worker.backend, worker.forceIdr, worker.phase, worker.log⟩

/-- Where the thread goes from the encode call. -/
def EncodeOutcome.next (outcome : EncodeOutcome) (ptsUs : UInt64) : WorkerPhase :=
  if outcome.result < 0 then .stopped
  else if outcome.result = 0 then .top
  else .encoded ptsUs outcome.out outcome.isIdr

/-- Whether an event can leave the view as it is. -/
def WorkerEvent.mayIdle : WorkerEvent → Bool
  | stop | pop _ | take _ _ => true
  | _ => false

/-- **What a step does to the view.** -/
inductive WorkerView.Step (v : WorkerView) : WorkerEvent → WorkerView → Prop
  | idle {e : WorkerEvent} (he : e.mayIdle = true) : v.Step e v
  | request : v.Step .request { v with forceIdr := true, log := v.log ++ [.requested] }
  | leave {frame : Option Frame} {active : Bool} (hphase : v.phase = .top) :
    v.Step (.take frame active) { v with phase := .stopped }
  | take {frame : Frame} {active : Bool} (hphase : v.phase = .top) :
    v.Step (.take (some frame) active) { v with phase := .converted frame.timestampUs }
  | exchange {ptsUs : UInt64} (hphase : v.phase = .converted ptsUs) :
    v.Step .exchange { v with forceIdr := false, phase := .exchanged ptsUs v.forceIdr }
  | encode {ptsUs : UInt64} {forceIdr : Bool} {answers : H264Answers} {outcome : EncodeOutcome}
    {backend : H264Backend} {effects : List H264Effect} (hphase : v.phase = .exchanged ptsUs forceIdr)
    (hencode : h264EncoderEncode v.backend ptsUs forceIdr auScratchCapacity answers =
      some (outcome, backend, effects)) :
    v.Step (.encode answers)
      ⟨backend, v.forceIdr, outcome.next ptsUs, v.log ++ effects.map WorkerEffect.encoder⟩
  | clear {ptsUs : UInt64} {out : List UInt8} {isIdr : Bool} (hphase : v.phase = .encoded ptsUs out isIdr) :
    v.Step .clear
      { v with forceIdr := if isIdr then false else v.forceIdr, phase := .cleared ptsUs out isIdr }
  | push {ptsUs : UInt64} {out : List UInt8} {isIdr : Bool} (hphase : v.phase = .cleared ptsUs out isIdr) :
    v.Step .push { v with phase := .top, log := v.log ++ [.pushed out ptsUs isIdr] }

variable {worker worker' : EncoderWorker} {e : WorkerEvent}

/-! ### What the steps of the thread need and do -/

theorem phase_of_encoderThreadTake {frame : Option Frame} {active : Bool}
    (h : encoderThreadTake worker frame active = some worker') : worker.phase = .top := by
  rw [encoderThreadTake.eq_def] at h
  rcases hphase : worker.phase with - | ptsUs | ⟨ptsUs, f⟩ | ⟨ptsUs, out, i⟩ | ⟨ptsUs, out, i⟩ | - <;>
    rw [hphase] at h <;> first | rfl | exact absurd h.symm (Option.some_ne_none _)

/-- The exchange clears the request and remembers it. -/
theorem encoderThreadExchange_eq_some (h : encoderThreadExchange worker = some worker') :
    ∃ ptsUs, worker.phase = .converted ptsUs ∧
      worker' = { worker with forceIdr := false, phase := .exchanged ptsUs worker.forceIdr } := by
  rw [encoderThreadExchange] at h
  rcases hphase : worker.phase with - | ptsUs | ⟨ptsUs, f⟩ | ⟨ptsUs, out, i⟩ | ⟨ptsUs, out, i⟩ | - <;>
    rw [hphase] at h <;> try exact absurd h.symm (Option.some_ne_none _)
  exact ⟨ptsUs, rfl, (Option.some.inj h).symm⟩

/-- A call of the encoder, and what its outcome is counted as. -/
theorem encoderThreadEncode_eq_some {answers : H264Answers}
    (h : encoderThreadEncode worker answers = some worker') :
    ∃ ptsUs forceIdr outcome backend effects, worker.phase = .exchanged ptsUs forceIdr ∧
      h264EncoderEncode worker.backend ptsUs forceIdr auScratchCapacity answers =
        some (outcome, backend, effects) ∧
      worker' =
        let worker := { worker with backend, log := worker.log ++ effects.map WorkerEffect.encoder }
        let worker := worker.unref
        if outcome.result < 0 then { worker with phase := .stopped }
        else if outcome.result = 0 then { worker with noOutput := worker.noOutput + 1, phase := .top }
        else
          { worker with
            framesEncoded := worker.framesEncoded + 1
            phase := .encoded ptsUs outcome.out outcome.isIdr } := by
  rw [encoderThreadEncode] at h
  rcases hphase : worker.phase with - | ptsUs | ⟨ptsUs, f⟩ | ⟨ptsUs, out, i⟩ | ⟨ptsUs, out, i⟩ | - <;>
    rw [hphase] at h <;> try exact absurd h.symm (Option.some_ne_none _)
  obtain ⟨⟨outcome, backend, effects⟩, hencode, rfl⟩ := Option.map_eq_some_iff.1 h
  exact ⟨ptsUs, f, outcome, backend, effects, rfl, hencode, rfl⟩

/-- An IDR answers every request that came before it. -/
theorem encoderThreadClear_eq_some (h : encoderThreadClear worker = some worker') :
    ∃ ptsUs out isIdr, worker.phase = .encoded ptsUs out isIdr ∧
      worker' =
        { worker with
          forceIdr := if isIdr then false else worker.forceIdr
          phase := .cleared ptsUs out isIdr } := by
  rw [encoderThreadClear] at h
  rcases hphase : worker.phase with - | ptsUs | ⟨ptsUs, f⟩ | ⟨ptsUs, out, i⟩ | ⟨ptsUs, out, i⟩ | - <;>
    rw [hphase] at h <;> try exact absurd h.symm (Option.some_ne_none _)
  exact ⟨ptsUs, out, i, rfl, (Option.some.inj h).symm⟩

/-- The push hands the scratch buffer to the ring. -/
theorem encoderThreadPush_eq_some (h : encoderThreadPush worker = some worker') :
    ∃ ptsUs out isIdr, worker.phase = .cleared ptsUs out isIdr ∧
      worker' =
        let r := auRingPush worker.ring (some fun k ↦ out.getD k 0) out.length ptsUs (if isIdr then 1 else 0)
        { worker with
          ring := r.2
          log := if r.1 = 0 then worker.log ++ [.pushed out ptsUs isIdr] else worker.log
          phase := .top } := by
  rw [encoderThreadPush] at h
  rcases hphase : worker.phase with - | ptsUs | ⟨ptsUs, f⟩ | ⟨ptsUs, out, i⟩ | ⟨ptsUs, out, i⟩ | - <;>
    rw [hphase] at h <;> try exact absurd h.symm (Option.some_ne_none _)
  exact ⟨ptsUs, out, i, rfl, (Option.some.inj h).symm⟩

/-- The size of the slots is fixed. -/
theorem slotCapacity_auRingPush (ring : AuRing) (data : Option (ℕ → UInt8)) (size : ℕ) (ptsUs : UInt64)
    (isIdr : ℤ) : (auRingPush ring data size ptsUs isIdr).2.slotCapacity = ring.slotCapacity := by
  rcases auRingPush_cases ring data size ptsUs isIdr with ⟨h, -⟩ | ⟨bytes, -, -, -, h⟩
  · rw [h]
  · rw [h]
    show ring.overwriteOldest.slotCapacity = ring.slotCapacity
    rw [AuRing.overwriteOldest]
    split_ifs <;> rfl

theorem slotCapacity_auRingPop (ring : AuRing) (bufferCapacity : ℕ) :
    (auRingPop ring bufferCapacity).2.slotCapacity = ring.slotCapacity := by
  rw [auRingPop]
  split_ifs <;> rfl

theorem EncoderWorker.Fits.idle (h : worker.Fits) (he : e.mayIdle = true)
    (hview : worker.view = worker'.view) (hring : worker.ring = worker'.ring) :
    worker.view.Step e worker'.view ∧ worker'.Fits := by
  have hphase : worker.phase = worker'.phase := congrArg WorkerView.phase hview
  refine ⟨hview ▸ .idle he, hring ▸ h.slotCapacity_eq, ?_⟩
  rw [← hphase]
  exact h.unit_fits

/-- **A step of the worker is a step of its view**, and what comes out of the encoder fits the ring. -/
theorem view_workerEventStep (h : worker.Fits) (hs : workerEventStep worker e = some worker') :
    worker.view.Step e worker'.view ∧ worker'.Fits := by
  cases e with
  | request =>
    obtain rfl := Option.some.inj hs
    exact ⟨.request, h.slotCapacity_eq, h.unit_fits⟩
  | stop =>
    obtain rfl := Option.some.inj hs
    exact h.idle rfl rfl rfl
  | pop bufferCapacity =>
    obtain rfl := Option.some.inj hs
    exact ⟨.idle rfl, (slotCapacity_auRingPop _ _).trans h.slotCapacity_eq, h.unit_fits⟩
  | take frame active =>
    have hphase := phase_of_encoderThreadTake hs
    rw [workerEventStep, encoderThreadTake.eq_def, hphase] at hs
    dsimp only at hs
    by_cases hrunning : worker.running
    · rw [if_neg (not_not.2 hrunning)] at hs
      rcases frame with - | frame
      · obtain rfl := Option.some.inj hs
        exact h.idle rfl rfl rfl
      · dsimp only at hs
        split_ifs at hs <;> obtain rfl := Option.some.inj hs
        · exact h.idle rfl rfl rfl
        · exact h.idle rfl rfl rfl
        · exact ⟨.take hphase, h.slotCapacity_eq, nofun⟩
        · exact h.idle rfl rfl rfl
    · rw [if_pos hrunning] at hs
      obtain rfl := Option.some.inj hs
      exact ⟨.leave hphase, h.slotCapacity_eq, nofun⟩
  | exchange =>
    obtain ⟨ptsUs, hphase, rfl⟩ := encoderThreadExchange_eq_some hs
    exact ⟨.exchange hphase, h.slotCapacity_eq, nofun⟩
  | encode answers =>
    obtain ⟨ptsUs, forceIdr, outcome, backend, effects, hphase, hencode, rfl⟩ :=
      encoderThreadEncode_eq_some hs
    -- The view encodes as the worker does, so both branch in the same way.
    have hstep := WorkerView.Step.encode (v := worker.view) hphase hencode
    rw [EncodeOutcome.next] at hstep
    dsimp only
    split_ifs at hstep ⊢ with hneg hzero
    · exact ⟨hstep, h.slotCapacity_eq, nofun⟩
    · exact ⟨hstep, h.slotCapacity_eq, nofun⟩
    · refine ⟨hstep, h.slotCapacity_eq, fun out hout ↦ ?_⟩
      obtain rfl := Option.some.inj hout
      exact length_of_h264EncoderEncode hencode (by omega)
  | clear =>
    obtain ⟨ptsUs, out, isIdr, hphase, rfl⟩ := encoderThreadClear_eq_some hs
    refine ⟨.clear hphase, h.slotCapacity_eq, fun out hout ↦ h.unit_fits out ?_⟩
    rw [hphase]
    exact hout
  | push =>
    obtain ⟨ptsUs, out, isIdr, hphase, rfl⟩ := encoderThreadPush_eq_some hs
    obtain ⟨hpos, hle⟩ := h.unit_fits out (by rw [hphase]; rfl)
    have hslot := (slotCapacity_auRingPush worker.ring (some fun k ↦ out.getD k 0) out.length ptsUs
      (if isIdr then 1 else 0)).trans h.slotCapacity_eq
    -- A unit that fits the scratch buffer fits a slot, so the ring takes it.
    rcases auRingPush_cases worker.ring (some fun k ↦ out.getD k 0) out.length ptsUs
      (if isIdr then 1 else 0) with ⟨-, hzero | hlarge | hnull⟩ | ⟨bytes, -, -, -, hpush⟩
    · exact absurd hzero (Nat.pos_iff_ne_zero.1 hpos)
    · rw [h.slotCapacity_eq] at hlarge
      exact absurd hle (Nat.not_le.2 hlarge)
    · exact absurd hnull (Option.some_ne_none _)
    · rw [hpush] at hslot ⊢
      exact ⟨.push hphase, hslot, nofun⟩

/-- The worker starts at the top of the loop, with nothing in its hands. -/
theorem fits_encoderWorkerCreate {backend : H264Backend} {width height : UInt32} {ring : AuRing}
    {forceIdr : Bool} {slots : ℕ} (hring : auRingCreate auSlotCapacity slots = some ring)
    (hcreate : encoderWorkerCreate backend width height ring forceIdr = some worker) :
    worker.Fits ∧ worker.view = ⟨backend, forceIdr, .top, []⟩ := by
  rw [encoderWorkerCreate] at hcreate
  split_ifs at hcreate
  obtain rfl := Option.some.inj hcreate
  rw [auRingCreate] at hring
  split_ifs at hring
  obtain rfl := Option.some.inj hring
  exact ⟨⟨rfl, fun out hout ↦ absurd hout (Option.not_mem_none out)⟩, rfl⟩

end Camstream
