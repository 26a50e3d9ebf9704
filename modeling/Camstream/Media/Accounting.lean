import Camstream.Lib.Run
import Camstream.Media.EncoderWorker

/-!
# The books of the encode worker

Every frame the thread takes ends in exactly one counter and is unref'd exactly once, on each of the exits
of the loop body. The worker itself records its calls of `frame_hub_take` and `frame_unref`; `WorkerLedger`
follows what the encoder returns. `Balanced` is about the frames, `Stocked` about the ring, which is a queue
that was given what the ring accepted. `worker_accounting` is what holds between any two iterations of any
run, whatever viewers, the event loop and `encoder_worker_stop` do in between.
-/

namespace Camstream

/-! ### The ledger -/

/-- An access unit with the time of its frame, and whether it is an IDR picture. -/
abbrev AccountedUnit := List UInt8 × UInt64 × Bool

/-- The access units the encoder returned, and whether it reported a fatal error. -/
structure WorkerLedger where
  produced : List AccountedUnit
  failed : Bool

/-- Nothing has happened yet. -/
def WorkerLedger.empty : WorkerLedger := ⟨[], false⟩

/-- What the encoder returns in a step. -/
def workerLedger (worker : EncoderWorker) (l : WorkerLedger) : WorkerEvent → WorkerLedger
  | .encode answers =>
    match worker.phase with
    | .exchanged ptsUs forceIdr =>
      match h264EncoderEncode worker.backend ptsUs forceIdr auScratchCapacity answers with
      | some (outcome, _, _) =>
        if outcome.result < 0 then { l with failed := true }
        else if outcome.result = 0 then l
        else { l with produced := l.produced ++ [(outcome.out, ptsUs, outcome.isIdr)] }
      | none => l
    | _ => l
  | _ => l

/-- A step of the system with the ledger. -/
def workerLedgerStep (c : EncoderWorker × WorkerLedger) (e : WorkerEvent) :
    Option (EncoderWorker × WorkerLedger) :=
  (workerEventStep c.1 e).map fun worker ↦ (worker, workerLedger c.1 c.2 e)

/-- The ledger changes nothing. -/
theorem exec_workerLedgerStep (c : EncoderWorker × WorkerLedger) (es : List WorkerEvent) :
    (Run.exec workerLedgerStep c es).map Prod.fst = Run.exec workerEventStep c.1 es :=
  Run.exec_map (fun c e ↦ by rw [workerLedgerStep, Option.map_map]; exact Option.map_id') c es

/-- The access units the ring has accepted, in order. -/
def acceptedUnits (log : List WorkerEffect) : List AccountedUnit :=
  log.filterMap fun
    | .pushed out ptsUs isIdr => some (out, ptsUs, isIdr)
    | _ => none

/-- The counters of frames that are done with, other than by a fatal error. -/
def EncoderWorker.accounted (worker : EncoderWorker) : UInt64 :=
  worker.skippedIdle + worker.skippedMismatch + worker.skippedBadSize + worker.noOutput +
    worker.framesEncoded

/-- Whether the thread has a frame in its hands. -/
def WorkerPhase.holdsFrame : WorkerPhase → Bool
  | converted _ | exchanged _ _ => true
  | _ => false

/-- The frame that the thread still has to unref. -/
def EncoderWorker.held (worker : EncoderWorker) : List Frame :=
  if worker.phase.holdsFrame then worker.frame.toList else []

/-- An access unit as the books have it. -/
def AccessUnit.accounted (unit : AccessUnit) : AccountedUnit :=
  (unit.bytes, unit.info.ptsUs, decide (unit.info.isIdr ≠ 0))

/-- The access unit that is still to be pushed. -/
def WorkerPhase.unpushed : WorkerPhase → List AccountedUnit
  | encoded ptsUs out isIdr | cleared ptsUs out isIdr => [(out, ptsUs, isIdr)]
  | _ => []

/-! ### The invariant -/

/-- The books balance, with slots of `slotCapacity` bytes in the ring. -/
structure Balanced (slotCapacity : ℕ) (worker : EncoderWorker) (l : WorkerLedger) : Prop where
  frames : worker.taken = worker.unrefs ++ worker.held
  counted : worker.framesIn = UInt64.ofNat worker.taken.length
  accounting : worker.framesIn =
    worker.accounted + (if worker.phase.holdsFrame then 1 else 0) + (if l.failed then 1 else 0)
  failed : l.failed = true → worker.phase = .stopped
  encoded : worker.framesEncoded = UInt64.ofNat l.produced.length
  slot : worker.ring.slotCapacity = slotCapacity
  fits : ∀ u ∈ worker.phase.unpushed, 0 < u.1.length ∧ u.1.length ≤ auScratchCapacity
  accepted : auScratchCapacity ≤ slotCapacity →
    l.produced = acceptedUnits worker.log ++ worker.phase.unpushed

/-- The ring with its `n` slots is a queue, and what was put in is what the ring has accepted. -/
structure Stocked (slotCapacity n : ℕ) (worker : EncoderWorker) (q : DropOldest AccessUnit) : Prop where
  ring : worker.ring.Represents slotCapacity n q
  accepted : q.accepted.map AccessUnit.accounted = acceptedUnits worker.log

variable {slotCapacity n : ℕ} {worker worker' : EncoderWorker} {l : WorkerLedger} {q : DropOldest AccessUnit}

/-- The accepted access units of two stretches of a log. -/
theorem acceptedUnits_append (log log' : List WorkerEffect) :
    acceptedUnits (log ++ log') = acceptedUnits log ++ acceptedUnits log' :=
  List.filterMap_append

/-- What the encoder does to its device is not a push. -/
theorem acceptedUnits_encoder (effects : List H264Effect) :
    acceptedUnits (effects.map WorkerEffect.encoder) = [] := by
  rw [acceptedUnits, List.filterMap_map]
  exact List.filterMap_eq_nil_iff.2 fun _ _ ↦ rfl

/-- The books of a fresh worker are empty, and balanced. -/
theorem balanced_create {backend : H264Backend} {width height : UInt32} {ring : AuRing} {forceIdr : Bool}
    (h : encoderWorkerCreate backend width height ring forceIdr = some worker) :
    Balanced ring.slotCapacity worker .empty := by
  rw [encoderWorkerCreate] at h
  split_ifs at h
  obtain rfl := Option.some.inj h
  exact ⟨rfl, rfl, rfl, fun h ↦ absurd h Bool.false_ne_true, rfl, rfl, fun _ h ↦ absurd h List.not_mem_nil,
    fun _ ↦ rfl⟩

theorem EncoderWorker.held_eq_nil (hphase : worker.phase.holdsFrame = false) : worker.held = [] := by
  rw [held, hphase, if_neg Bool.false_ne_true]

theorem EncoderWorker.held_eq_toList (hphase : worker.phase.holdsFrame = true) :
    worker.held = worker.frame.toList := by
  rw [held, hphase, if_pos rfl]

/-- Only what the ledger is about matters. -/
theorem Balanced.congr (h : Balanced slotCapacity worker l)
    (hholds : worker'.phase.holdsFrame = worker.phase.holdsFrame)
    (hunpushed : worker'.phase.unpushed = worker.phase.unpushed)
    (hstopped : worker.phase = .stopped → worker'.phase = .stopped)
    (hframes : (worker'.frame, worker'.taken, worker'.unrefs) = (worker.frame, worker.taken, worker.unrefs))
    (hin : worker'.framesIn = worker.framesIn) (hdone : worker'.accounted = worker.accounted)
    (hencoded : worker'.framesEncoded = worker.framesEncoded)
    (hslot : worker'.ring.slotCapacity = worker.ring.slotCapacity)
    (hlog : acceptedUnits worker'.log = acceptedUnits worker.log) : Balanced slotCapacity worker' l where
  frames := by
    obtain ⟨hframe, htaken, hunrefs⟩ := Prod.ext_iff.1 hframes |>.imp id Prod.ext_iff.1
    rw [show worker'.taken = worker.taken from htaken, show worker'.unrefs = worker.unrefs from hunrefs, h.frames,
      EncoderWorker.held, EncoderWorker.held, hholds, show worker'.frame = worker.frame from hframe]
  counted := by
    rw [hin, h.counted, show worker'.taken = worker.taken from congrArg (fun x ↦ x.2.1) hframes]
  accounting := by rw [hin, hdone, h.accounting, hholds]
  failed hf := hstopped (h.failed hf)
  encoded := by rw [hencoded, h.encoded]
  slot := by rw [hslot, h.slot]
  fits := by rw [hunpushed]; exact h.fits
  accepted hs := by rw [hlog, hunpushed, h.accepted hs]

/-- From a phase before the end to another that holds as much. -/
theorem Balanced.congr_phase (h : Balanced slotCapacity worker l) (hrunning : worker.phase ≠ .stopped)
    (hholds : worker'.phase.holdsFrame = worker.phase.holdsFrame)
    (hunpushed : worker'.phase.unpushed = worker.phase.unpushed)
    (hframes : (worker'.frame, worker'.taken, worker'.unrefs) = (worker.frame, worker.taken, worker.unrefs))
    (hin : worker'.framesIn = worker.framesIn) (hdone : worker'.accounted = worker.accounted)
    (hencoded : worker'.framesEncoded = worker.framesEncoded)
    (hslot : worker'.ring.slotCapacity = worker.ring.slotCapacity)
    (hlog : acceptedUnits worker'.log = acceptedUnits worker.log) : Balanced slotCapacity worker' l :=
  h.congr hholds hunpushed (fun hstopped ↦ absurd hstopped hrunning) hframes hin hdone hencoded hslot hlog

/-! ### The steps -/

/-- A frame is taken at the top of the loop. -/
theorem Balanced.takes (h : Balanced slotCapacity worker l) (hphase : worker.phase = .top) (frame : Frame) :
    Balanced slotCapacity
      { worker.take frame with framesIn := worker.framesIn + 1, phase := .converted frame.timestampUs } l where
  frames := by
    have hframes := h.frames
    rw [EncoderWorker.held_eq_nil (by rw [hphase]; rfl), List.append_nil] at hframes
    show worker.taken ++ [frame] = worker.unrefs ++ [frame]
    rw [hframes]
  counted := by
    show worker.framesIn + 1 = UInt64.ofNat (worker.taken ++ [frame]).length
    rw [h.counted, List.length_append, UInt64.ofNat_add]
    rfl
  accounting := by
    have haccounting := h.accounting
    rw [hphase] at haccounting
    show worker.framesIn + 1 = worker.accounted + 1 + (if l.failed then 1 else 0)
    rw [haccounting]
    simp only [WorkerPhase.holdsFrame, Bool.false_eq_true, if_false, UInt64.add_zero]
    ac_rfl
  failed hf := by
    have hstopped := h.failed hf
    rw [hphase] at hstopped
    cases hstopped
  encoded := h.encoded
  slot := h.slot
  fits _ hu := absurd hu List.not_mem_nil
  accepted hs := by
    have haccepted := h.accepted hs
    rw [hphase] at haccepted
    exact haccepted

/-- With a frame in hand all others are accounted for, and no access unit is waiting. -/
theorem Balanced.of_holdsFrame (h : Balanced slotCapacity worker l)
    (hholds : worker.phase.holdsFrame = true) :
    l.failed = false ∧ worker.framesIn = worker.accounted + 1 ∧ worker.phase.unpushed = [] := by
  have hopen : l.failed = false := by
    by_contra hf
    rw [h.failed (Bool.eq_true_of_not_eq_false hf)] at hholds
    exact absurd hholds Bool.false_ne_true
  refine ⟨hopen, ?_, ?_⟩
  · rw [h.accounting, hholds, hopen, if_pos rfl, if_neg Bool.false_ne_true, UInt64.add_zero]
  · revert hholds
    cases worker.phase <;> intro hholds
    case encoded | cleared => exact absurd hholds Bool.false_ne_true
    all_goals rfl

/-- The frame in hand is unref'd, once. -/
theorem Balanced.frames_unref (h : Balanced slotCapacity worker l) (hholds : worker.phase.holdsFrame = true)
    (hphase : worker'.phase.holdsFrame = false) (htaken : worker'.taken = worker.taken)
    (hunrefs : worker'.unrefs = worker.unrefs ++ worker.frame.toList) :
    worker'.taken = worker'.unrefs ++ worker'.held := by
  rw [htaken, hunrefs, EncoderWorker.held_eq_nil hphase, List.append_nil, h.frames,
    EncoderWorker.held_eq_toList hholds]

/-- The frame in hand is unref'd and counted, and the loop goes on. -/
theorem Balanced.unref (h : Balanced slotCapacity worker l) (hholds : worker.phase.holdsFrame = true)
    (hphase : worker'.phase = .top) (htaken : worker'.taken = worker.taken)
    (hunrefs : worker'.unrefs = worker.unrefs ++ worker.frame.toList)
    (hin : worker'.framesIn = worker.framesIn) (hdone : worker'.accounted = worker.accounted + 1)
    (hencoded : worker'.framesEncoded = worker.framesEncoded) (hring : worker'.ring = worker.ring)
    (hlog : acceptedUnits worker'.log = acceptedUnits worker.log) : Balanced slotCapacity worker' l := by
  obtain ⟨hopen, haccounting, hunpushed⟩ := h.of_holdsFrame hholds
  constructor
  case frames => exact h.frames_unref hholds (by rw [hphase]; rfl) htaken hunrefs
  case counted => rw [hin, htaken]; exact h.counted
  case accounting =>
    rw [hin, haccounting, hdone, hopen, hphase, if_neg Bool.false_ne_true]
    exact ((UInt64.add_zero _).trans (UInt64.add_zero _)).symm
  case failed => exact fun hf ↦ absurd (hopen.symm.trans hf) Bool.false_ne_true
  case encoded => rw [hencoded]; exact h.encoded
  case slot => rw [hring, h.slot]
  case fits => rw [hphase]; exact fun _ hu ↦ absurd hu List.not_mem_nil
  case accepted =>
    intro hs
    have haccepted := h.accepted hs
    rw [hunpushed] at haccepted
    rw [hphase, hlog]
    exact haccepted

/-- The frame in hand is unref'd and the encoder has failed. -/
theorem Balanced.fail (h : Balanced slotCapacity worker l) (hholds : worker.phase.holdsFrame = true)
    {log : List WorkerEffect} (hlog : acceptedUnits log = acceptedUnits worker.log) (backend : H264Backend) :
    Balanced slotCapacity
      { EncoderWorker.unref { worker with backend := backend, log := log } with phase := .stopped }
      { l with failed := true } := by
  obtain ⟨-, haccounting, hunpushed⟩ := h.of_holdsFrame hholds
  constructor
  case frames => exact h.frames_unref hholds rfl rfl rfl
  case counted => exact h.counted
  case accounting =>
    show worker.framesIn = worker.accounted + 0 + 1
    rw [haccounting, UInt64.add_zero]
  case failed => exact fun _ ↦ rfl
  case encoded => exact h.encoded
  case slot => exact h.slot
  case fits => exact fun _ hu ↦ absurd hu List.not_mem_nil
  case accepted =>
    intro hs
    show l.produced = acceptedUnits log ++ []
    rw [hlog, ← hunpushed]
    exact h.accepted hs

/-- The frame in hand is unref'd and the encoder has returned an access unit. -/
theorem Balanced.produce (h : Balanced slotCapacity worker l) (hholds : worker.phase.holdsFrame = true)
    {log : List WorkerEffect} (hlog : acceptedUnits log = acceptedUnits worker.log) (backend : H264Backend)
    {out : List UInt8} (hout : 0 < out.length ∧ out.length ≤ auScratchCapacity) (ptsUs : UInt64)
    (isIdr : Bool) :
    Balanced slotCapacity
      { EncoderWorker.unref { worker with backend := backend, log := log } with
        framesEncoded := worker.framesEncoded + 1
        phase := .encoded ptsUs out isIdr }
      { l with produced := l.produced ++ [(out, ptsUs, isIdr)] } := by
  obtain ⟨hopen, haccounting, hunpushed⟩ := h.of_holdsFrame hholds
  constructor
  case frames => exact h.frames_unref hholds rfl rfl rfl
  case counted => exact h.counted
  case accounting =>
    show worker.framesIn = worker.skippedIdle + worker.skippedMismatch + worker.skippedBadSize +
      worker.noOutput + (worker.framesEncoded + 1) + 0 + (if l.failed then 1 else 0)
    rw [haccounting, hopen, if_neg Bool.false_ne_true, UInt64.add_zero, UInt64.add_zero,
      EncoderWorker.accounted, UInt64.add_assoc]
  case failed => exact fun hf ↦ absurd (hopen.symm.trans hf) Bool.false_ne_true
  case encoded =>
    show worker.framesEncoded + 1 = UInt64.ofNat (l.produced ++ [(out, ptsUs, isIdr)]).length
    rw [h.encoded, List.length_append, UInt64.ofNat_add]
    rfl
  case slot => exact h.slot
  case fits =>
    intro u hu
    obtain rfl := List.mem_singleton.1 hu
    exact hout
  case accepted =>
    intro hs
    have haccepted := h.accepted hs
    rw [hunpushed, List.append_nil] at haccepted
    show l.produced ++ [(out, ptsUs, isIdr)] = acceptedUnits log ++ [(out, ptsUs, isIdr)]
    rw [haccepted, hlog]

/-- The access unit in hand is pushed: a ring with slots that are large enough accepts it. -/
theorem Balanced.push (h : Balanced slotCapacity worker l) (hs : encoderThreadPush worker = some worker') :
    Balanced slotCapacity worker' l := by
  obtain ⟨ptsUs, out, isIdr, hphase, rfl⟩ := encoderThreadPush_eq_some hs
  obtain ⟨hpos, hle⟩ : 0 < out.length ∧ out.length ≤ auScratchCapacity :=
    h.fits (out, ptsUs, isIdr) (by rw [hphase]; exact List.mem_singleton_self _)
  have hslot := slotCapacity_auRingPush worker.ring (some fun k ↦ out.getD k 0) out.length ptsUs
    (if isIdr then 1 else 0)
  constructor
  case frames =>
    rw [EncoderWorker.held_eq_nil rfl, List.append_nil]
    have hframes := h.frames
    rwa [EncoderWorker.held_eq_nil (by rw [hphase]; rfl), List.append_nil] at hframes
  case counted => exact h.counted
  case accounting =>
    have haccounting := h.accounting
    rw [hphase] at haccounting
    exact haccounting
  case failed =>
    intro hf
    rw [h.failed hf] at hphase
    cases hphase
  case encoded => exact h.encoded
  case slot => exact hslot.trans h.slot
  case fits => exact fun _ hu ↦ absurd hu List.not_mem_nil
  case accepted =>
    intro hs
    have haccepted := h.accepted hs
    rw [hphase] at haccepted
    have hslotCapacity := h.slot
    -- What `fits` says of the unit rules out every way for the ring to refuse it.
    rcases auRingPush_cases worker.ring (some fun k ↦ out.getD k 0) out.length ptsUs
      (if isIdr then 1 else 0) with ⟨-, hzero | hlarge | hnull⟩ | ⟨bytes, -, -, -, hpush⟩
    · omega
    · omega
    · exact absurd hnull (Option.some_ne_none _)
    · dsimp only
      rw [hpush, if_pos rfl, acceptedUnits_append, List.append_assoc]
      exact haccepted

/-- **A step of the system keeps the books balanced.** -/
theorem balanced_workerEventStep (h : Balanced slotCapacity worker l) {e : WorkerEvent}
    (hs : workerEventStep worker e = some worker') :
    Balanced slotCapacity worker' (workerLedger worker l e) := by
  cases e with
  | request =>
    obtain rfl := Option.some.inj hs
    refine h.congr rfl rfl id rfl rfl rfl rfl rfl ?_
    rw [acceptedUnits_append]
    exact List.append_nil _
  | stop =>
    obtain rfl := Option.some.inj hs
    exact h.congr rfl rfl id rfl rfl rfl rfl rfl rfl
  | pop bufferCapacity =>
    obtain rfl := Option.some.inj hs
    exact h.congr rfl rfl id rfl rfl rfl rfl (slotCapacity_auRingPop _ _) rfl
  | take frame active =>
    have hphase := phase_of_encoderThreadTake hs
    rw [workerEventStep, encoderThreadTake.eq_def, hphase] at hs
    dsimp only at hs
    rcases eq_or_ne worker.running true with hrunning | hrunning
    · rw [if_neg (not_not_intro hrunning)] at hs
      rcases frame with - | frame
      · obtain rfl := Option.some.inj hs
        exact h
      · -- The frame is in hand on every path; three of them let go of it at once.
        have htaken := h.takes hphase frame
        dsimp only at hs
        split_ifs at hs <;> obtain rfl := Option.some.inj hs
        · exact htaken.unref rfl hphase rfl rfl rfl
            (by simp only [EncoderWorker.accounted, EncoderWorker.unref]; ac_rfl) rfl rfl rfl
        · exact htaken.unref rfl hphase rfl rfl rfl
            (by simp only [EncoderWorker.accounted, EncoderWorker.unref]; ac_rfl) rfl rfl rfl
        · exact htaken
        · exact htaken.unref rfl hphase rfl rfl rfl
            (by simp only [EncoderWorker.accounted, EncoderWorker.unref]; ac_rfl) rfl rfl rfl
    · rw [if_pos hrunning] at hs
      obtain rfl := Option.some.inj hs
      exact h.congr (by rw [hphase]; rfl) (by rw [hphase]; rfl) (fun _ ↦ rfl) rfl rfl rfl rfl rfl rfl
  | exchange =>
    obtain ⟨ptsUs, hphase, rfl⟩ := encoderThreadExchange_eq_some hs
    exact h.congr_phase (by rw [hphase]; exact WorkerPhase.noConfusion) (by rw [hphase]; rfl)
      (by rw [hphase]; rfl) rfl rfl rfl rfl rfl rfl
  | encode answers =>
    obtain ⟨ptsUs, forceIdr, outcome, backend, effects, hphase, hencode, rfl⟩ :=
      encoderThreadEncode_eq_some hs
    have hholds : worker.phase.holdsFrame = true := by rw [hphase]; rfl
    have hlog : acceptedUnits (worker.log ++ effects.map WorkerEffect.encoder) = acceptedUnits worker.log := by
      rw [acceptedUnits_append, acceptedUnits_encoder, List.append_nil]
    simp only [workerLedger, hphase, hencode]
    -- The frame is unref'd whatever the encoder says.
    split_ifs with hneg hzero
    · exact h.fail hholds hlog backend
    · exact h.unref hholds rfl rfl rfl rfl
        (by simp only [EncoderWorker.accounted, EncoderWorker.unref]; ac_rfl) rfl rfl hlog
    · exact h.produce hholds hlog backend (length_of_h264EncoderEncode hencode (by omega)) ptsUs outcome.isIdr
  | clear =>
    obtain ⟨ptsUs, out, isIdr, hphase, rfl⟩ := encoderThreadClear_eq_some hs
    exact h.congr_phase (by rw [hphase]; exact WorkerPhase.noConfusion) (by rw [hphase]; rfl)
      (by rw [hphase]; rfl) rfl rfl rfl rfl rfl rfl
  | push => exact h.push hs

/-! ### The ring -/

theorem map_getD_range (out : List UInt8) : (List.range out.length).map (fun k ↦ out.getD k 0) = out := by
  refine List.ext_getElem (by simp) fun i hi hi' ↦ ?_
  rw [List.getElem_map, List.getElem_range, List.getD_eq_getElem _ _ hi']

/-- What a push stores. -/
def AuRing.unitOf (ring : AuRing) (out : List UInt8) (ptsUs : UInt64) (isIdr : Bool) : AccessUnit :=
  ⟨(List.range out.length).map fun k ↦ out.getD k 0, ⟨ptsUs, ring.sequence, if isIdr then 1 else 0, out.length⟩⟩

/-- The ring keeps bytes, time and kind of an access unit as the worker has them. -/
theorem AuRing.accounted_unitOf (ring : AuRing) (out : List UInt8) (ptsUs : UInt64) (isIdr : Bool) :
    (ring.unitOf out ptsUs isIdr).accounted = (out, ptsUs, isIdr) := by
  have hidr : decide ((if isIdr then (1 : ℤ) else 0) ≠ 0) = isIdr := by
    cases isIdr <;> rfl
  rw [AccessUnit.accounted, unitOf, map_getD_range, hidr]

/-- Taking a frame leaves the ring and the log alone. -/
theorem ring_encoderThreadTake {frame : Option Frame} {active : Bool}
    (h : encoderThreadTake worker frame active = some worker') :
    worker'.ring = worker.ring ∧ worker'.log = worker.log := by
  rw [encoderThreadTake.eq_def, phase_of_encoderThreadTake h] at h
  rcases frame with - | frame <;> dsimp only at h <;> split_ifs at h <;> obtain rfl := Option.some.inj h <;>
    exact ⟨rfl, rfl⟩

/-- A fresh ring is the empty queue. -/
theorem stocked_create {backend : H264Backend} {width height : UInt32} {ring : AuRing} {forceIdr : Bool}
    (hring : auRingCreate slotCapacity n = some ring)
    (h : encoderWorkerCreate backend width height ring forceIdr = some worker) :
    Stocked slotCapacity n worker .empty := by
  rw [encoderWorkerCreate] at h
  split_ifs at h
  obtain rfl := Option.some.inj h
  exact ⟨(refines_auRingCreate hring).represents, rfl⟩

/-- Only the ring and the access units accepted matter. -/
theorem Stocked.congr (h : Stocked slotCapacity n worker q) (hring : worker'.ring = worker.ring)
    (hlog : acceptedUnits worker'.log = acceptedUnits worker.log) : Stocked slotCapacity n worker' q :=
  ⟨hring ▸ h.ring, h.accepted.trans hlog.symm⟩

/-- **What the thread pushes** goes into the queue. -/
theorem Stocked.push (h : Stocked slotCapacity n worker q) (hbacking : slotCapacity * n ≤ 2 ^ 64)
    (hfits : ∀ u ∈ worker.phase.unpushed, 0 < u.1.length ∧ u.1.length ≤ slotCapacity)
    (hs : encoderThreadPush worker = some worker') :
    ∃ unit, Stocked slotCapacity n worker' (q.push n unit) := by
  obtain ⟨ptsUs, out, isIdr, hphase, rfl⟩ := encoderThreadPush_eq_some hs
  obtain ⟨hpos, hle⟩ : 0 < out.length ∧ out.length ≤ slotCapacity :=
    hfits (out, ptsUs, isIdr) (by rw [hphase]; exact List.mem_singleton_self _)
  rcases auRingPush_cases worker.ring (some fun k ↦ out.getD k 0) out.length ptsUs
    (if isIdr then 1 else 0) with ⟨-, hzero | hlarge | hnull⟩ | ⟨bytes, hbytes, -, -, hpush⟩
  · exact absurd hzero (Nat.pos_iff_ne_zero.1 hpos)
  · rw [h.ring.slotCapacity_eq] at hlarge
    exact absurd hle (Nat.not_le.2 hlarge)
  · exact absurd hnull (Option.some_ne_none _)
  · obtain rfl := Option.some.inj hbytes
    refine ⟨worker.ring.unitOf out ptsUs isIdr, ?_, ?_⟩
    · dsimp only
      rw [hpush]
      exact h.ring.auRingPush hbacking hle
    · dsimp only
      rw [hpush, if_pos rfl, DropOldest.accepted_push, List.map_append, h.accepted, acceptedUnits_append,
        List.map_singleton, AuRing.accounted_unitOf]
      rfl

/-- **What the loop pops** leaves the queue, whatever buffer it brings. -/
theorem Stocked.pop (h : Stocked slotCapacity n worker q) (bufferCapacity : ℕ) :
    Stocked slotCapacity n { worker with ring := (auRingPop worker.ring bufferCapacity).2 } q.take := by
  have hsame : (auRingPop worker.ring bufferCapacity).2 = (auRingPop worker.ring slotCapacity).2 := by
    rw [auRingPop, auRingPop]
    split_ifs <;> rfl
  refine ⟨?_, ?_⟩
  · dsimp only
    rw [hsame]
    exact (h.ring.auRingPop (le_refl slotCapacity)).2
  · rw [DropOldest.accepted_take]
    exact h.accepted

/-- **A step of the system** keeps the ring a queue of what it has accepted. -/
theorem stocked_workerEventStep (h : Stocked slotCapacity n worker q) (hbalanced : Balanced slotCapacity worker l)
    (hslot : auScratchCapacity ≤ slotCapacity) (hbacking : slotCapacity * n ≤ 2 ^ 64) {e : WorkerEvent}
    (hs : workerEventStep worker e = some worker') : ∃ q', Stocked slotCapacity n worker' q' := by
  -- Pop and push are the steps of the queue, the others leave it alone.
  cases e with
  | request =>
    obtain rfl := Option.some.inj hs
    refine ⟨q, h.congr rfl ?_⟩
    rw [acceptedUnits_append]
    exact List.append_nil _
  | stop =>
    obtain rfl := Option.some.inj hs
    exact ⟨q, h.congr rfl rfl⟩
  | pop bufferCapacity =>
    obtain rfl := Option.some.inj hs
    exact ⟨q.take, h.pop bufferCapacity⟩
  | take frame active =>
    obtain ⟨hring, hlog⟩ := ring_encoderThreadTake hs
    exact ⟨q, h.congr hring (congrArg acceptedUnits hlog)⟩
  | exchange =>
    obtain ⟨ptsUs, -, rfl⟩ := encoderThreadExchange_eq_some hs
    exact ⟨q, h.congr rfl rfl⟩
  | encode answers =>
    obtain ⟨ptsUs, forceIdr, outcome, backend, effects, -, -, rfl⟩ := encoderThreadEncode_eq_some hs
    have hlog : acceptedUnits (worker.log ++ effects.map WorkerEffect.encoder) = acceptedUnits worker.log := by
      rw [acceptedUnits_append, acceptedUnits_encoder, List.append_nil]
    refine ⟨q, h.congr ?_ ?_⟩ <;> dsimp only <;> split_ifs <;> first | rfl | exact hlog
  | clear =>
    obtain ⟨ptsUs, out, isIdr, -, rfl⟩ := encoderThreadClear_eq_some hs
    exact ⟨q, h.congr rfl rfl⟩
  | push =>
    obtain ⟨unit, hpush⟩ := h.push hbacking
      (fun u hu ↦ ⟨(hbalanced.fits u hu).1, (hbalanced.fits u hu).2.trans hslot⟩) hs
    exact ⟨_, hpush⟩

/-! ### Runs -/

section Runs

variable {backend : H264Backend} {width height : UInt32} {ring : AuRing} {forceIdr : Bool}
  {start : EncoderWorker} {events : List WorkerEvent}

/-- The step of the machine with its ledger. -/
theorem balanced_workerLedgerStep {c c' : EncoderWorker × WorkerLedger} {e : WorkerEvent}
    (h : Balanced slotCapacity c.1 c.2) (hs : workerLedgerStep c e = some c') :
    Balanced slotCapacity c'.1 c'.2 := by
  obtain ⟨worker', hworker, rfl⟩ := Option.map_eq_some_iff.1 hs
  exact balanced_workerEventStep h hworker

/-- By induction on the run. -/
theorem balanced_of_run (hcreate : encoderWorkerCreate backend width height ring forceIdr = some start)
    (hrun : Run.exec workerLedgerStep (start, .empty) events = some (worker, l)) :
    Balanced ring.slotCapacity worker l :=
  Run.exec_invariant (P := fun c : EncoderWorker × WorkerLedger ↦ Balanced ring.slotCapacity c.1 c.2)
    (fun _ _ _ ↦ balanced_workerLedgerStep) (balanced_create hcreate) hrun

/-- The queue that the ring represents, along the run. -/
theorem stocked_of_run (hcreate : encoderWorkerCreate backend width height ring forceIdr = some start)
    (hring : auRingCreate slotCapacity n = some ring) (hslot : auScratchCapacity ≤ slotCapacity)
    (hbacking : slotCapacity * n ≤ 2 ^ 64)
    (hrun : Run.exec workerLedgerStep (start, .empty) events = some (worker, l)) :
    ∃ q, Stocked slotCapacity n worker q := by
  have hcapacity : ring.slotCapacity = slotCapacity := by
    rw [auRingCreate] at hring
    split_ifs at hring
    obtain rfl := Option.some.inj hring
    rfl
  have hstart := hcapacity ▸ balanced_create hcreate
  refine (Run.exec_invariant (P := fun c : EncoderWorker × WorkerLedger ↦
    Balanced slotCapacity c.1 c.2 ∧ ∃ q, Stocked slotCapacity n c.1 q) ?_
    ⟨hstart, _, stocked_create hring hcreate⟩ hrun).2
  rintro c e c' ⟨hbalanced, q, hq⟩ hstep
  refine ⟨balanced_workerLedgerStep hbalanced hstep, ?_⟩
  obtain ⟨worker', hworker, rfl⟩ := Option.map_eq_some_iff.1 hstep
  exact stocked_workerEventStep hq hbalanced hslot hbacking hworker

/-- **The books of the encode worker are exact.** Between two iterations of any run, and when the thread
has left the loop, every frame is in one counter, or is the one on which the encoder failed; the calls of
`frame_unref` were given every frame taken, once and in the order they were taken; and where the slots of the
ring hold 512 KiB, the ring accepted the access units the encoder returned, in order, and `frames_encoded`
counts them. A ring that was created with a backing that has a size has itself counted as many, and holds the
last of them that have not been popped: it is a queue into which they were put. -/
theorem worker_accounting (hcreate : encoderWorkerCreate backend width height ring forceIdr = some start)
    (hrun : Run.exec workerLedgerStep (start, .empty) events = some (worker, l))
    (hiteration : worker.phase = .top ∨ worker.phase = .stopped) :
    worker.framesIn = worker.skippedIdle + worker.skippedMismatch + worker.skippedBadSize +
        worker.noOutput + worker.framesEncoded + (if l.failed then 1 else 0) ∧
      (l.failed = true → worker.phase = .stopped) ∧
      worker.framesIn = UInt64.ofNat worker.taken.length ∧ worker.unrefs = worker.taken ∧
      (auScratchCapacity ≤ ring.slotCapacity → acceptedUnits worker.log = l.produced ∧
        worker.framesEncoded = UInt64.ofNat l.produced.length ∧
        ∀ n, auRingCreate ring.slotCapacity n = some ring → ring.slotCapacity * n < 2 ^ 64 →
          worker.ring.sequence = worker.framesEncoded ∧
          ∃ q : DropOldest AccessUnit, worker.ring.Represents ring.slotCapacity n q ∧
            q.accepted.map AccessUnit.accounted = l.produced) := by
  have h := balanced_of_run hcreate hrun
  -- At the end of an iteration the worker has no frame, and nothing waits to be pushed.
  have hfree : worker.phase.holdsFrame = false ∧ worker.phase.unpushed = [] := by
    rcases hiteration with hphase | hphase <;> rw [hphase] <;> exact ⟨rfl, rfl⟩
  have haccounting := h.accounting
  have hframes := h.frames
  rw [hfree.1] at haccounting
  rw [EncoderWorker.held_eq_nil hfree.1, List.append_nil] at hframes
  refine ⟨?_, h.failed, h.counted, hframes.symm, fun hslot ↦ ?_⟩
  · rw [haccounting]
    simp only [Bool.false_eq_true, if_false, UInt64.add_zero]
    rfl
  have haccepted := h.accepted hslot
  rw [hfree.2, List.append_nil] at haccepted
  refine ⟨haccepted.symm, h.encoded, fun n hring hbacking ↦ ?_⟩
  obtain ⟨q, hq⟩ := stocked_of_run hcreate hring hslot hbacking.le hrun
  have hmap := hq.accepted.trans haccepted.symm
  have hlength := congrArg List.length hmap
  rw [List.length_map] at hlength
  exact ⟨by rw [hq.ring.sequence_eq, hlength, h.encoded], q, hq.ring, hmap⟩

end Runs

/-- One frame of each kind: without a viewer, of the wrong size, empty, without output, encoded, and one on
which the encoder fails. -/
def sampleFrames : List WorkerEvent :=
  [.take (some (smallFrame 0)) false, .take (some { smallFrame 1 with width := 4 }) true,
      .take (some { smallFrame 2 with size := 0 }) true] ++
    encodeSmallFrame 3 (.x264 ⟨0, 0, fun _ ↦ 0, false⟩) ++
    encodeSmallFrame 4 (.x264 ⟨2, 1, fun _ ↦ 7, true⟩) ++ [.clear, .push] ++
    encodeSmallFrame 5 (.x264 ⟨-1, 0, fun _ ↦ 0, false⟩)

theorem worker_accounting_sample : ∃ ring start worker l,
    auRingCreate auSlotCapacity 8 = some ring ∧ encoderWorkerCreate .x264 2 2 ring false = some start ∧
    Run.exec workerLedgerStep (start, .empty) sampleFrames = some (worker, l) ∧ worker.phase = .stopped ∧
    worker.framesIn = worker.skippedIdle + worker.skippedMismatch + worker.skippedBadSize +
      worker.noOutput + worker.framesEncoded + 1 ∧
    worker.unrefs = worker.taken ∧ worker.taken.length = 6 ∧
    acceptedUnits worker.log = [([7, 7], 4, true)] ∧ worker.ring.sequence = 1 := by
  obtain ⟨ring, start, worker, l, hring, hcreate, hrun, hphase, hfailed, hslot, hproduced, htaken⟩ :
      ∃ ring start worker l, auRingCreate auSlotCapacity 8 = some ring ∧
        encoderWorkerCreate .x264 2 2 ring false = some start ∧
        Run.exec workerLedgerStep (start, .empty) sampleFrames = some (worker, l) ∧
        worker.phase = .stopped ∧ l.failed = true ∧ ring.slotCapacity = auSlotCapacity ∧
        l.produced = [([7, 7], 4, true)] ∧ worker.taken.length = 6 :=
    ⟨_, _, _, _, rfl, rfl, rfl, rfl, rfl, rfl, rfl, rfl⟩
  obtain ⟨haccounting, -, -, hunrefs, haccepted⟩ := worker_accounting hcreate hrun (.inr hphase)
  rw [if_pos hfailed] at haccounting
  obtain ⟨hpushed, hencoded, hqueue⟩ := haccepted hslot.ge
  obtain ⟨hsequence, -⟩ := hqueue 8 (hslot ▸ hring) (by rw [hslot]; decide)
  refine ⟨ring, start, worker, l, hring, hcreate, hrun, hphase, haccounting, hunrefs, htaken,
    hpushed.trans hproduced, ?_⟩
  rw [hsequence, hencoded, hproduced]
  rfl

end Camstream
