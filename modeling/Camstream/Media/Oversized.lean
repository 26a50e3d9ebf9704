import Camstream.Media.EncoderWorker

/-!
# Access units that are too large

An encoded picture of more than 512 KiB does not fit the scratch buffer of the worker. The hardware backend
drops the picture and goes on; `x264_encode` reports it as an error, which ends the thread.

To drop a picture and nothing else is to run as if the encoder had produced nothing there:
`dropOversized` takes the oversized pictures out of what the encoder answers, and `DropsOversized` says
that the run with these answers ends where the run ended. For the hardware this is a simulation, step by
step (`map_dropOversized_workerEventStep`).
-/

namespace Camstream

open Run

/-! ### Runs without oversized pictures -/

/-- An encoded buffer, empty if its picture is too large. -/
def CaptureBuffer.dropOversized (buffer : CaptureBuffer) : CaptureBuffer :=
  if auScratchCapacity < buffer.bytes.length then { buffer with bytes := [] } else buffer

def M2mIoctl.dropOversized : M2mIoctl → M2mIoctl
  | .dqbufCapture buffer copied => .dqbufCapture buffer.dropOversized copied
  | ioctl => ioctl

def DrainTurn.dropOversized (turn : DrainTurn) : DrainTurn :=
  { turn with buffer := turn.buffer.dropOversized }

def M2mAnswers.dropOversized (answers : M2mAnswers) : M2mAnswers :=
  { answers with drain := answers.drain.map DrainTurn.dropOversized }

/-- libx264 returns a picture that is too large. -/
def X264Answers.Oversized (answers : X264Answers) : Prop :=
  answers.nalCount ≠ 0 ∧ auScratchCapacity < answers.size.toNat

instance (answers : X264Answers) : Decidable answers.Oversized :=
  inferInstanceAs (Decidable (_ ∧ _))

def X264Answers.dropOversized (answers : X264Answers) : X264Answers :=
  if answers.Oversized then { answers with size := 0 } else answers

def H264Answers.dropOversized : H264Answers → H264Answers
  | .m2m answers => .m2m answers.dropOversized
  | .x264 answers => .x264 answers.dropOversized

def H264Effect.dropOversized : H264Effect → H264Effect
  | .m2m ioctl => .m2m ioctl.dropOversized
  | .x264 ptsUs idr => .x264 ptsUs idr

def WorkerEffect.dropOversized : WorkerEffect → WorkerEffect
  | .encoder effect => .encoder effect.dropOversized
  | effect => effect

/-- The worker, where the log has empty buffers for the oversized ones. -/
def EncoderWorker.dropOversized (worker : EncoderWorker) : EncoderWorker :=
  { worker with log := worker.log.map WorkerEffect.dropOversized }

def WorkerEvent.dropOversized : WorkerEvent → WorkerEvent
  | .encode answers => .encode answers.dropOversized
  | e => e

/-- The encoder produces a picture that is too large: the hardware, in a call that gets to its encoded
buffers, or libx264. -/
def H264Backend.Oversized : H264Backend → H264Answers → Prop
  | .m2m encoder, .m2m answers =>
    ¬ 64 < encoder.errors ∧ (m2mAcquireInputBuffer encoder answers).1 ≠ none ∧ answers.qbufOut = true ∧
      ∃ buffer ∈ answers.encoded, auScratchCapacity < buffer.bytes.length
  | .x264, .x264 answers => answers.Oversized
  | _, _ => False

/-- **Oversized pictures are dropped and nothing else**: the run ends where it ends without them, and the
thread goes on after each of them. -/
structure DropsOversized (start : EncoderWorker) (es : List WorkerEvent) (worker : EncoderWorker) :
    Prop where
  exec_eq : exec workerEventStep start.dropOversized (es.map WorkerEvent.dropOversized) =
    some worker.dropOversized
  goes_on : ∀ es₁ answers es₂ w w', es = es₁ ++ .encode answers :: es₂ →
    exec workerEventStep start es₁ = some w → w.backend.Oversized answers →
    workerEventStep w (.encode answers) = some w' → w'.phase ≠ .stopped

/-- In this event libx264 returns a picture that is too large. -/
def WorkerEvent.OversizedX264 : WorkerEvent → Prop
  | .encode (.x264 answers) => answers.Oversized
  | _ => False

/-! ### The hardware -/

/-- What has been collected, where the history has empty buffers for the oversized ones. -/
def M2mDrained.dropOversized (drained : M2mDrained) : M2mDrained :=
  { drained with ioctls := drained.ioctls.map M2mIoctl.dropOversized }

/-- An oversized buffer is not copied, no more than an empty one. -/
theorem m2mCollect_dropOversized (drained : M2mDrained) (buffer : CaptureBuffer) :
    m2mCollect auScratchCapacity drained.dropOversized buffer.dropOversized =
      (m2mCollect auScratchCapacity drained buffer).dropOversized := by
  have hioctl : ∀ copied, (drained.ioctls ++ [M2mIoctl.dqbufCapture buffer copied]).map M2mIoctl.dropOversized =
      drained.ioctls.map M2mIoctl.dropOversized ++ [.dqbufCapture buffer.dropOversized copied] :=
    fun copied ↦ by rw [List.map_append]; rfl
  rcases Nat.lt_or_ge auScratchCapacity buffer.bytes.length with hlarge | hfits
  · have hempty : buffer.dropOversized.bytes = [] := by
      rw [CaptureBuffer.dropOversized, if_pos hlarge]
    rw [m2mCollect, m2mCollect, if_neg, if_neg, M2mDrained.dropOversized, M2mDrained.dropOversized,
      hioctl]
    · rintro ⟨-, hroom⟩
      omega
    · rw [hempty]
      exact fun h ↦ absurd h.1 (Nat.lt_irrefl 0)
  · have hsame : buffer.dropOversized = buffer := if_neg (Nat.not_lt.2 hfits)
    rw [hsame] at hioctl
    have hout : drained.dropOversized.out = drained.out := rfl
    rw [hsame, m2mCollect, m2mCollect, hout]
    rcases Decidable.em (0 < buffer.bytes.length ∧
      ¬ auScratchCapacity < drained.out.length + buffer.bytes.length) with hcopied | hnot
    · rw [if_pos hcopied, if_pos hcopied, M2mDrained.dropOversized, M2mDrained.dropOversized, hioctl]
    · rw [if_neg hnot, if_neg hnot, M2mDrained.dropOversized, M2mDrained.dropOversized, hioctl]

/-- Without the oversized pictures the loop collects the same bytes. -/
theorem m2mDrain_dropOversized (turns : List DrainTurn) (drained : M2mDrained) :
    m2mDrain auScratchCapacity (turns.map DrainTurn.dropOversized) drained.dropOversized =
      (m2mDrain auScratchCapacity turns drained).dropOversized := by
  induction turns generalizing drained with
  | nil => rfl
  | cons turn turns ih =>
    have hcollect := m2mCollect_dropOversized drained turn.buffer
    rw [List.map_cons, m2mDrain, m2mDrain]
    show (if ¬ turn.requeued = true then
        m2mCollect auScratchCapacity drained.dropOversized turn.buffer.dropOversized
      else if ¬ turn.more = true then
        m2mCollect auScratchCapacity drained.dropOversized turn.buffer.dropOversized
      else m2mDrain auScratchCapacity (turns.map DrainTurn.dropOversized)
        (m2mCollect auScratchCapacity drained.dropOversized turn.buffer.dropOversized)) = _
    rw [hcollect, ih]
    split_ifs <;> rfl

/-- The same with what was ready before. -/
theorem m2mDrainReady_dropOversized (encoder : M2mBackend) (answers : M2mAnswers)
    (ioctls : List M2mIoctl) :
    m2mDrainReady encoder auScratchCapacity answers.dropOversized
        (ioctls.map M2mIoctl.dropOversized) =
      let r := m2mDrainReady encoder auScratchCapacity answers ioctls
      (r.1, r.2.1, r.2.2.map M2mIoctl.dropOversized) := by
  have hdrain : m2mDrain auScratchCapacity answers.dropOversized.drain
      ⟨[], false, ioctls.map M2mIoctl.dropOversized⟩ =
        (m2mDrain auScratchCapacity answers.drain ⟨[], false, ioctls⟩).dropOversized :=
    m2mDrain_dropOversized answers.drain ⟨[], false, ioctls⟩
  have hpoll : answers.dropOversized.pollIn = answers.pollIn := rfl
  rw [m2mDrainReady, m2mDrainReady, hdrain, hpoll, M2mDrained.dropOversized]
  dsimp only
  split_ifs <;> rfl

/-- **A call of the hardware** does the same with an empty buffer in the place of an oversized one. -/
theorem m2mEncode_dropOversized (encoder : M2mBackend) (ptsUs : UInt64) (forceIdr : Bool)
    (answers : M2mAnswers) :
    m2mEncode encoder ptsUs forceIdr auScratchCapacity answers.dropOversized =
      let r := m2mEncode encoder ptsUs forceIdr auScratchCapacity answers
      (r.1, r.2.1, r.2.2.map M2mIoctl.dropOversized) := by
  have hacquire : m2mAcquireInputBuffer encoder answers.dropOversized =
      m2mAcquireInputBuffer encoder answers := rfl
  have hqbufOut : answers.dropOversized.qbufOut = answers.qbufOut := rfl
  have hioctls : (m2mAcquireInputBuffer encoder answers).2.2.map M2mIoctl.dropOversized =
      (m2mAcquireInputBuffer encoder answers).2.2 := by
    rcases m2mAcquireInputBuffer_cases encoder answers with h | ⟨n, -, h⟩ | ⟨i, h⟩ <;> rw [h] <;> rfl
  rw [m2mEncode, m2mEncode, hacquire, hqbufOut]
  rcases hacq : m2mAcquireInputBuffer encoder answers with ⟨- | index, encoder', ioctls⟩ <;>
    rw [hacq] at hioctls <;> dsimp only at hioctls ⊢
  · rw [apply_ite Prod.fst, apply_ite Prod.snd]
    split_ifs
    · rfl
    · rw [hioctls]
  -- The frame is queued before anything is collected.
  have hqbuf : ioctls ++ [M2mIoctl.qbufOutput index (ptsUs.toNat / 1000000, ptsUs.toNat % 1000000)
      forceIdr answers.qbufOut] =
        (ioctls ++ [M2mIoctl.qbufOutput index (ptsUs.toNat / 1000000, ptsUs.toNat % 1000000)
          forceIdr answers.qbufOut]).map M2mIoctl.dropOversized := by
    rw [List.map_append, hioctls]
    rfl
  split_ifs
  · rfl
  · rw [← m2mDrainReady_dropOversized, ← hqbuf]
  · rw [← hqbuf]

/-! ### One call of either backend -/

variable {backend : H264Backend} {answers : H264Answers} {worker worker' : EncoderWorker}

/-- Libx264 answers with a picture that is too large. -/
theorem X264Answers.dropOversized_of_not {answers : X264Answers} (h : ¬ answers.Oversized) :
    answers.dropOversized = answers := if_neg h

/-- libx264 reports an oversized picture as an error; without it there would be nothing to report. -/
theorem x264Encode_of_oversized {answers : X264Answers} (h : answers.Oversized) :
    x264Encode auScratchCapacity answers = ⟨-1, [], false⟩ ∧
      x264Encode auScratchCapacity answers.dropOversized = ⟨0, [], false⟩ := by
  obtain ⟨hnal, hlarge⟩ := h
  constructor
  · rw [x264Encode, if_neg (by omega), if_neg (by omega), if_pos hlarge]
  · rw [X264Answers.dropOversized, if_pos ⟨hnal, hlarge⟩]
    rfl

/-- **One call**: with the oversized pictures dropped it has the same result, unless libx264 returns one. -/
theorem h264EncoderEncode_dropOversized (backend : H264Backend) (ptsUs : UInt64) (forceIdr : Bool)
    (h : ¬ (WorkerEvent.encode answers).OversizedX264) :
    h264EncoderEncode backend ptsUs forceIdr auScratchCapacity answers.dropOversized =
      (h264EncoderEncode backend ptsUs forceIdr auScratchCapacity answers).map fun r ↦
        (r.1, r.2.1, r.2.2.map H264Effect.dropOversized) := by
  rcases backend with encoder | - <;> rcases answers with answers | answers
  · have hencode := m2mEncode_dropOversized encoder ptsUs forceIdr answers
    show some _ = some _
    rw [hencode]
    dsimp only
    rw [List.map_map, List.map_map]
    rfl
  · rfl
  · rfl
  · have hsame : answers.dropOversized = answers := X264Answers.dropOversized_of_not h
    show some (x264Encode auScratchCapacity answers.dropOversized, _) = _
    rw [hsame]
    rfl

/-- A call with an oversized picture, where libx264 is not to blame for it, goes on. -/
theorem result_nonneg_of_oversized {ptsUs : UInt64} {forceIdr : Bool} {outcome : EncodeOutcome}
    {backend' : H264Backend} {effects : List H264Effect} (hover : backend.Oversized answers)
    (h : ¬ (WorkerEvent.encode answers).OversizedX264)
    (hencode : h264EncoderEncode backend ptsUs forceIdr auScratchCapacity answers =
      some (outcome, backend', effects)) : ¬ outcome.result < 0 := by
  rcases backend with encoder | - <;> rcases answers with answers | answers
  · obtain ⟨rfl, -⟩ := Prod.mk.inj (Option.some.inj hencode)
    obtain ⟨hgood, -⟩ := hover
    rcases m2mEncode_cases encoder ptsUs forceIdr auScratchCapacity answers with
      ⟨hbroken, -⟩ | ⟨-, he⟩ | ⟨index, encoder', ioctls, -, ⟨-, he⟩ | ⟨-, he⟩⟩
    · exact absurd hbroken hgood
    · rw [he]
      exact Int.lt_irrefl 0
    · rw [he]
      exact Int.lt_irrefl 0
    · rw [he, m2mDrainReady_eq]
      dsimp only
      split_ifs <;> omega
  · exact hover.elim
  · exact hover.elim
  · exact absurd hover h

/-! ### Steps of the worker -/

theorem phase_dropOversized (worker : EncoderWorker) : worker.dropOversized.phase = worker.phase := rfl

theorem map_dropOversized_encoderThreadTake (worker : EncoderWorker) (frame : Option Frame) (active : Bool) :
    (encoderThreadTake worker frame active).map EncoderWorker.dropOversized =
      encoderThreadTake worker.dropOversized frame active := by
  rw [encoderThreadTake.eq_def, encoderThreadTake.eq_def, phase_dropOversized]
  cases worker.phase with
  | top =>
    have hrunning : worker.dropOversized.running = worker.running := rfl
    cases frame with
    | none =>
      dsimp only
      rw [hrunning]
      split_ifs <;> rfl
    | some frame =>
      have hwidth : (worker.dropOversized.take frame).width = (worker.take frame).width := rfl
      have hheight : (worker.dropOversized.take frame).height = (worker.take frame).height := rfl
      dsimp only
      rw [hrunning, hwidth, hheight]
      split_ifs <;> rfl
  | converted _ | exchanged _ _ | encoded _ _ _ | cleared _ _ _ | stopped => rfl

theorem map_dropOversized_encoderThreadExchange (worker : EncoderWorker) :
    (encoderThreadExchange worker).map EncoderWorker.dropOversized =
      encoderThreadExchange worker.dropOversized := by
  rw [encoderThreadExchange, encoderThreadExchange, phase_dropOversized]
  cases worker.phase <;> rfl

/-- The two workers encode the same, unless libx264 has the oversized picture. -/
theorem map_dropOversized_encoderThreadEncode (worker : EncoderWorker)
    (h : ¬ (WorkerEvent.encode answers).OversizedX264) :
    (encoderThreadEncode worker answers).map EncoderWorker.dropOversized =
      encoderThreadEncode worker.dropOversized answers.dropOversized := by
  have hbackend : worker.dropOversized.backend = worker.backend := rfl
  rw [encoderThreadEncode, encoderThreadEncode, phase_dropOversized, hbackend]
  cases worker.phase with
  | exchanged ptsUs forceIdr =>
    dsimp only
    rw [h264EncoderEncode_dropOversized worker.backend ptsUs forceIdr h, Option.map_map, Option.map_map]
    refine Option.map_congr fun r _ ↦ ?_
    have hlog : (worker.log ++ r.2.2.map WorkerEffect.encoder).map WorkerEffect.dropOversized =
        worker.dropOversized.log ++
          (r.2.2.map H264Effect.dropOversized).map WorkerEffect.encoder := by
      rw [List.map_append, List.map_map, List.map_map]
      rfl
    dsimp only [Function.comp]
    rw [← hlog]
    split_ifs <;> rfl
  | top | converted _ | encoded _ _ _ | cleared _ _ _ | stopped => rfl

theorem map_dropOversized_encoderThreadClear (worker : EncoderWorker) :
    (encoderThreadClear worker).map EncoderWorker.dropOversized =
      encoderThreadClear worker.dropOversized := by
  rw [encoderThreadClear, encoderThreadClear, phase_dropOversized]
  cases worker.phase <;> rfl

theorem map_dropOversized_encoderThreadPush (worker : EncoderWorker) :
    (encoderThreadPush worker).map EncoderWorker.dropOversized =
      encoderThreadPush worker.dropOversized := by
  have hring : worker.dropOversized.ring = worker.ring := rfl
  rw [encoderThreadPush, encoderThreadPush, phase_dropOversized, hring]
  cases worker.phase with
  | cleared ptsUs out isIdr =>
    dsimp only [Option.map_some, EncoderWorker.dropOversized]
    rw [apply_ite (List.map WorkerEffect.dropOversized), List.map_append]
    rfl
  | top | converted _ | exchanged _ _ | encoded _ _ _ | stopped => rfl

/-- **A step of the worker** is one without the oversized pictures, unless libx264 returns one. -/
theorem map_dropOversized_workerEventStep (worker : EncoderWorker) {e : WorkerEvent}
    (h : ¬ e.OversizedX264) :
    (workerEventStep worker e).map EncoderWorker.dropOversized =
      workerEventStep worker.dropOversized e.dropOversized := by
  cases e with
  | request =>
    show some { worker with forceIdr := true, log := (worker.log ++ [_]).map _ } = _
    rw [List.map_append]
    rfl
  | stop | pop _ => rfl
  | take frame active => exact map_dropOversized_encoderThreadTake worker frame active
  | exchange => exact map_dropOversized_encoderThreadExchange worker
  | encode answers => exact map_dropOversized_encoderThreadEncode worker h
  | clear => exact map_dropOversized_encoderThreadClear worker
  | push => exact map_dropOversized_encoderThreadPush worker

/-- What may still happen when the thread has left the loop. -/
def WorkerEvent.outside : WorkerEvent → Bool
  | request | stop | pop _ => true
  | _ => false

/-- A stopped thread does nothing any more. -/
theorem outside_of_stopped {e : WorkerEvent} (hphase : worker.phase = .stopped)
    (h : workerEventStep worker e = some worker') : e.outside = true := by
  cases e with
  | request | stop | pop _ => rfl
  | take _ _ => exact nomatch hphase.symm.trans (phase_of_encoderThreadTake h)
  | exchange =>
    obtain ⟨ptsUs, hconverted, -⟩ := encoderThreadExchange_eq_some h
    exact nomatch hphase.symm.trans hconverted
  | encode _ =>
    obtain ⟨ptsUs, forceIdr, outcome, backend, effects, hexchanged, -⟩ := encoderThreadEncode_eq_some h
    exact nomatch hphase.symm.trans hexchanged
  | clear =>
    obtain ⟨ptsUs, out, isIdr, hencoded, -⟩ := encoderThreadClear_eq_some h
    exact nomatch hphase.symm.trans hencoded
  | push =>
    obtain ⟨ptsUs, out, isIdr, hcleared, -⟩ := encoderThreadPush_eq_some h
    exact nomatch hphase.symm.trans hcleared

/-- What is done outside the thread leaves it where it is. -/
theorem phase_of_outside {e : WorkerEvent} (he : e.outside = true)
    (h : workerEventStep worker e = some worker') : worker'.phase = worker.phase := by
  cases e with
  | request | stop | pop _ =>
    obtain rfl := Option.some.inj h
    rfl
  | take _ _ | exchange | encode _ | clear | push => exact absurd he Bool.false_ne_true

/-! ### Runs -/

/-- A stopped thread stays stopped, and only the others go on. -/
theorem exec_of_stopped {es : List WorkerEvent} (hphase : worker.phase = .stopped)
    (hrun : exec workerEventStep worker es = some worker') :
    worker'.phase = .stopped ∧ ∀ e ∈ es, e.outside = true := by
  induction es generalizing worker with
  | nil =>
    obtain rfl := Option.some.inj hrun
    exact ⟨hphase, fun e he ↦ absurd he List.not_mem_nil⟩
  | cons e es ih =>
    rw [exec_cons] at hrun
    obtain ⟨t, ht, hrun⟩ := Option.bind_eq_some_iff.1 hrun
    have he := outside_of_stopped hphase ht
    obtain ⟨hend, hall⟩ := ih ((phase_of_outside he ht).trans hphase) hrun
    exact ⟨hend, List.forall_mem_cons.2 ⟨he, hall⟩⟩

theorem phase_of_exec_outside {es : List WorkerEvent} (hes : ∀ e ∈ es, e.outside = true)
    (hrun : exec workerEventStep worker es = some worker') : worker'.phase = worker.phase :=
  exec_invariant_mem (P := fun t ↦ t.phase = worker.phase)
    (fun _ e _ he ht hstep ↦ (phase_of_outside (hes e he) hstep).trans ht) rfl hrun

/-- An event of the others is one without oversized pictures. -/
theorem WorkerEvent.dropOversized_of_outside {e : WorkerEvent} (he : e.outside = true) :
    e.dropOversized = e := by
  cases e with
  | encode _ => exact absurd he Bool.false_ne_true
  | request | stop | pop _ | take _ _ | exchange | clear | push => rfl

/-- Where an encode call leads. -/
theorem exists_of_encoderThreadEncode (h : encoderThreadEncode worker answers = some worker') :
    ∃ ptsUs forceIdr r, worker.phase = .exchanged ptsUs forceIdr ∧
      h264EncoderEncode worker.backend ptsUs forceIdr auScratchCapacity answers = some r ∧
      worker'.phase = r.1.next ptsUs ∧ worker'.backend = r.2.1 := by
  obtain ⟨ptsUs, forceIdr, outcome, backend, effects, hphase, hencode, rfl⟩ :=
    encoderThreadEncode_eq_some h
  refine ⟨ptsUs, forceIdr, (outcome, backend, effects), hphase, hencode, ?_⟩
  rw [EncodeOutcome.next]
  dsimp only
  split_ifs <;> exact ⟨rfl, rfl⟩

/-- **An oversized picture from libx264 stops the thread**, where it would go on without it. -/
theorem phase_of_oversizedX264 {e : WorkerEvent} (he : e.OversizedX264)
    (hstep : workerEventStep worker e = some worker') :
    worker'.phase = .stopped ∧ ∃ t, workerEventStep worker.dropOversized e.dropOversized = some t ∧
      t.phase = .top := by
  cases e with
  | encode answers =>
    cases answers with
    | m2m _ => exact he.elim
    | x264 answers =>
      obtain ⟨hover, hdropped⟩ := x264Encode_of_oversized he
      obtain ⟨ptsUs, forceIdr, r, hphase, hr, hnext, -⟩ := exists_of_encoderThreadEncode hstep
      rcases hbackend : worker.backend with encoder | - <;> rw [hbackend] at hr
      · exact absurd hr.symm (Option.some_ne_none _)
      obtain rfl := Option.some.inj hr
      dsimp only at hnext
      rw [hover] at hnext
      refine ⟨hnext, ?_⟩
      show ∃ t, encoderThreadEncode worker.dropOversized (.x264 answers.dropOversized) = some t ∧
        t.phase = .top
      -- Without the picture the worker has nothing to push and goes back to the top.
      have hphase' : worker.dropOversized.phase = .exchanged ptsUs forceIdr := hphase
      have hbackend' : worker.dropOversized.backend = .x264 := hbackend
      rw [encoderThreadEncode, hphase', hbackend']
      dsimp only
      rw [h264EncoderEncode, hdropped]
      exact ⟨_, rfl, rfl⟩
  | request | stop | pop _ | take _ _ | exchange | clear | push => exact he.elim

/-- **When a run ends as it does without the oversized pictures**: when libx264 returns none. -/
theorem exec_dropOversized_iff {es : List WorkerEvent}
    (hrun : exec workerEventStep worker es = some worker') :
    exec workerEventStep worker.dropOversized (es.map WorkerEvent.dropOversized) =
        some worker'.dropOversized ↔
      ∀ e ∈ es, ¬ e.OversizedX264 := by
  induction es generalizing worker with
  | nil =>
    obtain rfl := Option.some.inj hrun
    exact iff_of_true rfl fun e he ↦ absurd he List.not_mem_nil
  | cons e es ih =>
    rw [exec_cons] at hrun
    obtain ⟨t, ht, hrun⟩ := Option.bind_eq_some_iff.1 hrun
    rw [List.map_cons, exec_cons, List.forall_mem_cons]
    rcases Classical.em e.OversizedX264 with hover | hnot
    · obtain ⟨hstopped, u, hu, htop⟩ := phase_of_oversizedX264 hover ht
      obtain ⟨hend, houtside⟩ := exec_of_stopped hstopped hrun
      refine iff_of_false (fun heq ↦ ?_) fun h ↦ h.1 hover
      -- The one worker has stopped, so what comes after is from outside, and the other is at the top.
      have hsame : es.map WorkerEvent.dropOversized = es :=
        (List.map_congr_left fun e he ↦ WorkerEvent.dropOversized_of_outside (houtside e he)).trans
          (List.map_id' es)
      rw [hu, Option.bind_some, hsame] at heq
      have hphase : worker'.phase = .top := (phase_of_exec_outside houtside heq).trans htop
      rw [hend] at hphase
      exact WorkerPhase.noConfusion hphase
    · have hstep := map_dropOversized_workerEventStep worker hnot
      rw [ht] at hstep
      rw [← hstep, Option.map_some, Option.bind_some, ih hrun]
      exact (and_iff_right hnot).symm

/-- Taking a frame does not touch the back end. -/
theorem backend_encoderThreadTake {frame : Option Frame} {active : Bool}
    (h : encoderThreadTake worker frame active = some worker') : worker'.backend = worker.backend := by
  rw [encoderThreadTake.eq_def] at h
  cases hphase : worker.phase with
  | top =>
    rw [hphase] at h
    cases frame with
    | none =>
      dsimp only at h
      split_ifs at h <;> obtain rfl := Option.some.inj h <;> rfl
    | some frame =>
      dsimp only at h
      split_ifs at h <;> obtain rfl := Option.some.inj h <;> rfl
  | converted _ | exchanged _ _ | encoded _ _ _ | cleared _ _ _ | stopped =>
    rw [hphase] at h
    exact absurd h.symm (Option.some_ne_none _)

/-- The hardware stays the hardware, and gets no answers of libx264. -/
theorem not_oversizedX264_of_m2m {e : WorkerEvent} (hm2m : ∃ encoder, worker.backend = .m2m encoder)
    (hstep : workerEventStep worker e = some worker') :
    ¬ e.OversizedX264 ∧ ∃ encoder, worker'.backend = .m2m encoder := by
  cases e with
  | request | stop | pop _ =>
    obtain rfl := Option.some.inj hstep
    exact ⟨id, hm2m⟩
  | take frame active => exact ⟨id, (backend_encoderThreadTake hstep).symm ▸ hm2m⟩
  | encode answers =>
    obtain ⟨encoder, hencoder⟩ := hm2m
    obtain ⟨ptsUs, forceIdr, r, -, hr, -, hbackend⟩ := exists_of_encoderThreadEncode hstep
    rw [hencoder] at hr
    cases answers with
    | m2m answers =>
      obtain rfl := Option.some.inj hr
      exact ⟨id, _, hbackend⟩
    | x264 _ => exact absurd hr.symm (Option.some_ne_none _)
  | exchange | clear | push =>
    simp only [workerEventStep, encoderThreadExchange, encoderThreadClear, encoderThreadPush] at hstep
    split at hstep
    · obtain rfl := Option.some.inj hstep
      exact ⟨id, hm2m⟩
    · exact absurd hstep.symm (Option.some_ne_none _)

/-- A hardware encoder never answers as libx264. -/
theorem forall_not_oversizedX264_of_m2m {es : List WorkerEvent}
    (hm2m : ∃ encoder, worker.backend = .m2m encoder)
    (hrun : exec workerEventStep worker es = some worker') : ∀ e ∈ es, ¬ e.OversizedX264 := by
  induction es generalizing worker with
  | nil => exact fun e he ↦ absurd he List.not_mem_nil
  | cons e es ih =>
    rw [exec_cons] at hrun
    obtain ⟨t, ht, hrun⟩ := Option.bind_eq_some_iff.1 hrun
    obtain ⟨hnot, hm2m⟩ := not_oversizedX264_of_m2m hm2m ht
    exact List.forall_mem_cons.2 ⟨hnot, ih hm2m hrun⟩

/-- **When an oversized access unit does not end the stream.** In a run of the worker the oversized pictures
are dropped and nothing else exactly when none of them comes from libx264, and with the hardware backend
none does. -/
theorem dropsOversized_iff {start : EncoderWorker} {es : List WorkerEvent} {worker : EncoderWorker}
    (hrun : exec workerEventStep start es = some worker) :
    (DropsOversized start es worker ↔ ∀ e ∈ es, ¬ e.OversizedX264) ∧
      ((∃ encoder, start.backend = .m2m encoder) → DropsOversized start es worker) := by
  have hiff : DropsOversized start es worker ↔ ∀ e ∈ es, ¬ e.OversizedX264 := by
    rw [← exec_dropOversized_iff hrun]
    refine ⟨DropsOversized.exec_eq, fun hexec ↦ ⟨hexec, ?_⟩⟩
    rintro es₁ answers es₂ w w' rfl - hover hstep hstopped
    have hnot := (exec_dropOversized_iff hrun).1 hexec (.encode answers)
      (List.mem_append_right _ List.mem_cons_self)
    obtain ⟨ptsUs, forceIdr, r, -, hr, hnext, -⟩ := exists_of_encoderThreadEncode hstep
    have hresult := result_nonneg_of_oversized hover hnot hr
    rw [hstopped, EncodeOutcome.next, if_neg hresult] at hnext
    split_ifs at hnext
  exact ⟨hiff, fun hm2m ↦ hiff.2 (forall_not_oversizedX264_of_m2m hm2m hrun)⟩

/-- A device that has one picture ready, which is one byte too large. -/
def m2mReturnsOversized : M2mAnswers :=
  ⟨false, none, true, true, [⟨⟨List.replicate 524289 0, true⟩, true, false⟩]⟩

/-- With the hardware the picture is dropped. -/
theorem dropsOversized_iff_m2m : ∃ encoder ring start worker,
    m2mOpen 2 = some encoder ∧ auRingCreate auSlotCapacity 8 = some ring ∧
    encoderWorkerCreate (.m2m encoder) 2 2 ring false = some start ∧
    exec workerEventStep start (encodeSmallFrame 40 (.m2m m2mReturnsOversized)) = some worker ∧
    DropsOversized start (encodeSmallFrame 40 (.m2m m2mReturnsOversized)) worker := by
  obtain ⟨encoder, ring, start, worker, hopen, hring, hcreate, hm2m, hrun⟩ :
      ∃ encoder ring start worker, m2mOpen 2 = some encoder ∧ auRingCreate auSlotCapacity 8 = some ring ∧
        encoderWorkerCreate (.m2m encoder) 2 2 ring false = some start ∧ start.backend = .m2m encoder ∧
        exec workerEventStep start (encodeSmallFrame 40 (.m2m m2mReturnsOversized)) = some worker :=
    ⟨_, _, _, _, rfl, rfl, rfl, rfl, rfl⟩
  exact ⟨encoder, ring, start, worker, hopen, hring, hcreate, hrun,
    (dropsOversized_iff hrun).2 ⟨encoder, hm2m⟩⟩

/-- With libx264 the thread stops, and takes no frame any more. -/
theorem not_dropsOversized : ∃ ring start worker,
    auRingCreate auSlotCapacity 8 = some ring ∧
    encoderWorkerCreate .x264 2 2 ring false = some start ∧
    exec workerEventStep start (encodeSmallFrame 40 (.x264 ⟨524289, 1, fun _ ↦ 0, true⟩)) = some worker ∧
    worker.phase = .stopped ∧ (∀ frame active, workerEventStep worker (.take frame active) = none) ∧
    ¬ DropsOversized start (encodeSmallFrame 40 (.x264 ⟨524289, 1, fun _ ↦ 0, true⟩)) worker := by
  refine ⟨_, _, _, rfl, rfl, rfl, rfl, fun _ _ ↦ rfl, fun hdrops ↦ ?_⟩
  have hover : H264Backend.x264.Oversized (.x264 ⟨524289, 1, fun _ ↦ 0, true⟩) :=
    ⟨Int.one_ne_zero, Nat.lt_succ_self 524288⟩
  exact hdrops.goes_on [.take (some (smallFrame 40)) true, .exchange] _ [] _ _ rfl rfl hover rfl rfl

end Camstream
