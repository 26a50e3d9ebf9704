import Mathlib.Data.Int.Notation
import Mathlib.Data.List.Basic
import Mathlib.Logic.Function.Basic

/-!
# The V4L2 memory-to-memory encoder

`src/media/encoder_v4l2m2m.c`: one call of `m2m_encode` takes a free input buffer, queues the frame in it
and collects whatever the hardware has finished. What `poll` and `ioctl` return is an input of the call
(`M2mAnswers`), and what the call did to the two queues of the device is part of its result
(`M2mIoctl`), in the order in which it was done.

The pixels are left out: `m2m_fill_input` copies them into the buffer, and nothing here depends on them.
-/

namespace Camstream

/-- `M2M_OUTPUT_BUFFERS` -/
def m2mOutputBuffers : ℕ := 6

/-- `struct M2mBackend`, as far as `m2m_encode` changes it: the stack of free input buffers and the count
of errors. -/
structure M2mBackend where
  outFree : ℕ → ℕ
  outFreeCount : ℕ
  errors : ℤ

/-- `encoder->out_free[i] = i`. The array is followed by `out_free_count`, and that by `cap_bufs`, which
`m2m_open` fills afterwards. -/
def M2mBackend.storeOutFree (encoder : M2mBackend) (i : ℕ) : M2mBackend :=
  if i < m2mOutputBuffers then { encoder with outFree := Function.update encoder.outFree i i }
  else if i = m2mOutputBuffers then { encoder with outFreeCount := i }
  else encoder

/-- `m2m_open`, where the driver grants `outCount` input buffers. -/
def m2mOpen (outCount : ℕ) : Option M2mBackend :=
  if outCount < 2 then none
  else some ((List.range outCount).foldl M2mBackend.storeOutFree ⟨fun _ ↦ 0, outCount, 0⟩)

/-- An encoded buffer: its `bytesused` bytes, and whether it has `V4L2_BUF_FLAG_KEYFRAME`. -/
structure CaptureBuffer where
  bytes : List UInt8
  keyframe : Bool
  deriving DecidableEq, Repr

/-- One turn of the drain loop: the buffer that `VIDIOC_DQBUF` returns, whether `VIDIOC_QBUF` takes it
back, and whether `poll` then reports another. -/
structure DrainTurn where
  buffer : CaptureBuffer
  requeued : Bool
  more : Bool
  deriving DecidableEq, Repr

/-- What the system calls of one `m2m_encode` return. Behind the last turn of `drain` the `VIDIOC_DQBUF`
of the loop fails. -/
structure M2mAnswers where
  pollOut : Bool
  dqbufOut : Option ℕ
  qbufOut : Bool
  pollIn : Bool
  drain : List DrainTurn
  deriving DecidableEq, Repr

/-- A device that takes the frame into a free buffer, has released none, and has nothing ready. -/
def m2mAccepts : M2mAnswers := ⟨false, none, true, false, []⟩

/-- What a call does to the queues of the device. A timestamp has seconds and microseconds. -/
inductive M2mIoctl
  | dqbufOutput (index : ℕ)
  | qbufOutput (index : ℕ) (timestamp : ℕ × ℕ) (keyframe ok : Bool)
  | dqbufCapture (buffer : CaptureBuffer) (copied : Bool)
  deriving DecidableEq, Repr

/-- What an encode call returns: its result, the bytes it has written to `out`, and `*out_is_idr`. -/
structure EncodeOutcome where
  result : ℤ
  out : List UInt8
  isIdr : Bool
  deriving DecidableEq, Repr

/-- `m2m_acquire_input_buffer`: `none` is its result `-1`. -/
def m2mAcquireInputBuffer (encoder : M2mBackend) (answers : M2mAnswers) :
    Option ℕ × M2mBackend × List M2mIoctl :=
  if 0 < encoder.outFreeCount then
    let top := encoder.outFreeCount - 1
    (some (encoder.outFree top), { encoder with outFreeCount := top }, [])
  else if ¬ answers.pollOut then (none, encoder, [])
  else
    match answers.dqbufOut with
    | none => (none, encoder, [])
    | some index => (some index, encoder, [.dqbufOutput index])

/-- What the drain loop has collected so far. -/
structure M2mDrained where
  out : List UInt8
  isIdr : Bool
  ioctls : List M2mIoctl

/-- Collect one encoded buffer: an empty one, and one that does not fit any more, are not copied. -/
def m2mCollect (outCapacity : ℕ) (drained : M2mDrained) (buffer : CaptureBuffer) : M2mDrained :=
  if 0 < buffer.bytes.length ∧ ¬ outCapacity < drained.out.length + buffer.bytes.length then
    { out := drained.out ++ buffer.bytes
      isIdr := drained.isIdr || buffer.keyframe
      ioctls := drained.ioctls ++ [.dqbufCapture buffer true] }
  else { drained with ioctls := drained.ioctls ++ [.dqbufCapture buffer false] }

/-- The drain loop of `m2m_encode`. -/
def m2mDrain (outCapacity : ℕ) : List DrainTurn → M2mDrained → M2mDrained
  | [], drained => drained
  | turn :: turns, drained =>
    let drained := m2mCollect outCapacity drained turn.buffer
    if ¬ turn.requeued then drained
    else if ¬ turn.more then drained
    else m2mDrain outCapacity turns drained

/-- The end of `m2m_encode`: drain encoded data, if there is any. -/
def m2mDrainReady (encoder : M2mBackend) (outCapacity : ℕ) (answers : M2mAnswers)
    (ioctls : List M2mIoctl) : EncodeOutcome × M2mBackend × List M2mIoctl :=
  if ¬ answers.pollIn then (⟨0, [], false⟩, encoder, ioctls)
  else
    let drained := m2mDrain outCapacity answers.drain ⟨[], false, ioctls⟩
    if 0 < drained.out.length then
      (⟨1, drained.out, drained.isIdr⟩, { encoder with errors := 0 }, drained.ioctls)
    else (⟨0, drained.out, drained.isIdr⟩, encoder, drained.ioctls)

/-- `m2m_encode` -/
def m2mEncode (encoder : M2mBackend) (ptsUs : UInt64) (forceIdr : Bool) (outCapacity : ℕ)
    (answers : M2mAnswers) : EncodeOutcome × M2mBackend × List M2mIoctl :=
  if 64 < encoder.errors then (⟨-1, [], false⟩, encoder, [])
  else
    match m2mAcquireInputBuffer encoder answers with
    | (none, encoder, ioctls) => (⟨0, [], false⟩, encoder, ioctls)
    | (some index, encoder, ioctls) =>
      let timestamp := (ptsUs.toNat / 1000000, ptsUs.toNat % 1000000)
      let ioctls := ioctls ++ [.qbufOutput index timestamp forceIdr answers.qbufOut]
      if ¬ answers.qbufOut then
        (⟨0, [], false⟩, { encoder with errors := encoder.errors + 1 }, ioctls)
      else m2mDrainReady encoder outCapacity answers ioctls

/-! ### What a call does -/

variable {encoder encoder' : M2mBackend} {answers : M2mAnswers} {index : ℕ} {ioctls : List M2mIoctl}
  {ptsUs : UInt64} {forceIdr : Bool} {outCapacity : ℕ}

/-- The buffers that the drain loop gets to. -/
def drainedBuffers : List DrainTurn → List CaptureBuffer
  | [] => []
  | turn :: turns => turn.buffer :: if turn.requeued ∧ turn.more then drainedBuffers turns else []

/-- The loop works through the buffers that were ready, one by one. -/
theorem m2mDrain_eq_foldl (turns : List DrainTurn) (drained : M2mDrained) :
    m2mDrain outCapacity turns drained =
      (drainedBuffers turns).foldl (m2mCollect outCapacity) drained := by
  induction turns generalizing drained with
  | nil => rfl
  | cons turn turns ih =>
    rw [m2mDrain, drainedBuffers, List.foldl_cons]
    rcases turn with ⟨buffer, _ | _, _ | _⟩
    · rfl
    · rfl
    · rfl
    · exact ih _

/-- The encoded buffers that a call dequeues, if it gets to the drain loop. -/
def M2mAnswers.encoded (answers : M2mAnswers) : List CaptureBuffer :=
  if answers.pollIn then drainedBuffers answers.drain else []

/-- The timestamp of a buffer that is queued. -/
def m2mTimestamp (ptsUs : UInt64) : ℕ × ℕ :=
  (ptsUs.toNat / 1000000, ptsUs.toNat % 1000000)

theorem m2mDrainReady_eq (encoder : M2mBackend) (answers : M2mAnswers) (ioctls : List M2mIoctl) :
    m2mDrainReady encoder outCapacity answers ioctls =
      let drained := answers.encoded.foldl (m2mCollect outCapacity) ⟨[], false, ioctls⟩
      (⟨if 0 < drained.out.length then 1 else 0, drained.out, drained.isIdr⟩,
        { encoder with errors := if 0 < drained.out.length then 0 else encoder.errors },
        drained.ioctls) := by
  rw [m2mDrainReady, m2mDrain_eq_foldl, M2mAnswers.encoded]
  by_cases hpoll : answers.pollIn
  · rw [if_neg (not_not.2 hpoll), if_pos hpoll]
    dsimp only
    split_ifs <;> rfl
  · rw [if_pos hpoll, if_neg hpoll]
    rfl

/-- Where an input buffer comes from: the stack, or the device; and a failed attempt leaves everything
alone. -/
theorem m2mAcquireInputBuffer_cases (encoder : M2mBackend) (answers : M2mAnswers) :
    m2mAcquireInputBuffer encoder answers = (none, encoder, []) ∨
      (∃ n, encoder.outFreeCount = n + 1 ∧ m2mAcquireInputBuffer encoder answers =
        (some (encoder.outFree n), { encoder with outFreeCount := n }, [])) ∨
      ∃ index, m2mAcquireInputBuffer encoder answers =
        (some index, encoder, [.dqbufOutput index]) := by
  rw [m2mAcquireInputBuffer]
  split_ifs with hfree hpoll
  · obtain ⟨n, hn⟩ := Nat.exists_eq_succ_of_ne_zero (Nat.pos_iff_ne_zero.1 hfree)
    refine .inr (.inl ⟨n, hn, ?_⟩)
    dsimp only
    rw [hn, Nat.succ_eq_add_one, Nat.add_sub_cancel]
  · rcases answers.dqbufOut with - | index
    · exact .inl rfl
    · exact .inr (.inr ⟨index, rfl⟩)
  · exact .inl rfl

/-- **What one call can do**: nothing, because of its errors or for want of an input buffer; or it offers
the frame to the device, which refuses it, or takes it and lets the call collect encoded buffers. -/
theorem m2mEncode_cases (encoder : M2mBackend) (ptsUs : UInt64) (forceIdr : Bool) (outCapacity : ℕ)
    (answers : M2mAnswers) :
    (64 < encoder.errors ∧
        m2mEncode encoder ptsUs forceIdr outCapacity answers = (⟨-1, [], false⟩, encoder, [])) ∨
      ((m2mAcquireInputBuffer encoder answers).1 = none ∧
        m2mEncode encoder ptsUs forceIdr outCapacity answers = (⟨0, [], false⟩, encoder, [])) ∨
      ∃ index encoder' ioctls,
        m2mAcquireInputBuffer encoder answers = (some index, encoder', ioctls) ∧
        (answers.qbufOut = false ∧
            m2mEncode encoder ptsUs forceIdr outCapacity answers =
              (⟨0, [], false⟩, { encoder' with errors := encoder'.errors + 1 },
                ioctls ++ [.qbufOutput index (m2mTimestamp ptsUs) forceIdr false]) ∨
          answers.qbufOut = true ∧
            m2mEncode encoder ptsUs forceIdr outCapacity answers =
              m2mDrainReady encoder' outCapacity answers
                (ioctls ++ [.qbufOutput index (m2mTimestamp ptsUs) forceIdr true])) := by
  by_cases herrors : 64 < encoder.errors
  · exact .inl ⟨herrors, if_pos herrors⟩
  · refine .inr ?_
    rw [m2mEncode, if_neg herrors]
    rcases hacq : m2mAcquireInputBuffer encoder answers with ⟨_ | index, encoder', ioctls⟩
    · have hnone := m2mAcquireInputBuffer_cases encoder answers
      rw [hacq] at hnone
      obtain ⟨rfl, rfl⟩ : encoder' = encoder ∧ ioctls = [] := by
        simpa using hnone
      exact .inl ⟨rfl, rfl⟩
    · refine .inr ⟨index, encoder', ioctls, rfl, ?_⟩
      dsimp only
      rcases answers.qbufOut with - | -
      · exact .inl ⟨rfl, rfl⟩
      · exact .inr ⟨rfl, rfl⟩

/-- Collecting only adds to the list of what was done, and to its capture side. -/
theorem exists_ioctls_foldl_m2mCollect (buffers : List CaptureBuffer) (drained : M2mDrained) :
    ∃ captured : List (CaptureBuffer × Bool),
      (buffers.foldl (m2mCollect outCapacity) drained).ioctls =
        drained.ioctls ++ captured.map fun c ↦ .dqbufCapture c.1 c.2 := by
  induction buffers generalizing drained with
  | nil => exact ⟨[], (List.append_nil _).symm⟩
  | cons buffer buffers ih =>
    obtain ⟨captured, hcaptured⟩ := ih (m2mCollect outCapacity drained buffer)
    rw [List.foldl_cons, hcaptured, m2mCollect]
    split_ifs
    · exact ⟨(buffer, true) :: captured, List.append_assoc _ _ _⟩
    · exact ⟨(buffer, false) :: captured, List.append_assoc _ _ _⟩

end Camstream
