import Mathlib.Data.UInt
import Camstream.Lib.Table

/-!
# The V4L2 capture source

`src/media/v4l2_source.c` keeps the buffers that it has mapped in an array of four, and counts them by what
the driver has granted. What `ioctl`, `mmap` and `poll` return is an input of each function; every access
to the array is checked, and `v4l2Session` is the life of one source: it is created, used by any calls, and
closed.

The name, the picture size, the frame rate and the sequence number are left out: they index nothing.
-/

namespace Camstream

open Table (Fault)

/-- `V4L2_BUFFER_COUNT` -/
def v4l2BufferCount : ℕ := 4

/-- A pointer to mapped memory: `NULL`, `MAP_FAILED`, or the address that `mmap` has returned. -/
inductive Mapping
  | null
  | mapFailed
  | mapped (address : ℕ)
  deriving DecidableEq, Repr

/-- `struct M2mBuffer`, and the members of `buffers` in `struct V4l2Source`. -/
structure MappedBuffer where
  start : Mapping
  length : ℕ
  deriving DecidableEq, Repr

/-- What `mmap` returns. -/
def Mapping.ofMmap : Option ℕ → Mapping
  | none => mapFailed
  | some address => mapped address

/-- `struct V4l2Source` -/
structure V4l2Source where
  streaming : Bool
  buffers : Vector MappedBuffer v4l2BufferCount
  bufferCount : UInt32
  frameSize : ℕ

/-- The zeroed memory of `calloc`. -/
def V4l2Source.zero : V4l2Source := ⟨false, Vector.replicate v4l2BufferCount ⟨.null, 0⟩, 0, 0⟩

/-- What the system calls of `v4l2_source_create` return: the size of a picture, if nothing fails before
the buffers; how many buffers `VIDIOC_REQBUFS` grants; for each of them the length that
`VIDIOC_QUERYBUF` reports, and the address at which it is mapped. -/
structure V4l2CreateAnswers where
  frameSize : Option ℕ
  reqBufs : Option UInt32
  queryBuf : ℕ → Option ℕ
  mmap : ℕ → Option ℕ

/-- A turn of the loop of `v4l2_source_create`: map buffer `i`. -/
def v4l2MapBuffer (answers : V4l2CreateAnswers) (impl : V4l2Source) (i : ℕ) :
    Except (Fault V4l2Source) V4l2Source :=
  match answers.queryBuf i with
  | none => .error (.failed impl)
  | some length => do
    let start := Mapping.ofMmap (answers.mmap i)
    let buffers ← Table.write impl.buffers i ⟨start, length⟩
    let impl := { impl with buffers }
    if start = .mapFailed then .error (.failed impl) else .ok impl

/-- `v4l2_source_create` -/
def v4l2SourceCreate (answers : V4l2CreateAnswers) : Except (Fault V4l2Source) V4l2Source :=
  match answers.frameSize with
  | none => .error (.failed .zero)
  | some frameSize =>
    let impl := { V4l2Source.zero with frameSize }
    match answers.reqBufs with
    | none => .error (.failed impl)
    | some count =>
      if count < 2 then .error (.failed impl)
      else Table.loop count.toNat (v4l2MapBuffer answers) { impl with bufferCount := count }

/-- `v4l2_start`: whether `VIDIOC_QBUF` takes each buffer, and `VIDIOC_STREAMON` succeeds. -/
def v4l2Start (impl : V4l2Source) (qbuf : ℕ → Bool) (streamOn : Bool) : ℤ × V4l2Source :=
  if impl.streaming then (0, impl)
  else if ¬ (List.range impl.bufferCount.toNat).all qbuf then (-1, impl)
  else if ¬ streamOn then (-1, impl)
  else (0, { impl with streaming := true })

/-- What `VIDIOC_DQBUF` fills in. -/
structure V4l2Buffer where
  index : UInt32
  error : Bool
  bytesused : ℕ
  deriving DecidableEq, Repr

/-- What the system calls of `v4l2_capture` return: the result of `poll`, with whether its error is
`EINTR`, and the buffer that is dequeued, with whether the error is `EAGAIN` if there is none. -/
structure V4l2CaptureAnswers where
  poll : ℤ
  interrupted : Bool
  dqbuf : Option V4l2Buffer
  again : Bool
  deriving DecidableEq, Repr

/-- The picture that `v4l2_capture` hands out. -/
structure V4l2Picture where
  data : Mapping
  size : ℕ
  bufferIndex : UInt32
  deriving DecidableEq, Repr

/-- `v4l2_capture`, with the buffer that it gives back to the driver itself, because it is erroneous, empty or
too large. -/
def v4l2Capture (impl : V4l2Source) (answers : V4l2CaptureAnswers) :
    Except (Fault V4l2Source) (ℤ × Option V4l2Picture × Option UInt32) :=
  if answers.poll < 0 then .ok (if answers.interrupted then 0 else -1, none, none)
  else if answers.poll = 0 then .ok (0, none, none)
  else
    match answers.dqbuf with
    | none => .ok (if answers.again then 0 else -1, none, none)
    | some buffer =>
      if impl.bufferCount ≤ buffer.index then .ok (-1, none, none)
      else if buffer.error then .ok (0, none, some buffer.index)
      else if buffer.bytesused = 0 ∨ impl.frameSize < buffer.bytesused then .ok (0, none, some buffer.index)
      else do
        let slot ← Table.read impl.buffers buffer.index.toNat
        .ok (1, some ⟨slot.start, buffer.bytesused, buffer.index⟩, none)

/-- `v4l2_release`, with the buffer that it gives back to the driver. -/
def v4l2Release (impl : V4l2Source) (bufferIndex : UInt32) : Option UInt32 × V4l2Source :=
  if impl.bufferCount ≤ bufferIndex then (none, impl) else (some bufferIndex, impl)

/-- `v4l2_close`, with the buffers that it unmaps. -/
def v4l2Close (impl : V4l2Source) : Except (Fault V4l2Source) (List MappedBuffer) :=
  Table.loop impl.bufferCount.toNat
    (fun unmapped i ↦ do
      let slot ← Table.read impl.buffers i
      .ok (if slot.start ≠ .null ∧ slot.start ≠ .mapFailed then unmapped ++ [slot] else unmapped)) []

/-- A call on a source that has been created. -/
inductive V4l2Call
  | start (qbuf : ℕ → Bool) (streamOn : Bool)
  | capture (answers : V4l2CaptureAnswers)
  | release (bufferIndex : UInt32)

def v4l2Step (impl : V4l2Source) : V4l2Call → Except (Fault V4l2Source) V4l2Source
  | .start qbuf streamOn => .ok (v4l2Start impl qbuf streamOn).2
  | .capture answers => do
    let _ ← v4l2Capture impl answers
    .ok impl
  | .release bufferIndex => .ok (v4l2Release impl bufferIndex).2

/-- The life of a source. -/
def v4l2Session (answers : V4l2CreateAnswers) (calls : List V4l2Call) :
    Except (Fault V4l2Source) (List MappedBuffer) := do
  let impl ← v4l2SourceCreate answers
  let impl ← calls.foldlM v4l2Step impl
  v4l2Close impl

/-! ### What stays inside the array -/

/-- No more buffers are counted than the array has. -/
def V4l2Source.Inside (impl : V4l2Source) : Prop :=
  impl.bufferCount.toNat ≤ v4l2BufferCount

namespace V4l2CreateAnswers

variable (answers : V4l2CreateAnswers)

/-- Buffer `i` is mapped. -/
def Maps (i : ℕ) : Prop := (answers.queryBuf i).isSome ∧ (answers.mmap i).isSome

/-- **The driver grants more buffers than the array has**, and nothing fails before the first that is too
many. -/
def Overruns : Prop :=
  answers.frameSize.isSome ∧ ∃ count, answers.reqBufs = some count ∧ v4l2BufferCount < count.toNat ∧
    (∀ i < v4l2BufferCount, answers.Maps i) ∧ (answers.queryBuf v4l2BufferCount).isSome

end V4l2CreateAnswers

variable {answers : V4l2CreateAnswers} {impl impl' : V4l2Source}

/-- Mapping a buffer gets to the array when the driver knows the buffer. -/
theorem fills_v4l2MapBuffer (answers : V4l2CreateAnswers) (count : UInt32) :
    Table.Fills v4l2BufferCount (v4l2MapBuffer answers) (fun impl ↦ impl.bufferCount = count)
      (fun i ↦ (answers.queryBuf i).isSome) answers.Maps := by
  intro impl i himpl
  rw [v4l2MapBuffer, V4l2CreateAnswers.Maps]
  dsimp only
  rcases answers.queryBuf i with - | length
  · exact .failed impl (fun h ↦ Bool.false_ne_true h.1) fun h ↦ (Bool.false_ne_true h).elim
  refine .of_write rfl fun hlt ↦ ?_
  rcases answers.mmap i with - | address
  · exact .failed _ (fun h ↦ Bool.false_ne_true h.2) fun _ ↦ hlt
  · exact .filled _ ⟨rfl, rfl⟩ hlt himpl

theorem v4l2SourceCreate_cases (answers : V4l2CreateAnswers) :
    (∃ impl, v4l2SourceCreate answers = .error (.failed impl) ∧ ¬ answers.Overruns) ∨
      ∃ frameSize count, answers.frameSize = some frameSize ∧ answers.reqBufs = some count ∧
        v4l2SourceCreate answers = Table.loop count.toNat (v4l2MapBuffer answers)
          { V4l2Source.zero with frameSize, bufferCount := count } := by
  rw [v4l2SourceCreate, V4l2CreateAnswers.Overruns]
  rcases hsize : answers.frameSize with - | frameSize
  · exact .inl ⟨_, rfl, fun h ↦ Bool.false_ne_true h.1⟩
  · dsimp only
    rcases hcount : answers.reqBufs with - | count
    · exact .inl ⟨_, rfl, fun ⟨_, _, h, _⟩ ↦ nomatch h⟩
    · dsimp only
      split_ifs with hfew
      · refine .inl ⟨_, rfl, ?_⟩
        rintro ⟨-, count', hcount', hmany, -⟩
        obtain rfl := Option.some.inj hcount'
        have hlt : count.toNat < 2 := UInt32.lt_iff_toNat_lt.1 hfew
        exact absurd (hmany.trans hlt) (by decide)
      · exact .inr ⟨frameSize, count, rfl, rfl, rfl⟩

/-- A source that was created is inside its table. -/
theorem inside_of_v4l2SourceCreate (h : v4l2SourceCreate answers = .ok impl) : impl.Inside := by
  rcases v4l2SourceCreate_cases answers with ⟨impl', hfail, -⟩ | ⟨frameSize, count, -, -, heq⟩
  · rw [hfail] at h
    exact nomatch h
  · rw [heq] at h
    have hfills := fills_v4l2MapBuffer answers count
    rw [V4l2Source.Inside, hfills.loop_keeps rfl h]
    exact ((hfills.loop_ok_iff rfl).1 ⟨impl, h⟩).1

/-- The loop leaves the table on the answers that overrun it, and on no others. -/
theorem v4l2SourceCreate_outside_iff :
    v4l2SourceCreate answers = .error .outside ↔ answers.Overruns := by
  rcases v4l2SourceCreate_cases answers with ⟨impl', hfail, hnot⟩ | ⟨frameSize, count, hsize, hcount, heq⟩
  · rw [hfail]
    exact iff_of_false (fun h ↦ nomatch h) hnot
  · rw [heq, (fills_v4l2MapBuffer answers count).loop_outside_iff rfl, V4l2CreateAnswers.Overruns, hsize,
      hcount]
    constructor
    · exact fun h ↦ ⟨rfl, count, rfl, h⟩
    · rintro ⟨-, count', hcount', h⟩
      exact Option.some.inj hcount' ▸ h

/-- No buffer that the driver names is looked up outside the table. -/
theorem exists_v4l2Capture (h : impl.Inside) (answers : V4l2CaptureAnswers) :
    ∃ r, v4l2Capture impl answers = .ok r := by
  rw [v4l2Capture]
  rcases answers.dqbuf with - | buffer
  · dsimp only
    split_ifs <;> exact ⟨_, rfl⟩
  · dsimp only
    split_ifs with _ _ _ hcount
    all_goals try exact ⟨_, rfl⟩
    have hlt : buffer.index.toNat < v4l2BufferCount :=
      (UInt32.lt_iff_toNat_lt.1 (UInt32.not_le.1 hcount)).trans_le h
    rw [Table.read_of_lt _ hlt]
    exact ⟨_, rfl⟩

/-- **No call leaves the array**, or changes how many buffers are counted. -/
theorem exists_v4l2Step (impl : V4l2Source) (call : V4l2Call) (h : impl.Inside) :
    ∃ impl', v4l2Step impl call = .ok impl' ∧ impl'.Inside := by
  rcases call with ⟨qbuf, streamOn⟩ | answers | bufferIndex
  · refine ⟨_, rfl, ?_⟩
    rw [v4l2Start]
    split_ifs <;> exact h
  · obtain ⟨r, hr⟩ := exists_v4l2Capture h answers
    exact ⟨impl, Table.bind_eq_ok_iff.2 ⟨r, hr, rfl⟩, h⟩
  · refine ⟨_, rfl, ?_⟩
    rw [v4l2Release]
    split_ifs <;> exact h

/-- Closing unmaps the entries of the table and no more. -/
theorem exists_v4l2Close (h : impl.Inside) : ∃ unmapped, v4l2Close impl = .ok unmapped := by
  refine Table.exists_loop (fun i hi unmapped ↦ ?_) []
  rw [Table.read_of_lt _ (hi.trans_le h)]
  exact ⟨_, rfl⟩

/-- **When the life of a source leaves the array**: when `v4l2_source_create` does. -/
theorem v4l2Session_outside_iff (answers : V4l2CreateAnswers) (calls : List V4l2Call) :
    v4l2Session answers calls = .error .outside ↔ answers.Overruns := by
  rw [← v4l2SourceCreate_outside_iff, v4l2Session, Table.bind_eq_error_iff, or_iff_left]
  rintro ⟨impl, hcreate, h⟩
  obtain ⟨impl', hrun, hinside⟩ :=
    Table.exists_foldlM exists_v4l2Step calls (inside_of_v4l2SourceCreate hcreate)
  obtain ⟨unmapped, hclose⟩ := exists_v4l2Close hinside
  rw [Table.bind_eq_ok_iff.2 ⟨impl', hrun, hclose⟩] at h
  exact nomatch h

end Camstream
