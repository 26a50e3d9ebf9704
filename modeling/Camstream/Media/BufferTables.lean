import Mathlib.Data.UInt
import Camstream.Media.EncoderM2m
import Camstream.Media.V4l2Source

/-!
# The buffer tables of the hardware encoder

`m2m_open` maps whatever number of buffers the driver grants into arrays of six, and `m2m_encode` uses them
with the indices that come off the stack and out of the two queues of the device. Here every access to an
array is checked, and the tables stand together with what the driver holds of its queues: it returns a
buffer that was queued before, as `VIDIOC_DQBUF` is documented, and which one of them is an input.

An index leaves an array only while the device is opened (`m2mSession_outside_iff`). The calls that follow
keep to the indices that were stored (`M2mTables.Inside`).
-/

namespace Camstream

open Table (Fault)

/-- `M2M_CAPTURE_BUFFERS` -/
def m2mCaptureBuffers : ℕ := 6

/-- `struct M2mBackend`, as far as buffers are concerned, and the buffers that the driver holds. -/
structure M2mTables where
  multiplanar : Bool
  outBufs : Vector MappedBuffer m2mOutputBuffers
  outBufsUv : Vector MappedBuffer m2mOutputBuffers
  outFree : Vector ℕ m2mOutputBuffers
  outFreeCount : ℤ
  capBufs : Vector MappedBuffer m2mCaptureBuffers
  errors : ℤ
  outQueued : List ℕ
  capQueued : List ℕ

/-- The zeroed memory of `calloc`, and a device that holds nothing. -/
def M2mTables.zero : M2mTables where
  multiplanar := false
  outBufs := Vector.replicate m2mOutputBuffers ⟨.null, 0⟩
  outBufsUv := Vector.replicate m2mOutputBuffers ⟨.null, 0⟩
  outFree := Vector.replicate m2mOutputBuffers 0
  outFreeCount := 0
  capBufs := Vector.replicate m2mCaptureBuffers ⟨.null, 0⟩
  errors := 0
  outQueued := []
  capQueued := []

/-- What the system calls of `m2m_open` return: whether the input format is one with two planes, if
nothing fails before the buffers; and for either queue how many buffers are granted, and what becomes of
each of them. -/
structure M2mOpenAnswers where
  multiplanar : Option Bool
  outReqBufs : Option UInt32
  outQuery : ℕ → Option (ℕ × ℕ)
  outMmap : ℕ → Option ℕ
  outMmapUv : ℕ → Option ℕ
  capReqBufs : Option UInt32
  capQuery : ℕ → Option ℕ
  capMmap : ℕ → Option ℕ
  capQbuf : ℕ → Bool
  streamOn : Bool

/-- `(int) request.count` -/
def requestCount (count : UInt32) : ℤ := count.toInt32.toInt

/-- A turn of the first loop of `m2m_open`: map input buffer `i`. -/
def m2mMapOutput (answers : M2mOpenAnswers) (tables : M2mTables) (i : ℕ) :
    Except (Fault M2mTables) M2mTables :=
  match answers.outQuery i with
  | none => .error (.failed tables)
  | some (length, lengthUv) => do
    let start := Mapping.ofMmap (answers.outMmap i)
    let outBufs ← Table.write tables.outBufs i ⟨start, length⟩
    let tables := { tables with outBufs }
    if start = .mapFailed then .error (.failed tables)
    else if ¬ tables.multiplanar then .ok tables
    else
      let startUv := Mapping.ofMmap (answers.outMmapUv i)
      let outBufsUv ← Table.write tables.outBufsUv i ⟨startUv, lengthUv⟩
      let tables := { tables with outBufsUv }
      if startUv = .mapFailed then .error (.failed tables) else .ok tables

/-- A turn of the second loop: `encoder->out_free[i] = i`. -/
def m2mStoreFree (tables : M2mTables) (i : ℕ) : Except (Fault M2mTables) M2mTables := do
  let outFree ← Table.write tables.outFree i i
  .ok { tables with outFree }

/-- A turn of the third loop: map encoded buffer `i`, and queue it. -/
def m2mMapCapture (answers : M2mOpenAnswers) (tables : M2mTables) (i : ℕ) :
    Except (Fault M2mTables) M2mTables :=
  match answers.capQuery i with
  | none => .error (.failed tables)
  | some length => do
    let start := Mapping.ofMmap (answers.capMmap i)
    let capBufs ← Table.write tables.capBufs i ⟨start, length⟩
    let tables := { tables with capBufs }
    if start = .mapFailed then .error (.failed tables)
    else if ¬ answers.capQbuf i then .error (.failed tables)
    else .ok { tables with capQueued := tables.capQueued ++ [i] }

/-- `m2m_open`, from the encoded output buffers on. -/
def m2mOpenCapture (answers : M2mOpenAnswers) (tables : M2mTables) :
    Except (Fault M2mTables) M2mTables :=
  match answers.capReqBufs with
  | none => .error (.failed tables)
  | some request =>
    if request < 2 then .error (.failed tables)
    else do
      let tables ← Table.loop (requestCount request).toNat (m2mMapCapture answers) tables
      if answers.streamOn then .ok tables else .error (.failed tables)

/-- `m2m_open`, up to `fail`. -/
def m2mOpenTables (answers : M2mOpenAnswers) : Except (Fault M2mTables) M2mTables :=
  match answers.multiplanar with
  | none => .error (.failed .zero)
  | some multiplanar =>
    let tables := { M2mTables.zero with multiplanar }
    match answers.outReqBufs with
    | none => .error (.failed tables)
    | some request =>
      if request < 2 then .error (.failed tables)
      else do
        let outCount := requestCount request
        let tables ← Table.loop outCount.toNat (m2mMapOutput answers) tables
        let tables := { tables with outFreeCount := outCount }
        let tables ← Table.loop outCount.toNat m2mStoreFree tables
        m2mOpenCapture answers tables

/-- `m2m_unmap` -/
def m2mUnmap {n : ℕ} (bufs : Vector MappedBuffer n) (count : ℕ) :
    Except (Fault M2mTables) (Vector MappedBuffer n) :=
  Table.loop count
    (fun bufs i ↦ do
      let slot ← Table.read bufs i
      if slot.start ≠ .null ∧ slot.start ≠ .mapFailed then
        Table.write bufs i { slot with start := .null }
      else .ok bufs) bufs

/-- The three calls of `m2m_unmap` in `m2m_close`, and behind `fail` in `m2m_open`. -/
def m2mClose (tables : M2mTables) : Except (Fault M2mTables) M2mTables := do
  let outBufs ← m2mUnmap tables.outBufs m2mOutputBuffers
  let outBufsUv ← m2mUnmap tables.outBufsUv m2mOutputBuffers
  let capBufs ← m2mUnmap tables.capBufs m2mCaptureBuffers
  .ok { tables with outBufs, outBufsUv, capBufs }

/-- `m2m_open` -/
def m2mOpenChecked (answers : M2mOpenAnswers) : Except (Fault M2mTables) M2mTables :=
  match m2mOpenTables answers with
  | .error (.failed tables) => do
    let tables ← m2mClose tables
    .error (.failed tables)
  | result => result

/-- What the system calls of one `m2m_encode` return. A buffer that is dequeued is given by its position
among those that the driver holds. -/
structure M2mQueueAnswers where
  pollOut : Bool
  dqbufOut : Option ℕ
  qbufOut : Bool
  pollIn : Bool
  drain : List (ℕ × DrainTurn)
  deriving DecidableEq, Repr

/-- `m2m_acquire_input_buffer`: `none` is its result `-1`. -/
def m2mAcquireInputBufferChecked (tables : M2mTables) (answers : M2mQueueAnswers) :
    Except (Fault M2mTables) (Option ℕ × M2mTables × List M2mIoctl) :=
  if 0 < tables.outFreeCount then do
    let top := tables.outFreeCount - 1
    let index ← Table.read tables.outFree top.toNat
    .ok (some index, { tables with outFreeCount := top }, [])
  else if ¬ answers.pollOut then .ok (none, tables, [])
  else
    match answers.dqbufOut with
    | none => .ok (none, tables, [])
    | some position =>
      match tables.outQueued[position]? with
      | none => .ok (none, tables, [])
      | some index =>
        .ok (some index, { tables with outQueued := tables.outQueued.eraseIdx position },
          [.dqbufOutput index])

/-- The arguments of `m2m_fill_input`: the memory of one buffer, and of its second plane. -/
def m2mInputPlanes (tables : M2mTables) (index : ℕ) :
    Except (Fault M2mTables) (MappedBuffer × Option MappedBuffer) := do
  let slot ← Table.read tables.outBufs index
  if tables.multiplanar then
    let slotUv ← Table.read tables.outBufsUv index
    .ok (slot, some slotUv)
  else .ok (slot, none)

/-- The source of the `memcpy` in the drain loop, if the encoded buffer is copied. -/
def m2mCopySource (outCapacity : ℕ) (drained : M2mDrained) (buffer : CaptureBuffer) (tables : M2mTables)
    (capIndex : ℕ) : Except (Fault M2mTables) (Option MappedBuffer) :=
  if 0 < buffer.bytes.length ∧ ¬ outCapacity < drained.out.length + buffer.bytes.length then do
    let slot ← Table.read tables.capBufs capIndex
    .ok (some slot)
  else .ok none

/-- The drain loop of `m2m_encode`. Where the driver holds no buffer at a position, `VIDIOC_DQBUF` fails. -/
def m2mDrainChecked (outCapacity : ℕ) :
    List (ℕ × DrainTurn) → M2mDrained → M2mTables → Except (Fault M2mTables) (M2mDrained × M2mTables)
  | [], drained, tables => .ok (drained, tables)
  | (position, turn) :: turns, drained, tables =>
    match tables.capQueued[position]? with
    | none => .ok (drained, tables)
    | some capIndex => do
      let tables := { tables with capQueued := tables.capQueued.eraseIdx position }
      let _ ← m2mCopySource outCapacity drained turn.buffer tables capIndex
      let drained := m2mCollect outCapacity drained turn.buffer
      if ¬ turn.requeued then .ok (drained, tables)
      else
        let tables := { tables with capQueued := tables.capQueued ++ [capIndex] }
        if ¬ turn.more then .ok (drained, tables)
        else m2mDrainChecked outCapacity turns drained tables

/-- The end of `m2m_encode`: drain encoded data, if there is any. -/
def m2mDrainReadyChecked (tables : M2mTables) (outCapacity : ℕ) (answers : M2mQueueAnswers)
    (ioctls : List M2mIoctl) : Except (Fault M2mTables) (EncodeOutcome × M2mTables × List M2mIoctl) :=
  if ¬ answers.pollIn then .ok (⟨0, [], false⟩, tables, ioctls)
  else do
    let (drained, tables) ← m2mDrainChecked outCapacity answers.drain ⟨[], false, ioctls⟩ tables
    if 0 < drained.out.length then
      .ok (⟨1, drained.out, drained.isIdr⟩, { tables with errors := 0 }, drained.ioctls)
    else .ok (⟨0, drained.out, drained.isIdr⟩, tables, drained.ioctls)

/-- `m2m_encode` -/
def m2mEncodeChecked (tables : M2mTables) (ptsUs : UInt64) (forceIdr : Bool) (outCapacity : ℕ)
    (answers : M2mQueueAnswers) : Except (Fault M2mTables) (EncodeOutcome × M2mTables × List M2mIoctl) :=
  if 64 < tables.errors then .ok (⟨-1, [], false⟩, tables, [])
  else do
    let (index, tables, ioctls) ← m2mAcquireInputBufferChecked tables answers
    match index with
    | none => .ok (⟨0, [], false⟩, tables, ioctls)
    | some index =>
      let _ ← m2mInputPlanes tables index
      let ioctls := ioctls ++ [.qbufOutput index (m2mTimestamp ptsUs) forceIdr answers.qbufOut]
      if ¬ answers.qbufOut then
        .ok (⟨0, [], false⟩, { tables with errors := tables.errors + 1 }, ioctls)
      else
        let tables := { tables with outQueued := tables.outQueued ++ [index] }
        m2mDrainReadyChecked tables outCapacity answers ioctls

/-- A call of `m2m_encode`, with what the system answers. -/
structure M2mQueueCall where
  ptsUs : UInt64
  forceIdr : Bool
  outCapacity : ℕ
  answers : M2mQueueAnswers
  deriving DecidableEq, Repr

def m2mQueueStep (tables : M2mTables) (call : M2mQueueCall) : Except (Fault M2mTables) M2mTables := do
  let (_, tables, _) ←
    m2mEncodeChecked tables call.ptsUs call.forceIdr call.outCapacity call.answers
  .ok tables

/-- The life of an encoder: it is opened, encodes any frames, and is closed. -/
def m2mSession (answers : M2mOpenAnswers) (calls : List M2mQueueCall) :
    Except (Fault M2mTables) M2mTables := do
  let tables ← m2mOpenChecked answers
  let tables ← calls.foldlM m2mQueueStep tables
  m2mClose tables

/-! ### What stays inside the arrays -/

/-- Every index that is stored, in the tables and in the device, is one of the arrays that it is for. -/
structure M2mTables.Inside (tables : M2mTables) : Prop where
  outFreeCount : tables.outFreeCount ≤ m2mOutputBuffers
  outFree : ∀ i (h : i < m2mOutputBuffers), tables.outFree[i] < m2mOutputBuffers
  outQueued : ∀ index ∈ tables.outQueued, index < m2mOutputBuffers
  capQueued : ∀ index ∈ tables.capQueued, index < m2mCaptureBuffers

namespace M2mOpenAnswers

variable (answers : M2mOpenAnswers)

/-- Input buffer `i` is mapped, with its second plane if there is one. -/
def MapsOut (multiplanar : Bool) (i : ℕ) : Prop :=
  (answers.outQuery i).isSome ∧ (answers.outMmap i).isSome ∧
    (multiplanar → (answers.outMmapUv i).isSome)

/-- Encoded buffer `i` is mapped and queued. -/
def MapsCap (i : ℕ) : Prop :=
  (answers.capQuery i).isSome ∧ (answers.capMmap i).isSome ∧ answers.capQbuf i

/-- The driver grants more encoded buffers than the array has, and nothing fails before the first that is
too many. -/
def OverrunsCap : Prop :=
  ∃ request, answers.capReqBufs = some request ∧ ¬ request < 2 ∧
    m2mCaptureBuffers < (requestCount request).toNat ∧ (∀ i < m2mCaptureBuffers, answers.MapsCap i) ∧
    (answers.capQuery m2mCaptureBuffers).isSome

/-- **The driver grants more buffers than an array has**, for the input or, when the input buffers are all
mapped, for the encoded output. -/
def Overruns : Prop :=
  ∃ multiplanar request, answers.multiplanar = some multiplanar ∧ answers.outReqBufs = some request ∧
    ¬ request < 2 ∧
    (m2mOutputBuffers < (requestCount request).toNat ∧
        (∀ i < m2mOutputBuffers, answers.MapsOut multiplanar i) ∧
        (answers.outQuery m2mOutputBuffers).isSome ∨
      ((requestCount request).toNat ≤ m2mOutputBuffers ∧
        ∀ i < (requestCount request).toNat, answers.MapsOut multiplanar i) ∧ answers.OverrunsCap)

end M2mOpenAnswers

variable {answers : M2mOpenAnswers} {tables tables' : M2mTables} {n count : ℕ}

theorem inside_zero (multiplanar : Bool) : M2mTables.Inside { M2mTables.zero with multiplanar } where
  outFreeCount := Int.natCast_nonneg m2mOutputBuffers
  outFree i h := by
    rw [M2mTables.zero, Vector.getElem_replicate]
    exact Nat.zero_lt_of_lt h
  outQueued _ h := absurd h List.not_mem_nil
  capQueued _ h := absurd h List.not_mem_nil

theorem mem_append_singleton {queued : List ℕ} {index : ℕ} (h : ∀ j ∈ queued, j < count)
    (hindex : index < count) : ∀ j ∈ queued ++ [index], j < count := by
  intro j hj
  rcases List.mem_append.1 hj with hold | hnew
  · exact h j hold
  · exact List.mem_singleton.1 hnew ▸ hindex

/-- The first loop fills `out_bufs`. -/
theorem fills_m2mMapOutput (answers : M2mOpenAnswers) (multiplanar : Bool) :
    Table.Fills m2mOutputBuffers (m2mMapOutput answers)
      (fun tables ↦ tables.multiplanar = multiplanar ∧ tables.Inside)
      (fun i ↦ (answers.outQuery i).isSome) (answers.MapsOut multiplanar) := by
  rintro tables i ⟨rfl, hinside⟩
  rw [m2mMapOutput, M2mOpenAnswers.MapsOut]
  dsimp only
  rcases answers.outQuery i with - | ⟨length, lengthUv⟩
  · exact .failed tables (fun h ↦ Bool.false_ne_true h.1) fun h ↦ (Bool.false_ne_true h).elim
  refine .of_write rfl fun hlt ↦ ?_
  rcases answers.outMmap i with - | address
  · exact .failed _ (fun h ↦ Bool.false_ne_true h.2.1) fun _ ↦ hlt
  rcases tables with ⟨_ | _, outBufs, outBufsUv, outFree, outFreeCount, capBufs, errors, out, cap⟩
  · refine .filled _ ⟨rfl, rfl, fun h ↦ (Bool.false_ne_true h).elim⟩ hlt ⟨rfl, ?_⟩
    exact ⟨hinside.1, hinside.2, hinside.3, hinside.4⟩
  · refine .of_write rfl fun hlt ↦ ?_
    rcases answers.outMmapUv i with - | addressUv
    · exact .failed _ (fun h ↦ Bool.false_ne_true (h.2.2 rfl)) fun _ ↦ hlt
    · refine .filled _ ⟨rfl, rfl, fun _ ↦ rfl⟩ hlt ⟨rfl, ?_⟩
      exact ⟨hinside.1, hinside.2, hinside.3, hinside.4⟩

/-- The second puts all buffers on the free list. -/
theorem fills_m2mStoreFree :
    Table.Fills m2mOutputBuffers m2mStoreFree M2mTables.Inside (fun _ ↦ True) (fun _ ↦ True) := by
  intro tables i hinside
  rw [m2mStoreFree]
  refine .of_write trivial fun hlt ↦ ?_
  refine .filled _ trivial hlt ⟨hinside.1, fun j hj ↦ ?_, hinside.3, hinside.4⟩
  dsimp only
  rw [Vector.getElem_set]
  split_ifs
  · exact hlt
  · exact hinside.outFree j hj

/-- The third fills `cap_bufs`. -/
theorem fills_m2mMapCapture (answers : M2mOpenAnswers) :
    Table.Fills m2mCaptureBuffers (m2mMapCapture answers) M2mTables.Inside
      (fun i ↦ (answers.capQuery i).isSome) answers.MapsCap := by
  intro tables i hinside
  rw [m2mMapCapture, M2mOpenAnswers.MapsCap]
  dsimp only
  rcases answers.capQuery i with - | length
  · exact .failed tables (fun h ↦ Bool.false_ne_true h.1) fun h ↦ (Bool.false_ne_true h).elim
  refine .of_write rfl fun hlt ↦ ?_
  rcases answers.capMmap i with - | address
  · exact .failed _ (fun h ↦ Bool.false_ne_true h.2.1) fun _ ↦ hlt
  rcases answers.capQbuf i with - | -
  · exact .failed _ (fun h ↦ Bool.false_ne_true h.2.2) fun _ ↦ hlt
  · refine .filled _ ⟨rfl, rfl, rfl⟩ hlt ⟨hinside.1, hinside.2, hinside.3, ?_⟩
    exact mem_append_singleton hinside.capQueued hlt

/-! ### Opening -/

theorem m2mOpenCapture_cases (answers : M2mOpenAnswers) (tables : M2mTables) :
    (∃ t, m2mOpenCapture answers tables = .error (.failed t) ∧ ¬ answers.OverrunsCap) ∨
      ∃ request, answers.capReqBufs = some request ∧ ¬ request < 2 ∧
        m2mOpenCapture answers tables =
          Table.loop (requestCount request).toNat (m2mMapCapture answers) tables >>= fun tables ↦
            if answers.streamOn then .ok tables else .error (.failed tables) := by
  rw [m2mOpenCapture, M2mOpenAnswers.OverrunsCap]
  rcases answers.capReqBufs with - | request
  · exact .inl ⟨tables, rfl, fun ⟨_, h, _⟩ ↦ nomatch h⟩
  · dsimp only
    rcases Decidable.em (request < 2) with hfew | hfew
    · rw [if_pos hfew]
      refine .inl ⟨tables, rfl, ?_⟩
      rintro ⟨request', hrequest, hmany, -⟩
      exact hmany (Option.some.inj hrequest ▸ hfew)
    · rw [if_neg hfew]
      exact .inr ⟨request, rfl, hfew, rfl⟩

/-- The encoded half leaves its array on the answers that overrun it, and on no others. -/
theorem m2mOpenCapture_outside_iff (h : tables.Inside) :
    m2mOpenCapture answers tables = .error .outside ↔ answers.OverrunsCap := by
  rcases m2mOpenCapture_cases answers tables with ⟨t, hfail, hnot⟩ | ⟨request, hrequest, hfew, heq⟩
  · rw [hfail]
    exact iff_of_false (fun h ↦ nomatch h) hnot
  · rw [heq, Table.bind_eq_error_iff, or_iff_left,
      (fills_m2mMapCapture answers).loop_outside_iff h, M2mOpenAnswers.OverrunsCap, hrequest]
    · constructor
      · exact fun h ↦ ⟨request, rfl, hfew, h⟩
      · rintro ⟨request', hrequest', -, h⟩
        exact Option.some.inj hrequest' ▸ h
    · rintro ⟨t, -, h⟩
      split at h <;> exact nomatch h

theorem inside_of_m2mOpenCapture (h : tables.Inside) (hopen : m2mOpenCapture answers tables = .ok tables') :
    tables'.Inside := by
  rcases m2mOpenCapture_cases answers tables with ⟨t, hfail, -⟩ | ⟨request, -, -, heq⟩
  · rw [hfail] at hopen
    exact nomatch hopen
  · rw [heq] at hopen
    obtain ⟨t, hloop, ht⟩ := Table.bind_eq_ok_iff.1 hopen
    have hinside : t.Inside := (fills_m2mMapCapture answers).loop_keeps h hloop
    split at ht
    · exact Except.ok.inj ht ▸ hinside
    · exact nomatch ht

/-- Once the input buffers are mapped, the stack has room for their indices. -/
theorem exists_loop_m2mStoreFree {outCount : ℤ} (h : tables.Inside)
    (hcount : outCount.toNat ≤ m2mOutputBuffers) :
    ∃ t, Table.loop outCount.toNat m2mStoreFree { tables with outFreeCount := outCount } = .ok t ∧
      t.Inside := by
  have hinside : M2mTables.Inside { tables with outFreeCount := outCount } :=
    ⟨(Int.self_le_toNat outCount).trans (Int.ofNat_le.2 hcount), h.2, h.3, h.4⟩
  obtain ⟨t, hloop⟩ := (fills_m2mStoreFree.loop_ok_iff hinside).2 ⟨hcount, fun _ _ ↦ trivial⟩
  exact ⟨t, hloop, fills_m2mStoreFree.loop_keeps hinside hloop⟩

/-- The free list has a place for every buffer. -/
theorem storeFree_outside_iff {outCount : ℤ} (h : tables.Inside)
    (hcount : outCount.toNat ≤ m2mOutputBuffers) :
    Table.loop outCount.toNat m2mStoreFree { tables with outFreeCount := outCount } >>=
        m2mOpenCapture answers = .error .outside ↔ answers.OverrunsCap := by
  obtain ⟨t, hloop, hinside⟩ := exists_loop_m2mStoreFree h hcount
  rw [hloop]
  exact m2mOpenCapture_outside_iff hinside

theorem m2mOpenTables_cases (answers : M2mOpenAnswers) :
    (∃ t, m2mOpenTables answers = .error (.failed t) ∧ ¬ answers.Overruns) ∨
      ∃ multiplanar request, answers.multiplanar = some multiplanar ∧
        answers.outReqBufs = some request ∧ ¬ request < 2 ∧
        m2mOpenTables answers =
          Table.loop (requestCount request).toNat (m2mMapOutput answers)
            { M2mTables.zero with multiplanar } >>= fun tables ↦
          Table.loop (requestCount request).toNat m2mStoreFree
            { tables with outFreeCount := requestCount request } >>= m2mOpenCapture answers := by
  rw [m2mOpenTables, M2mOpenAnswers.Overruns]
  rcases answers.multiplanar with - | multiplanar
  · exact .inl ⟨.zero, rfl, fun ⟨_, _, h, _⟩ ↦ nomatch h⟩
  · dsimp only
    rcases answers.outReqBufs with - | request
    · exact .inl ⟨_, rfl, fun ⟨_, _, _, h, _⟩ ↦ nomatch h⟩
    · dsimp only
      split_ifs with hfew
      · refine .inl ⟨_, rfl, ?_⟩
        rintro ⟨-, request', -, hrequest, hmany, -⟩
        exact hmany (Option.some.inj hrequest ▸ hfew)
      · exact .inr ⟨multiplanar, request, rfl, rfl, hfew, rfl⟩

/-- **When opening leaves an array**: in the loop over the input buffers, or in the one over the encoded
buffers. -/
theorem m2mOpenTables_outside_iff : m2mOpenTables answers = .error .outside ↔ answers.Overruns := by
  rcases m2mOpenTables_cases answers with
    ⟨t, hfail, hnot⟩ | ⟨multiplanar, request, hplanar, hrequest, hfew, heq⟩
  · rw [hfail]
    exact iff_of_false (fun h ↦ nomatch h) hnot
  · have hfills := fills_m2mMapOutput answers multiplanar
    have hzero := inside_zero multiplanar
    rw [heq, Table.bind_eq_error_iff, hfills.loop_outside_iff ⟨rfl, hzero⟩, M2mOpenAnswers.Overruns, hplanar,
      hrequest]
    have hrest : (∃ t, Table.loop (requestCount request).toNat (m2mMapOutput answers)
          { M2mTables.zero with multiplanar } = .ok t ∧
        (Table.loop (requestCount request).toNat m2mStoreFree
          { t with outFreeCount := requestCount request } >>= m2mOpenCapture answers) =
            .error .outside) ↔
        ((requestCount request).toNat ≤ m2mOutputBuffers ∧
          ∀ i < (requestCount request).toNat, answers.MapsOut multiplanar i) ∧ answers.OverrunsCap := by
      rw [← hfills.loop_ok_iff ⟨rfl, hzero⟩, ← exists_and_right]
      refine exists_congr fun t ↦ and_congr_right fun hloop ↦ ?_
      have hcount := ((hfills.loop_ok_iff ⟨rfl, hzero⟩).1 ⟨t, hloop⟩).1
      exact storeFree_outside_iff (hfills.loop_keeps ⟨rfl, hzero⟩ hloop).2 hcount
    rw [hrest]
    constructor
    · exact fun h ↦ ⟨multiplanar, request, rfl, rfl, hfew, h⟩
    · rintro ⟨multiplanar', request', hplanar', hrequest', -, h⟩
      obtain rfl := Option.some.inj hplanar'
      obtain rfl := Option.some.inj hrequest'
      exact h

/-- What is opened is inside the tables. -/
theorem inside_of_m2mOpenTables (h : m2mOpenTables answers = .ok tables) : tables.Inside := by
  rcases m2mOpenTables_cases answers with ⟨t, hfail, -⟩ | ⟨multiplanar, request, -, -, -, heq⟩
  · rw [hfail] at h
    exact nomatch h
  · rw [heq] at h
    have hfills := fills_m2mMapOutput answers multiplanar
    have hzero := inside_zero multiplanar
    obtain ⟨t, hloop, h⟩ := Table.bind_eq_ok_iff.1 h
    obtain ⟨u, hstore, h⟩ := Table.bind_eq_ok_iff.1 h
    have hcount := ((hfills.loop_ok_iff ⟨rfl, hzero⟩).1 ⟨t, hloop⟩).1
    obtain ⟨u', hu', hinside⟩ :=
      exists_loop_m2mStoreFree (hfills.loop_keeps ⟨rfl, hzero⟩ hloop).2 hcount
    obtain rfl := Except.ok.inj (hu'.symm.trans hstore)
    exact inside_of_m2mOpenCapture hinside h

/-- `m2m_unmap` with the size of the array: it counts by what is there, not by what was granted. -/
theorem exists_m2mUnmap (bufs : Vector MappedBuffer n) : ∃ bufs', m2mUnmap bufs n = .ok bufs' := by
  refine Table.exists_loop (fun i hi bufs ↦ ?_) bufs
  rw [Table.read_of_lt _ hi]
  dsimp only [Bind.bind, Except.bind]
  split_ifs
  · exact ⟨_, Table.write_of_lt _ hi _⟩
  · exact ⟨_, rfl⟩

/-- Closing is always possible. -/
theorem exists_m2mClose (tables : M2mTables) : ∃ t, m2mClose tables = .ok t := by
  obtain ⟨outBufs, hout⟩ := exists_m2mUnmap tables.outBufs
  obtain ⟨outBufsUv, huv⟩ := exists_m2mUnmap tables.outBufsUv
  obtain ⟨capBufs, hcap⟩ := exists_m2mUnmap tables.capBufs
  rw [m2mClose, hout, huv, hcap]
  exact ⟨_, rfl⟩

/-- Opening leaves its tables on the answers that overrun them, and on no others. -/
theorem m2mOpenChecked_outside_iff : m2mOpenChecked answers = .error .outside ↔ answers.Overruns := by
  rw [← m2mOpenTables_outside_iff, m2mOpenChecked]
  rcases m2mOpenTables answers with (- | tables) | tables
  · exact Iff.rfl
  · obtain ⟨t, ht⟩ := exists_m2mClose tables
    dsimp only
    rw [ht]
    exact iff_of_false (fun h ↦ nomatch h) fun h ↦ nomatch h
  · exact Iff.rfl

theorem inside_of_m2mOpenChecked (h : m2mOpenChecked answers = .ok tables) : tables.Inside := by
  rw [m2mOpenChecked] at h
  rcases hopen : m2mOpenTables answers with (- | t) | t <;> rw [hopen] at h
  · exact nomatch h
  · obtain ⟨u, -, h⟩ := Table.bind_eq_ok_iff.1 h
    exact nomatch h
  · exact Except.ok.inj h ▸ inside_of_m2mOpenTables hopen

/-! ### Encoding -/

/-- What `m2m_encode` sees of the tables. -/
def M2mTables.backend (tables : M2mTables) : M2mBackend :=
  ⟨fun i ↦ (tables.outFree[i]?).getD 0, tables.outFreeCount.toNat, tables.errors⟩

/-- The turns of the drain loop in which the driver holds a buffer at the position. -/
def resolveDrain (queued : List ℕ) (turns : List (ℕ × DrainTurn)) : List DrainTurn :=
  (turns.takeWhile fun turn ↦ turn.1 < queued.length).map Prod.snd

/-- The answers with the buffers themselves, where the driver holds one. -/
def M2mQueueAnswers.resolve (answers : M2mQueueAnswers) (tables : M2mTables) : M2mAnswers where
  pollOut := answers.pollOut
  dqbufOut := answers.dqbufOut.bind fun position ↦ tables.outQueued[position]?
  qbufOut := answers.qbufOut
  pollIn := answers.pollIn
  drain := resolveDrain tables.capQueued answers.drain

variable {outCapacity : ℕ} {answers : M2mQueueAnswers}

@[simp] theorem M2mTables.backend_outFreeCount (tables : M2mTables) :
    tables.backend.outFreeCount = tables.outFreeCount.toNat := rfl

@[simp] theorem M2mTables.backend_errors (tables : M2mTables) : tables.backend.errors = tables.errors := rfl

theorem M2mTables.backend_outFree (tables : M2mTables) {i : ℕ} (h : i < m2mOutputBuffers) :
    tables.backend.outFree i = tables.outFree[i] :=
  congrArg (fun slot ↦ Option.getD slot 0) (Vector.getElem?_eq_getElem h)

/-- A call that stays inside and does what the unchecked one does. -/
def M2mAgrees {α : Type} (r : Except (Fault M2mTables) (α × M2mTables × List M2mIoctl))
    (r' : α × M2mBackend × List M2mIoctl) : Prop :=
  ∃ t, r = .ok (r'.1, t, r'.2.2) ∧ t.backend = r'.2.1 ∧ t.Inside

/-- **An input buffer is one of the array**, whether it comes off the stack or from the device. -/
theorem m2mAcquireInputBufferChecked_eq (h : tables.Inside) (answers : M2mQueueAnswers) :
    ∃ t, m2mAcquireInputBufferChecked tables answers =
        .ok ((m2mAcquireInputBuffer tables.backend (answers.resolve tables)).1, t,
          (m2mAcquireInputBuffer tables.backend (answers.resolve tables)).2.2) ∧
      t.backend = (m2mAcquireInputBuffer tables.backend (answers.resolve tables)).2.1 ∧
      t.Inside ∧ t.capQueued = tables.capQueued ∧
      ∀ index ∈ (m2mAcquireInputBuffer tables.backend (answers.resolve tables)).1,
        index < m2mOutputBuffers := by
  rw [m2mAcquireInputBufferChecked, m2mAcquireInputBuffer]
  -- The top of the free list, or a buffer that the driver gives back.
  rcases Int.lt_or_le 0 tables.outFreeCount with hfree | hempty
  · have htop : (tables.outFreeCount - 1).toNat < m2mOutputBuffers := by
      have hcount := h.outFreeCount
      omega
    have hnat : tables.outFreeCount.toNat - 1 = (tables.outFreeCount - 1).toNat := by
      omega
    rw [if_pos hfree, tables.backend_outFreeCount, if_pos (Int.lt_toNat.2 hfree)]
    dsimp only
    rw [Table.read_of_lt _ htop, hnat, tables.backend_outFree htop]
    refine ⟨_, rfl, rfl, ⟨?_, h.2, h.3, h.4⟩, rfl, ?_⟩
    · exact (Int.sub_le_self _ (by decide)).trans h.outFreeCount
    · rintro index hindex
      exact Option.mem_some.1 hindex ▸ h.outFree _ htop
  have hnat : ¬ 0 < tables.backend.outFreeCount :=
    mt Int.lt_toNat.1 (Int.not_lt.2 hempty)
  have hnone : ∀ index ∈ (none : Option ℕ), index < m2mOutputBuffers :=
    fun index h ↦ absurd h (Option.not_mem_none index)
  rw [if_neg (Int.not_lt.2 hempty), if_neg hnat, M2mQueueAnswers.resolve]
  dsimp only
  rcases answers.pollOut with - | -
  · exact ⟨tables, rfl, rfl, h, rfl, hnone⟩
  rcases answers.dqbufOut with - | position
  · exact ⟨tables, rfl, rfl, h, rfl, hnone⟩
  rw [Option.bind_some]
  dsimp only
  rcases hqueued : tables.outQueued[position]? with - | index
  · exact ⟨tables, rfl, rfl, h, rfl, hnone⟩
  · refine ⟨_, rfl, rfl, ⟨h.1, h.2, fun j hj ↦ ?_, h.4⟩, rfl, ?_⟩
    · exact h.outQueued j (List.mem_of_mem_eraseIdx hj)
    · rintro i hi
      exact Option.mem_some.1 hi ▸ h.outQueued index (List.mem_of_getElem? hqueued)

/-- The planes of a buffer in the table. -/
theorem exists_m2mInputPlanes {index : ℕ} (tables : M2mTables) (h : index < m2mOutputBuffers) :
    ∃ planes, m2mInputPlanes tables index = .ok planes := by
  rw [m2mInputPlanes, Table.read_of_lt _ h, Table.read_of_lt _ h]
  dsimp only [Bind.bind, Except.bind]
  split_ifs <;> exact ⟨_, rfl⟩

/-- The bytes of an encoded buffer in the table. -/
theorem exists_m2mCopySource {capIndex : ℕ} (drained : M2mDrained) (buffer : CaptureBuffer)
    (tables : M2mTables) (h : capIndex < m2mCaptureBuffers) :
    ∃ slot, m2mCopySource outCapacity drained buffer tables capIndex = .ok slot := by
  rw [m2mCopySource, Table.read_of_lt _ h]
  split_ifs <;> exact ⟨_, rfl⟩

/-- **The drain loop stays inside**: an encoded buffer goes back into the queue that it came from. -/
theorem m2mDrainChecked_eq (turns : List (ℕ × DrainTurn)) (drained : M2mDrained) (h : tables.Inside) :
    ∃ t, m2mDrainChecked outCapacity turns drained tables =
        .ok (m2mDrain outCapacity (resolveDrain tables.capQueued turns) drained, t) ∧
      t.backend = tables.backend ∧ t.Inside := by
  induction turns generalizing drained tables with
  | nil => exact ⟨tables, rfl, rfl, h⟩
  | cons head turns ih =>
    obtain ⟨position, turn⟩ := head
    rw [m2mDrainChecked, resolveDrain, List.takeWhile_cons]
    rcases hqueued : tables.capQueued[position]? with - | capIndex
    · rw [if_neg (mt of_decide_eq_true (Nat.not_lt.2 (List.getElem?_eq_none_iff.1 hqueued)))]
      exact ⟨tables, rfl, rfl, h⟩
    have hposition : position < tables.capQueued.length := (List.getElem?_eq_some_iff.1 hqueued).1
    have hindex := h.capQueued capIndex (List.mem_of_getElem? hqueued)
    obtain ⟨slot, hslot⟩ := exists_m2mCopySource drained turn.buffer
      { tables with capQueued := tables.capQueued.eraseIdx position } hindex
    rw [if_pos (decide_eq_true hposition), List.map_cons, m2mDrain]
    dsimp only
    rw [hslot]
    -- A buffer goes back to the end of the queue, unless the driver refuses it.
    have herased : ∀ j ∈ tables.capQueued.eraseIdx position, j < m2mCaptureBuffers :=
      fun j hj ↦ h.capQueued j (List.mem_of_mem_eraseIdx hj)
    have hback := mem_append_singleton herased hindex
    have hlength : (tables.capQueued.eraseIdx position ++ [capIndex]).length = tables.capQueued.length := by
      rw [List.length_append, List.length_eraseIdx_of_lt hposition, List.length_singleton]
      omega
    rcases turn with ⟨buffer, _ | _, _ | _⟩
    · exact ⟨_, rfl, rfl, h.1, h.2, h.3, herased⟩
    · exact ⟨_, rfl, rfl, h.1, h.2, h.3, herased⟩
    · exact ⟨_, rfl, rfl, h.1, h.2, h.3, hback⟩
    · obtain ⟨t, ht, hbackend, hinside⟩ := @ih
        { tables with capQueued := tables.capQueued.eraseIdx position ++ [capIndex] }
        (m2mCollect outCapacity drained buffer) ⟨h.1, h.2, h.3, hback⟩
      rw [resolveDrain, hlength] at ht
      exact ⟨t, ht, hbackend, hinside⟩

/-- Draining with checked accesses is draining. -/
theorem m2mDrainReadyChecked_agrees (h : tables.Inside) (outCapacity : ℕ) (answers : M2mQueueAnswers)
    (ioctls : List M2mIoctl) {resolved : M2mAnswers} (hpoll : resolved.pollIn = answers.pollIn)
    (hdrain : resolved.drain = resolveDrain tables.capQueued answers.drain) :
    M2mAgrees (m2mDrainReadyChecked tables outCapacity answers ioctls)
      (m2mDrainReady tables.backend outCapacity resolved ioctls) := by
  rw [m2mDrainReadyChecked, m2mDrainReady, hpoll, hdrain]
  rcases answers.pollIn with - | -
  · exact ⟨tables, rfl, rfl, h⟩
  obtain ⟨t, ht, hbackend, hinside⟩ :=
    @m2mDrainChecked_eq _ outCapacity answers.drain ⟨[], false, ioctls⟩ h
  rw [if_neg (not_not.2 rfl), if_neg (not_not.2 rfl), ht]
  dsimp only [Bind.bind, Except.bind]
  split_ifs
  · exact ⟨_, rfl, congrArg (fun b : M2mBackend ↦ { b with errors := 0 }) hbackend, hinside.1, hinside.2,
      hinside.3, hinside.4⟩
  · exact ⟨t, rfl, hbackend, hinside⟩

/-- **No call leaves the arrays**, and what it does is what `m2mEncode` does with the same answers. -/
theorem m2mEncodeChecked_agrees (h : tables.Inside) (ptsUs : UInt64) (forceIdr : Bool) (outCapacity : ℕ)
    (answers : M2mQueueAnswers) :
    M2mAgrees (m2mEncodeChecked tables ptsUs forceIdr outCapacity answers)
      (m2mEncode tables.backend ptsUs forceIdr outCapacity (answers.resolve tables)) := by
  rw [m2mEncodeChecked, m2mEncode, tables.backend_errors]
  rcases Int.lt_or_le 64 tables.errors with herrors | herrors
  · rw [if_pos herrors, if_pos herrors]
    exact ⟨tables, rfl, rfl, h⟩
  rw [if_neg (Int.not_lt.2 herrors), if_neg (Int.not_lt.2 herrors)]
  obtain ⟨t, hacquire, hbackend, ht, hcap, hindex⟩ := m2mAcquireInputBufferChecked_eq h answers
  rw [hacquire]
  generalize m2mAcquireInputBuffer tables.backend (answers.resolve tables) = acquired at hbackend hindex ⊢
  -- With a buffer in hand its planes are found, and it is queued or not.
  obtain ⟨_ | index, encoder, ioctls⟩ := acquired
  · exact ⟨t, rfl, hbackend, ht⟩
  have hlt : index < m2mOutputBuffers := hindex index rfl
  obtain ⟨planes, hplanes⟩ := exists_m2mInputPlanes t hlt
  dsimp only [Bind.bind, Except.bind] at hbackend ⊢
  rw [hplanes, ← hbackend]
  have hresolve : (answers.resolve tables).qbufOut = answers.qbufOut := rfl
  rw [hresolve]
  rcases hqbuf : answers.qbufOut with - | -
  · exact ⟨_, rfl, rfl, ht.1, ht.2, ht.3, ht.4⟩
  · have hqueued : M2mTables.Inside { t with outQueued := t.outQueued ++ [index] } :=
      ⟨ht.1, ht.2, mem_append_singleton ht.outQueued hlt, ht.4⟩
    exact m2mDrainReadyChecked_agrees hqueued outCapacity answers _ rfl
      (congrArg (fun queued ↦ resolveDrain queued answers.drain) hcap.symm)

/-- A call on open tables stays inside them. -/
theorem exists_m2mQueueStep (tables : M2mTables) (call : M2mQueueCall) (h : tables.Inside) :
    ∃ t, m2mQueueStep tables call = .ok t ∧ t.Inside := by
  obtain ⟨t, hencode, -, ht⟩ :=
    m2mEncodeChecked_agrees h call.ptsUs call.forceIdr call.outCapacity call.answers
  exact ⟨t, Table.bind_eq_ok_iff.2 ⟨_, hencode, rfl⟩, ht⟩

/-- **When the life of an encoder leaves an array**: when `m2m_open` does. -/
theorem m2mSession_outside_iff (answers : M2mOpenAnswers) (calls : List M2mQueueCall) :
    m2mSession answers calls = .error .outside ↔ answers.Overruns := by
  rw [← m2mOpenChecked_outside_iff, m2mSession, Table.bind_eq_error_iff, or_iff_left]
  rintro ⟨tables, hopen, h⟩
  obtain ⟨t, hrun, -⟩ :=
    Table.exists_foldlM exists_m2mQueueStep calls (inside_of_m2mOpenChecked hopen)
  obtain ⟨u, hclose⟩ := exists_m2mClose t
  rw [Table.bind_eq_ok_iff.2 ⟨t, hrun, hclose⟩] at h
  exact nomatch h

/-! ### Both devices -/

/-- **The arrays hold whatever the driver grants exactly when it does not grant too much**: a device is
used to its end without an index outside an array, unless it is opened with more buffers than an array has
and nothing fails before the first that is too many. -/
theorem bufferTables_inside_iff (answers : V4l2CreateAnswers) (calls : List V4l2Call)
    (m2mAnswers : M2mOpenAnswers) (m2mCalls : List M2mQueueCall) :
    (v4l2Session answers calls ≠ .error .outside ↔ ¬ answers.Overruns) ∧
      (m2mSession m2mAnswers m2mCalls ≠ .error .outside ↔ ¬ m2mAnswers.Overruns) :=
  ⟨(v4l2Session_outside_iff answers calls).not, (m2mSession_outside_iff m2mAnswers m2mCalls).not⟩

/-- A camera that grants one buffer more than it was asked for. -/
def fiveBuffers : V4l2CreateAnswers where
  frameSize := some 614400
  reqBufs := some 5
  queryBuf _ := some 614400
  mmap i := some (614400 * (i + 1))

/-- An encoder that grants seven input buffers and seven encoded buffers. -/
def sevenBuffers : M2mOpenAnswers where
  multiplanar := some false
  outReqBufs := some 7
  outQuery _ := some (460800, 0)
  outMmap i := some (460800 * (i + 1))
  outMmapUv _ := none
  capReqBufs := some 7
  capQuery _ := some 524288
  capMmap i := some (524288 * (i + 1))
  capQbuf _ := true
  streamOn := true

/-- With these the fifth and the seventh buffer are written behind the arrays, before any call. -/
theorem outside_fiveBuffers_sevenBuffers :
    v4l2Session fiveBuffers [] = .error .outside ∧ m2mSession sevenBuffers [] = .error .outside :=
  ⟨rfl, rfl⟩

end Camstream
