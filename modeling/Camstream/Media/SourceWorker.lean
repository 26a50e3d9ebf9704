import Camstream.Lib.Loops
import Camstream.Media.FrameContents
import Camstream.Media.V4l2Source

/-!
# The capture thread

`src/media/source_worker.c` over the source of `src/media/v4l2_source.c`: dequeue a buffer, publish what is in
it, give it back. The driver writes to the buffers that it has, and consumers use the hub, between any two
steps of the thread. A buffer is the driver's, the thread's, or lost because a `VIDIOC_QBUF` has failed;
`CaptureSystem.Sound` says that it is exactly one of these, so that nobody writes to a buffer while the hub
copies it.

The memory of a mapped buffer is a function of the offset, and a driver reports no more bytes than it has
mapped. That it hands out the buffers that it was given, each once, is the guard of a capture.
-/

namespace Camstream

/-- The members of `struct VideoSource` that go with every picture. -/
structure SourceFormat where
  width : UInt32
  height : UInt32
  format : UInt32
  stride : UInt32
  deriving DecidableEq, Repr

/-- A turn of the loop that has got a picture. -/
structure SourceTurn where
  picture : V4l2Picture
  timestampUs : UInt64
  deriving DecidableEq, Repr

/-- Where `source_worker_thread` is. -/
inductive SourcePhase
  /-- At the head of the loop. -/
  | idle
  /-- Behind `capture`. -/
  | captured (turn : SourceTurn)
  /-- Inside `frame_hub_publish`. -/
  | publishing (turn : SourceTurn)
  /-- Behind `frame_hub_publish`. -/
  | published (turn : SourceTurn)
  deriving DecidableEq, Repr

/-- The turn that is under way. -/
def SourcePhase.turn? : SourcePhase → Option SourceTurn
  | idle => none
  | captured turn | publishing turn | published turn => some turn

/-- The buffer that the thread has in its hands. -/
def SourcePhase.buffer? (phase : SourcePhase) : Option ℕ :=
  phase.turn?.map fun turn ↦ turn.picture.bufferIndex.toNat

theorem buffer?_published (turn : SourceTurn) :
    (SourcePhase.published turn).buffer? = some turn.picture.bufferIndex.toNat :=
  rfl

/-- The thread, the driver and the hub. `queued` are the buffers of the driver and `refused` those that
`VIDIOC_QBUF` did not take; `pictures` is what was in the buffers when they were dequeued. -/
structure CaptureSystem where
  impl : V4l2Source
  format : SourceFormat
  queued : List ℕ
  refused : List ℕ
  mapped : ℕ → ℕ → UInt8
  phase : SourcePhase
  sequence : UInt64
  captured : UInt64
  record : HubRecord
  pictures : List FrameInfo

/-- `source_worker_create` and `source_worker_start`, on a source that was just created. -/
def sourceWorkerStart (impl : V4l2Source) (qbuf : ℕ → Bool) (streamOn : Bool) (format : SourceFormat)
    (mapped : ℕ → ℕ → UInt8) (hub : FrameHub) : Option CaptureSystem :=
  let started := v4l2Start impl qbuf streamOn
  if started.1 ≠ 0 then none
  else some
    { impl := started.2
      format := format
      queued := List.range impl.bufferCount.toNat
      refused := []
      mapped := mapped
      phase := .idle
      sequence := 0
      captured := 0
      record := .start hub
      pictures := [] }

/-- The buffer that `v4l2_capture` dequeues. -/
def V4l2CaptureAnswers.dequeued (answers : V4l2CaptureAnswers) : Option V4l2Buffer :=
  if answers.poll ≤ 0 then none else answers.dqbuf

/-- `VIDIOC_QBUF` takes a buffer or not. -/
def CaptureSystem.qbuf (s : CaptureSystem) (i : ℕ) (taken : Bool) : CaptureSystem :=
  if taken then { s with queued := i :: s.queued } else { s with refused := i :: s.refused }

/-- The picture of a turn, as it is in the buffer. -/
def CaptureSystem.info (s : CaptureSystem) (turn : SourceTurn) : FrameInfo where
  data := (List.range turn.picture.size).map (s.mapped turn.picture.bufferIndex.toNat)
  width := s.format.width
  height := s.format.height
  format := s.format.format
  stride := s.format.stride
  sequence := s.sequence
  timestampUs := turn.timestampUs

/-- The call of `capture`. -/
def sourceWorkerCapture (s : CaptureSystem) (answers : V4l2CaptureAnswers) (taken : Bool) (now : UInt64) :
    Option CaptureSystem :=
  if s.phase ≠ .idle then none
  else if ¬ ∀ buffer ∈ answers.dequeued, buffer.index.toNat ∈ s.queued then none
  else
    match v4l2Capture s.impl answers with
    | .error _ => none
    | .ok (_, picture, recycled) =>
      let t := answers.dequeued.elim s fun buffer ↦
        { s with queued := s.queued.erase buffer.index.toNat }
      let t := recycled.elim t fun i ↦ t.qbuf i.toNat taken
      match picture with
      | some picture =>
        let turn := ⟨picture, now⟩
        some { t with phase := .captured turn, pictures := t.pictures ++ [t.info turn] }
      | none => some t

/-- The phase behind a step of the hub. -/
def SourceTurn.next (turn : SourceTurn) (publisher : Publisher) : SourcePhase :=
  if publisher = .idle then .published turn else .publishing turn

/-- The call of `frame_hub_publish`, up to the hub lock. -/
def sourceWorkerPublish (s : CaptureSystem) : Option CaptureSystem :=
  match s.phase with
  | .captured turn =>
    if turn.picture.data = .null then some { s with phase := .published turn }
    else
      (recordedStep s.record (.publish (s.info turn))).map fun record ↦
        { s with record := record, phase := turn.next record.trace.hub.publisher }
  | _ => none

/-- The next step inside `frame_hub_publish`. -/
def sourceWorkerPublishNext (s : CaptureSystem) : Option CaptureSystem :=
  match s.phase with
  | .publishing turn =>
    (recordedStep s.record .publishNext).map fun record ↦
      { s with record := record, phase := turn.next record.trace.hub.publisher }
  | _ => none

/-- The call of `release`, and the end of the turn. -/
def sourceWorkerRelease (s : CaptureSystem) (taken : Bool) : Option CaptureSystem :=
  match s.phase with
  | .published turn =>
    let released := v4l2Release s.impl turn.picture.bufferIndex
    let t := { s with
      impl := released.2
      phase := .idle
      sequence := s.sequence + 1
      captured := s.captured + 1 }
    some (released.1.elim t fun i ↦ t.qbuf i.toNat taken)
  | _ => none

/-- Whether an event of the hub is one of its producer. -/
def HubEvent.isProducer : HubEvent → Bool
  | .publish _ | .publishNext => true
  | _ => false

/-- A step of the thread, of the driver, or of a consumer. -/
inductive CaptureEvent
  | capture (answers : V4l2CaptureAnswers) (taken : Bool) (now : UInt64)
  | publish
  | publishNext
  | release (taken : Bool)
  | fill (i : ℕ) (bytes : ℕ → UInt8)
  | consumer (e : HubEvent)

def captureStep (s : CaptureSystem) : CaptureEvent → Option CaptureSystem
  | .capture answers taken now => sourceWorkerCapture s answers taken now
  | .publish => sourceWorkerPublish s
  | .publishNext => sourceWorkerPublishNext s
  | .release taken => sourceWorkerRelease s taken
  | .fill i bytes =>
    if i ∉ s.queued then none else some { s with mapped := Function.update s.mapped i bytes }
  | .consumer e =>
    if e.isProducer then none
    else (recordedStep s.record e).map fun record ↦ { s with record := record }

/-! ### The invariant -/

/-- The picture that the thread has in its hands was dequeued last, and is still in its buffer. -/
def CaptureSystem.Current (s : CaptureSystem) (turn : SourceTurn) (older : List FrameInfo) : Prop :=
  s.pictures = older ++ [s.info turn]

/-- The pictures of the turns that have ended, and of the turn under way if the hub has seen it. -/
def CaptureSystem.PhaseSound (s : CaptureSystem) : Prop :=
  match s.phase with
  | .idle => s.sequence = UInt64.ofNat s.pictures.length ∧ s.record.infos.Sublist s.pictures ∧
    s.record.trace.hub.publisher = .idle
  | .captured turn => ∃ older, s.Current turn older ∧ s.sequence = UInt64.ofNat older.length ∧
    s.record.infos.Sublist older ∧ s.record.trace.hub.publisher = .idle
  | .publishing turn => ∃ older, s.Current turn older ∧ s.sequence = UInt64.ofNat older.length ∧
    s.record.infos.Sublist s.pictures ∧ s.record.trace.hub.publisher ≠ .idle
  | .published turn => ∃ older, s.Current turn older ∧ s.sequence = UInt64.ofNat older.length ∧
    s.record.infos.Sublist s.pictures ∧ s.record.trace.hub.publisher = .idle

/-- In how many places a buffer is: with the driver, lost, or with the thread. -/
def CaptureSystem.places (s : CaptureSystem) (i : ℕ) : ℕ :=
  s.queued.count i + s.refused.count i + if s.phase.buffer? = some i then 1 else 0

/-- What every run keeps. -/
structure CaptureSystem.Sound (capacity count n : ℕ) (s : CaptureSystem) : Prop where
  inside : s.impl.Inside
  count_eq : s.impl.bufferCount.toNat = count
  frameSize_le : s.impl.frameSize ≤ capacity
  faithful : s.record.Faithful capacity n
  /-- **Every buffer is in one place.** -/
  places : ∀ i, s.places i = if i < count then 1 else 0
  fits : ∀ info ∈ s.pictures, 0 < info.data.length ∧ info.data.length ≤ s.impl.frameSize
  numbered : ∀ k info, s.pictures[k]? = some info → info.sequence = UInt64.ofNat k
  captured_eq : s.captured = s.sequence
  phase : s.PhaseSound

variable {capacity count n : ℕ} {s s' : CaptureSystem} {turn : SourceTurn} {impl : V4l2Source}

/-- The driver does not have the buffer that the thread has. -/
theorem CaptureSystem.Sound.notMem_queued (h : s.Sound capacity count n) (hturn : s.phase.turn? = some turn) :
    turn.picture.bufferIndex.toNat ∉ s.queued := by
  intro hmem
  have hbuffer : s.phase.buffer? = some turn.picture.bufferIndex.toNat := by
    rw [SourcePhase.buffer?, hturn]
    rfl
  have hplaces := h.places turn.picture.bufferIndex.toNat
  have hpos := List.count_pos_iff.2 hmem
  rw [CaptureSystem.places, hbuffer, if_pos rfl] at hplaces
  split_ifs at hplaces
  omega

/-- In each of the three phases of a turn its picture is the newest. -/
theorem CaptureSystem.PhaseSound.exists_current (h : s.PhaseSound) (hturn : s.phase.turn? = some turn) :
    ∃ older, s.Current turn older := by
  rw [CaptureSystem.PhaseSound] at h
  rcases hphase : s.phase with - | turn' | turn' | turn' <;> rw [hphase] at hturn h
  · exact absurd hturn.symm (Option.some_ne_none turn)
  all_goals
    obtain rfl := Option.some.inj hturn
    exact ⟨_, h.choose_spec.1⟩

/-- What was published is what was dequeued, but for pictures that the hub had no frame for. -/
theorem CaptureSystem.PhaseSound.infos_sublist (h : s.PhaseSound) : s.record.infos.Sublist s.pictures := by
  rw [CaptureSystem.PhaseSound] at h
  rcases hphase : s.phase with - | turn | turn | turn <;> rw [hphase] at h
  · exact h.2.1
  · obtain ⟨older, hcurrent, -, hinfos, -⟩ := h
    rw [hcurrent]
    exact hinfos.trans (List.sublist_append_left _ _)
  · obtain ⟨older, -, -, hinfos, -⟩ := h
    exact hinfos
  · obtain ⟨older, -, -, hinfos, -⟩ := h
    exact hinfos

/-! ### The call of `capture` -/

/-- **What a capture comes to**: no picture, and the buffer that was dequeued is given back or is none of the
source; or the picture in that buffer. -/
theorem v4l2Capture_cases {answers : V4l2CaptureAnswers} {result : ℤ} {picture : Option V4l2Picture}
    {recycled : Option UInt32} (h : v4l2Capture impl answers = .ok (result, picture, recycled)) :
    (picture = none ∧ answers.dequeued.map V4l2Buffer.index = recycled) ∨
    (picture = none ∧ recycled = none ∧
      ∃ buffer, answers.dequeued = some buffer ∧ impl.bufferCount ≤ buffer.index) ∨
    ∃ buffer start, answers.dequeued = some buffer ∧ buffer.index < impl.bufferCount ∧
      0 < buffer.bytesused ∧ buffer.bytesused ≤ impl.frameSize ∧
      picture = some ⟨start, buffer.bytesused, buffer.index⟩ ∧ recycled = none := by
  rw [v4l2Capture] at h
  rw [V4l2CaptureAnswers.dequeued]
  -- No picture: the poll fails or times out, or there is nothing to dequeue.
  rcases Int.lt_trichotomy answers.poll 0 with hneg | hzero | hpos
  · rw [if_pos hneg] at h
    rw [if_pos (Int.le_of_lt hneg)]
    cases h
    exact .inl ⟨rfl, rfl⟩
  · rw [if_neg (by omega), if_pos hzero] at h
    rw [if_pos (Int.le_of_eq hzero)]
    cases h
    exact .inl ⟨rfl, rfl⟩
  rw [if_neg (by omega), if_neg (by omega)] at h
  rw [if_neg (by omega)]
  rcases hdqbuf : answers.dqbuf with - | buffer
  · rw [hdqbuf] at h
    cases h
    exact .inl ⟨rfl, rfl⟩
  · rw [hdqbuf] at h
    dsimp only at h
    split_ifs at h with hindex herror hsize
    · cases h
      exact .inr (.inl ⟨rfl, rfl, buffer, rfl, hindex⟩)
    · cases h
      exact .inl ⟨rfl, rfl⟩
    · cases h
      exact .inl ⟨rfl, rfl⟩
    · obtain ⟨slot, -, hok⟩ := Table.bind_eq_ok_iff.1 h
      cases hok
      exact .inr (.inr ⟨buffer, slot.start, rfl, UInt32.not_le.1 hindex, by omega, by omega, rfl, rfl⟩)

theorem count_cons_nat (l : List ℕ) (i j : ℕ) : (i :: l).count j = l.count j + if i = j then 1 else 0 := by
  rw [List.count_cons]
  simp only [beq_iff_eq]

/-- A buffer that is dequeued is with the thread. -/
theorem count_erase_add {l : List ℕ} {i : ℕ} (hi : i ∈ l) (j : ℕ) :
    (l.erase i).count j + (if i = j then 1 else 0) = l.count j := by
  rw [List.count_erase]
  simp only [beq_iff_eq]
  split_ifs with h
  · subst h
    exact Nat.sub_add_cancel (List.count_pos_iff.2 hi)
  · rw [Nat.sub_zero, Nat.add_zero]

/-- Buffers may change their places between driver and losses. -/
theorem CaptureSystem.Sound.move (h : s.Sound capacity count n) {queued refused : List ℕ}
    (hplaces : ∀ i, queued.count i + refused.count i = s.queued.count i + s.refused.count i) :
    ({ s with queued := queued, refused := refused } : CaptureSystem).Sound capacity count n :=
  { h with
    places := fun i ↦ by
      rw [← h.places i]
      exact congrArg (· + _) (hplaces i)
    phase := h.phase }

theorem CaptureSystem.Sound.lt_of_mem (h : s.Sound capacity count n) {i : ℕ} (hi : i ∈ s.queued) :
    i < count := by
  have hplaces := h.places i
  have hpos := List.count_pos_iff.2 hi
  rw [CaptureSystem.places] at hplaces
  by_contra hge
  rw [if_neg hge] at hplaces
  omega

/-- A buffer that `v4l2_capture` gives back itself. -/
theorem CaptureSystem.Sound.recycle (h : s.Sound capacity count n) {i : ℕ} (hi : i ∈ s.queued) (taken : Bool) :
    (({ s with queued := s.queued.erase i } : CaptureSystem).qbuf i taken).Sound capacity count n := by
  rcases taken with - | -
  · refine h.move fun j ↦ ?_
    show (s.queued.erase i).count j + (i :: s.refused).count j = _
    rw [← count_erase_add hi j, count_cons_nat]
    omega
  · refine h.move fun j ↦ ?_
    show (i :: s.queued.erase i).count j + s.refused.count j = _
    rw [← count_erase_add hi j, count_cons_nat]

/-- A capture takes the buffer from the driver. -/
theorem CaptureSystem.Sound.capture (h : s.Sound capacity count n) {answers : V4l2CaptureAnswers} {taken : Bool}
    {now : UInt64} (hs : sourceWorkerCapture s answers taken now = some s') : s'.Sound capacity count n := by
  rw [sourceWorkerCapture] at hs
  split_ifs at hs with hbusy hforeign
  have hidle : s.phase = .idle := not_not.1 hbusy
  have hqueued : ∀ buffer ∈ answers.dequeued, buffer.index.toNat ∈ s.queued := hforeign
  rcases hcapture : v4l2Capture s.impl answers with fault | ⟨result, picture, recycled⟩
  · rw [hcapture] at hs
    exact absurd hs.symm (Option.some_ne_none s')
  rw [hcapture] at hs
  rcases v4l2Capture_cases hcapture with ⟨rfl, rfl⟩ | ⟨rfl, rfl, buffer, hbuffer, hindex⟩ |
    ⟨buffer, start, hbuffer, hindex, hpos, hle, rfl, rfl⟩
  · obtain rfl := Option.some.inj hs
    rcases hdequeued : answers.dequeued with - | buffer
    · exact h
    · exact h.recycle (hqueued buffer hdequeued) taken
  · -- The driver gives back buffers of the source only.
    have hlt := h.lt_of_mem (hqueued buffer hbuffer)
    rw [UInt32.le_iff_toNat_le, h.count_eq] at hindex
    omega
  · have hmem := hqueued buffer hbuffer
    have hphase := h.phase
    rw [CaptureSystem.PhaseSound, hidle] at hphase
    obtain ⟨hsequence, hinfos, hpublisher⟩ := hphase
    rw [hbuffer] at hs
    obtain rfl := Option.some.inj hs
    refine { h with places := fun i ↦ ?_, fits := ?_, numbered := ?_, phase := ?_ }
    · rw [← h.places i, CaptureSystem.places, CaptureSystem.places, ← count_erase_add hmem i, hidle]
      show (s.queued.erase buffer.index.toNat).count i + s.refused.count i +
        (if some buffer.index.toNat = some i then 1 else 0) =
          (s.queued.erase buffer.index.toNat).count i + _ + s.refused.count i + if none = some i then 1 else 0
      simp only [Option.some.injEq, reduceCtorEq, if_false]
      omega
    · intro info hinfo
      rcases List.mem_append.1 hinfo with hinfo | hinfo
      · exact h.fits info hinfo
      · obtain rfl := List.mem_singleton.1 hinfo
        rw [CaptureSystem.info, List.length_map, List.length_range]
        exact ⟨hpos, hle⟩
    · intro k info hinfo
      rcases Loops.getElem?_snoc_iff.1 hinfo with hinfo | ⟨rfl, rfl⟩
      · exact h.numbered k info hinfo
      · exact hsequence
    · exact ⟨s.pictures, rfl, hsequence, hinfos, hpublisher⟩

/-! ### The other steps -/

/-- The hub goes on while the thread keeps its buffer. -/
theorem CaptureSystem.Sound.advance (h : s.Sound capacity count n) {record : HubRecord} {phase : SourcePhase}
    (hrecord : record.Faithful capacity n) (hbuffer : phase.buffer? = s.phase.buffer?)
    (hphase : ({ s with record := record, phase := phase } : CaptureSystem).PhaseSound) :
    ({ s with record := record, phase := phase } : CaptureSystem).Sound capacity count n :=
  { h with
    faithful := hrecord
    places := fun i ↦ by
      rw [← h.places i, CaptureSystem.places, CaptureSystem.places, ← hbuffer]
    phase := hphase }

theorem buffer?_next (turn : SourceTurn) (publisher : Publisher) :
    (turn.next publisher).buffer? = some turn.picture.bufferIndex.toNat := by
  rw [SourceTurn.next]
  split_ifs <;> rfl

/-- Behind a publish the turn is the newest picture. -/
theorem phaseSound_next {record : HubRecord} {older : List FrameInfo} (hcurrent : s.Current turn older)
    (hsequence : s.sequence = UInt64.ofNat older.length) (hinfos : record.infos.Sublist s.pictures) :
    ({ s with record := record, phase := turn.next record.trace.hub.publisher } : CaptureSystem).PhaseSound := by
  rw [SourceTurn.next]
  split_ifs with hidle
  · exact ⟨older, hcurrent, hsequence, hinfos, hidle⟩
  · exact ⟨older, hcurrent, hsequence, hinfos, hidle⟩

/-- The record gets a publish when it begins. -/
theorem infos_recordedStep {r r' : HubRecord} {e : HubEvent} (h : recordedStep r e = some r') :
    r'.infos = r.infos ++ (publishedInfo e r'.trace.hub.publisher).toList := by
  obtain ⟨t, -, rfl⟩ := Option.map_eq_some_iff.1 h
  rfl

theorem publishedInfo_sublist (info : FrameInfo) (p : Publisher) :
    (publishedInfo (.publish info) p).toList.Sublist [info] := by
  cases p with
  | filled frame => exact List.Sublist.refl _
  | idle | delivering | delivered => exact List.nil_sublist _

/-- While the hub copies it, the buffer is in the hands of the thread. -/
theorem CaptureSystem.Sound.publish (h : s.Sound capacity count n) (hs : sourceWorkerPublish s = some s') :
    s'.Sound capacity count n := by
  rw [sourceWorkerPublish] at hs
  have hphase := h.phase
  rw [CaptureSystem.PhaseSound] at hphase
  rcases hturn : s.phase with - | turn | turn | turn
  · rw [hturn] at hs
    exact absurd hs.symm (Option.some_ne_none s')
  · rw [hturn] at hs hphase
    dsimp only at hs
    obtain ⟨older, hcurrent, hsequence, hinfos, hpublisher⟩ := hphase
    have hsub := h.phase.infos_sublist
    split_ifs at hs with hnull
    · obtain rfl := Option.some.inj hs
      exact h.advance h.faithful (by rw [hturn]; rfl) ⟨older, hcurrent, hsequence, hsub, hpublisher⟩
    · obtain ⟨record, hrecord, rfl⟩ := Option.map_eq_some_iff.1 hs
      -- The picture is one that was dequeued, so it fits a frame of the hub.
      have hfits : (HubEvent.publish (s.info turn)).Fits capacity := by
        refine (h.fits (s.info turn) ?_).2.trans h.frameSize_le
        rw [hcurrent]
        exact List.mem_append_right _ List.mem_cons_self
      refine h.advance (h.faithful.step hfits hrecord) (by rw [hturn, buffer?_next]; rfl)
        (phaseSound_next hcurrent hsequence ?_)
      rw [infos_recordedStep hrecord, hcurrent]
      exact hinfos.append (publishedInfo_sublist _ _)
  · rw [hturn] at hs
    exact absurd hs.symm (Option.some_ne_none s')
  · rw [hturn] at hs
    exact absurd hs.symm (Option.some_ne_none s')

/-- So it is while the frame is delivered. -/
theorem CaptureSystem.Sound.publishNext (h : s.Sound capacity count n)
    (hs : sourceWorkerPublishNext s = some s') : s'.Sound capacity count n := by
  rw [sourceWorkerPublishNext] at hs
  have hphase := h.phase
  rw [CaptureSystem.PhaseSound] at hphase
  rcases hturn : s.phase with - | turn | turn | turn
  · rw [hturn] at hs
    exact absurd hs.symm (Option.some_ne_none s')
  · rw [hturn] at hs
    exact absurd hs.symm (Option.some_ne_none s')
  · rw [hturn] at hs hphase
    obtain ⟨older, hcurrent, hsequence, hinfos, -⟩ := hphase
    obtain ⟨record, hrecord, rfl⟩ := Option.map_eq_some_iff.1 hs
    have hfits : HubEvent.publishNext.Fits capacity := trivial
    refine h.advance (h.faithful.step hfits hrecord) (by rw [hturn, buffer?_next]; rfl)
      (phaseSound_next hcurrent hsequence ?_)
    rw [infos_recordedStep hrecord]
    exact (List.append_nil _).symm ▸ hinfos
  · rw [hturn] at hs
    exact absurd hs.symm (Option.some_ne_none s')

/-- A release gives the buffer back, or loses it. -/
theorem CaptureSystem.Sound.release (h : s.Sound capacity count n) {taken : Bool}
    (hs : sourceWorkerRelease s taken = some s') : s'.Sound capacity count n := by
  rw [sourceWorkerRelease] at hs
  have hphase := h.phase
  rw [CaptureSystem.PhaseSound] at hphase
  rcases hturn : s.phase with - | turn | turn | turn
  · rw [hturn] at hs
    exact absurd hs.symm (Option.some_ne_none s')
  · rw [hturn] at hs
    exact absurd hs.symm (Option.some_ne_none s')
  · rw [hturn] at hs
    exact absurd hs.symm (Option.some_ne_none s')
  · rw [hturn] at hs hphase
    obtain ⟨older, hcurrent, hsequence, hinfos, hpublisher⟩ := hphase
    have hlt : turn.picture.bufferIndex.toNat < count := by
      have hplaces := h.places turn.picture.bufferIndex.toNat
      rw [CaptureSystem.places, hturn, if_pos (buffer?_published turn)] at hplaces
      by_contra hge
      rw [if_neg hge] at hplaces
      omega
    have hindex : ¬ s.impl.bufferCount ≤ turn.picture.bufferIndex := by
      rw [UInt32.le_iff_toNat_le, h.count_eq]
      omega
    dsimp only at hs
    rw [v4l2Release, if_neg hindex] at hs
    obtain rfl := Option.some.inj hs
    -- wherever the buffer goes, the turn has ended
    have hended : ∀ queued refused : List ℕ, (∀ i, queued.count i + refused.count i =
        s.queued.count i + s.refused.count i + if turn.picture.bufferIndex.toNat = i then 1 else 0) →
        ({ s with
          queued := queued
          refused := refused
          phase := .idle
          sequence := s.sequence + 1
          captured := s.captured + 1 } : CaptureSystem).Sound capacity count n := by
      intro queued refused hcount
      refine { h with places := fun i ↦ ?_, captured_eq := congrArg (· + 1) h.captured_eq, phase := ?_ }
      · rw [← h.places i, CaptureSystem.places, CaptureSystem.places, hturn]
        show queued.count i + refused.count i + (if none = some i then 1 else 0) =
          _ + _ + if some turn.picture.bufferIndex.toNat = some i then 1 else 0
        simp only [hcount, Option.some.injEq, reduceCtorEq, if_false, Nat.add_zero]
      · refine ⟨?_, hinfos, hpublisher⟩
        show s.sequence + 1 = UInt64.ofNat s.pictures.length
        rw [hcurrent, List.length_append, List.length_singleton, hsequence, UInt64.ofNat_add]
        rfl
    rcases taken with - | -
    · refine hended _ _ fun i ↦ ?_
      rw [count_cons_nat, Nat.add_assoc]
    · refine hended _ _ fun i ↦ ?_
      rw [count_cons_nat, Nat.add_right_comm]

/-- A consumer does not move the producer. -/
theorem publisher_of_consumer {v v' : HubView} {e : HubEvent} (he : e.isProducer = false) (h : v.Step e v') :
    v'.publisher = v.publisher := by
  cases h with
  | subscribe | unsubscribe | free | miss | take | release => rfl
  | fail | fill | lock | deliver | unlock | finish => exact absurd he.symm Bool.false_ne_true

/-- Consumers have no part in the buffers. -/
theorem CaptureSystem.Sound.consumer (h : s.Sound capacity count n) {e : HubEvent} {record : HubRecord}
    (he : e.isProducer = false) (hrecord : recordedStep s.record e = some record) :
    ({ s with record := record } : CaptureSystem).Sound capacity count n := by
  have hfits : e.Fits capacity := by
    cases e with
    | publish | publishNext => exact absurd he.symm Bool.false_ne_true
    | subscribe | unsubscribe | free | take | release => exact trivial
  have hinfos : record.infos = s.record.infos := by
    rw [infos_recordedStep hrecord]
    cases e with
    | publish | publishNext => exact absurd he.symm Bool.false_ne_true
    | subscribe | unsubscribe | free | take | release => exact List.append_nil _
  have hpublisher : record.trace.hub.publisher = s.record.trace.hub.publisher := by
    obtain ⟨t, ht, rfl⟩ := Option.map_eq_some_iff.1 hrecord
    obtain ⟨hub, hhub, rfl⟩ := Option.map_eq_some_iff.1 ht
    exact publisher_of_consumer he (view_hubStep h.faithful.accounted hhub)
  have hphase := h.phase
  refine h.advance (h.faithful.step hfits hrecord) rfl ?_
  rw [CaptureSystem.PhaseSound] at hphase ⊢
  rw [hinfos, hpublisher]
  exact hphase

/-- The driver does not write to the buffer that the thread has in its hands. -/
theorem CaptureSystem.Sound.fill (h : s.Sound capacity count n) {i : ℕ} (hi : i ∈ s.queued)
    (bytes : ℕ → UInt8) :
    ({ s with mapped := Function.update s.mapped i bytes } : CaptureSystem).Sound capacity count n := by
  have hapart : ∀ turn older, s.phase.turn? = some turn → s.Current turn older →
      ({ s with mapped := Function.update s.mapped i bytes } : CaptureSystem).Current turn older := by
    intro turn older hturn hcurrent
    -- The driver writes to its own buffers, and that of the turn is not one of them.
    have hne : turn.picture.bufferIndex.toNat ≠ i := fun heq ↦ h.notMem_queued hturn (heq ▸ hi)
    rw [CaptureSystem.Current, CaptureSystem.info] at hcurrent ⊢
    dsimp only
    rw [Function.update_of_ne hne]
    exact hcurrent
  refine { h with places := h.places, phase := ?_ }
  have hphase := h.phase
  rw [CaptureSystem.PhaseSound] at hphase ⊢
  dsimp only
  rcases hturn : s.phase with - | turn | turn | turn
  · rw [hturn] at hphase
    exact hphase
  · rw [hturn] at hphase
    obtain ⟨older, hcurrent, hrest⟩ := hphase
    exact ⟨older, hapart turn older (by rw [hturn]; rfl) hcurrent, hrest⟩
  · rw [hturn] at hphase
    obtain ⟨older, hcurrent, hrest⟩ := hphase
    exact ⟨older, hapart turn older (by rw [hturn]; rfl) hcurrent, hrest⟩
  · rw [hturn] at hphase
    obtain ⟨older, hcurrent, hrest⟩ := hphase
    exact ⟨older, hapart turn older (by rw [hturn]; rfl) hcurrent, hrest⟩

/-- **Every step keeps the invariant.** -/
theorem CaptureSystem.Sound.step (h : s.Sound capacity count n) {e : CaptureEvent}
    (hs : captureStep s e = some s') : s'.Sound capacity count n := by
  cases e with
  | capture answers taken now => exact h.capture hs
  | publish => exact h.publish hs
  | publishNext => exact h.publishNext hs
  | release taken => exact h.release hs
  | fill i bytes =>
    rw [captureStep] at hs
    split_ifs at hs with hi
    obtain rfl := Option.some.inj hs
    exact h.fill hi bytes
  | consumer e =>
    rw [captureStep] at hs
    split_ifs at hs with he
    obtain ⟨record, hrecord, rfl⟩ := Option.map_eq_some_iff.1 hs
    exact h.consumer (Bool.eq_false_iff.2 he) hrecord

/-! ### The start -/

theorem streaming_of_v4l2SourceCreate {answers : V4l2CreateAnswers} (h : v4l2SourceCreate answers = .ok impl) :
    impl.streaming = false := by
  rcases v4l2SourceCreate_cases answers with ⟨impl', hfail, -⟩ | ⟨frameSize, count, -, -, heq⟩
  · rw [hfail] at h
    cases h
  · rw [heq] at h
    refine Table.loop_invariant (P := fun impl ↦ impl.streaming = false) rfl (fun i t t' ht hbody ↦ ?_) h
    rw [v4l2MapBuffer] at hbody
    rcases hquery : answers.queryBuf i with - | length
    · rw [hquery] at hbody
      cases hbody
    · rw [hquery] at hbody
      obtain ⟨buffers, -, hbody⟩ := Table.bind_eq_ok_iff.1 hbody
      split_ifs at hbody
      obtain rfl := Except.ok.inj hbody
      exact ht

variable {answers : V4l2CreateAnswers} {qbuf : ℕ → Bool} {streamOn : Bool} {format : SourceFormat}
  {mapped : ℕ → ℕ → UInt8} {poolCount : ℕ} {hub : FrameHub} {s₀ : CaptureSystem} {es : List CaptureEvent}

/-- At first the driver has every buffer. -/
theorem sourceWorkerStart_eq_some (hcreate : v4l2SourceCreate answers = .ok impl)
    (hstart : sourceWorkerStart impl qbuf streamOn format mapped hub = some s₀) :
    s₀ = ⟨{ impl with streaming := true }, format, List.range impl.bufferCount.toNat, [], mapped, .idle, 0, 0,
      .start hub, []⟩ := by
  have hstreaming := streaming_of_v4l2SourceCreate hcreate
  rw [sourceWorkerStart] at hstart
  split_ifs at hstart with hresult
  obtain rfl := Option.some.inj hstart
  have hstarted : (v4l2Start impl qbuf streamOn).2 = { impl with streaming := true } := by
    have hfailed : (-1 : ℤ) ≠ 0 := by decide
    rw [v4l2Start, hstreaming, if_neg Bool.false_ne_true] at hresult ⊢
    split_ifs at hresult ⊢
    · rfl
    · exact absurd hfailed hresult
    · exact absurd hfailed hresult
  rw [hstarted]

/-- **After the start** every buffer is with the driver. -/
theorem sound_sourceWorkerStart (hcreate : v4l2SourceCreate answers = .ok impl)
    (hhub : frameHubCreate impl.frameSize poolCount = some hub)
    (hstart : sourceWorkerStart impl qbuf streamOn format mapped hub = some s₀) :
    s₀.Sound impl.frameSize impl.bufferCount.toNat poolCount := by
  obtain rfl := sourceWorkerStart_eq_some hcreate hstart
  have hpublisher : hub.publisher = .idle := by
    obtain ⟨pool, -, rfl⟩ := Option.map_eq_some_iff.1 hhub
    rfl
  have hinside : impl.Inside := inside_of_v4l2SourceCreate hcreate
  refine ⟨hinside, rfl, Nat.le_refl _, faithful_start hhub, fun i ↦ ?_, ?_, ?_, rfl,
    rfl, List.Sublist.refl [], hpublisher⟩
  · show (List.range _).count i + 0 + 0 = _
    rw [List.count_range]
    rfl
  · exact fun info hinfo ↦ absurd hinfo List.not_mem_nil
  · exact fun k info hinfo ↦ absurd hinfo.symm (Option.some_ne_none info)

/-- By induction on the run. -/
theorem sound_of_run (hcreate : v4l2SourceCreate answers = .ok impl)
    (hhub : frameHubCreate impl.frameSize poolCount = some hub)
    (hstart : sourceWorkerStart impl qbuf streamOn format mapped hub = some s₀)
    (hrun : Run.exec captureStep s₀ es = some s) : s.Sound impl.frameSize impl.bufferCount.toNat poolCount :=
  Run.exec_invariant (P := CaptureSystem.Sound impl.frameSize impl.bufferCount.toNat poolCount)
    (fun _ _ _ h hs ↦ h.step hs) (sound_sourceWorkerStart hcreate hhub hstart) hrun

/-! ### What the consumers get -/

/-- The pictures that a consumer has taken, the first one first. -/
def takenPictures (c : ℕ) (r : HubRecord) : List FrameInfo :=
  (takes c r.trace.log).reduceOption.reverse.filterMap (r.infos[·]?)

/-- Reading a list at increasing places gives a part of it. -/
theorem filterMap_getElem?_sublist {α : Type*} {l : List α} {ks : List ℕ} (h : ks.Pairwise (· < ·)) :
    (ks.filterMap (l[·]?)).Sublist l := by
  suffices hdrop : ∀ k, (∀ j ∈ ks, k ≤ j) → (ks.filterMap (l[·]?)).Sublist (l.drop k) from
    hdrop 0 fun j _ ↦ Nat.zero_le j
  induction ks with
  | nil => exact fun k _ ↦ List.nil_sublist _
  | cons j ks ih =>
    intro k hk
    obtain ⟨hj, hks⟩ := List.pairwise_cons.1 h
    have hrest := ih hks (j + 1) hj
    refine List.Sublist.trans ?_ (List.drop_sublist_drop_left l (hk j List.mem_cons_self))
    rw [List.filterMap_cons]
    rcases hget : l[j]? with - | a
    · exact hrest.trans (List.drop_sublist_drop_left l (Nat.le_succ j))
    · obtain ⟨hlt, rfl⟩ := List.getElem?_eq_some_iff.1 hget
      rw [List.drop_eq_getElem_cons hlt]
      exact hrest.cons_cons _

theorem record_qbuf (s : CaptureSystem) (i : ℕ) (taken : Bool) : (s.qbuf i taken).record = s.record := by
  rcases taken with - | - <;> rfl

/-- The hub does not see a capture. -/
theorem record_sourceWorkerCapture {answers : V4l2CaptureAnswers} {taken : Bool} {now : UInt64}
    (hs : sourceWorkerCapture s answers taken now = some s') : s'.record = s.record := by
  have hdequeued (t : CaptureSystem) : (answers.dequeued.elim t fun buffer ↦
      { t with queued := t.queued.erase buffer.index.toNat }).record = t.record := by
    rcases answers.dequeued with - | buffer <;> rfl
  have hrecycled (t : CaptureSystem) (recycled : Option UInt32) :
      (recycled.elim t fun i ↦ t.qbuf i.toNat taken).record = t.record := by
    rcases recycled with - | i
    · rfl
    · exact record_qbuf _ _ _
  rw [sourceWorkerCapture] at hs
  split_ifs at hs
  rcases hcapture : v4l2Capture s.impl answers with fault | ⟨result, picture, recycled⟩
  · rw [hcapture] at hs
    cases hs
  · rw [hcapture] at hs
    rcases picture with - | picture <;>
      (obtain rfl := Option.some.inj hs; exact (hrecycled _ _).trans (hdequeued s))

/-- Nor does it see the end of a turn. -/
theorem record_sourceWorkerRelease {taken : Bool} (hs : sourceWorkerRelease s taken = some s') :
    s'.record = s.record := by
  rw [sourceWorkerRelease] at hs
  split at hs
  · obtain rfl := Option.some.inj hs
    rename_i turn _
    rcases (v4l2Release s.impl turn.picture.bufferIndex).1 with - | i
    · rfl
    · exact record_qbuf _ _ _
  · cases hs

/-- What a step of the publishing thread does to the hub. -/
theorem record_sourceWorkerPublish
    (hs : sourceWorkerPublish s = some s' ∨ sourceWorkerPublishNext s = some s') :
    s'.record = s.record ∨ ∃ e', recordedStep s.record e' = some s'.record := by
  rcases hs with hs | hs
  · rw [sourceWorkerPublish] at hs
    split at hs
    · split_ifs at hs
      · -- There is nothing to publish.
        obtain rfl := Option.some.inj hs
        exact .inl rfl
      · obtain ⟨record, hrecord, rfl⟩ := Option.map_eq_some_iff.1 hs
        exact .inr ⟨_, hrecord⟩
    · cases hs
  · rw [sourceWorkerPublishNext] at hs
    split at hs
    · obtain ⟨record, hrecord, rfl⟩ := Option.map_eq_some_iff.1 hs
      exact .inr ⟨_, hrecord⟩
    · cases hs

/-- A step of the system is a step of the hub or none. -/
theorem record_captureStep {e : CaptureEvent} (hs : captureStep s e = some s') :
    s'.record = s.record ∨ ∃ e', recordedStep s.record e' = some s'.record := by
  cases e with
  | capture answers taken now => exact .inl (record_sourceWorkerCapture hs)
  | publish => exact record_sourceWorkerPublish (.inl hs)
  | publishNext => exact record_sourceWorkerPublish (.inr hs)
  | release taken => exact .inl (record_sourceWorkerRelease hs)
  | fill i bytes =>
    -- The driver writes into a buffer that it has.
    rw [captureStep] at hs
    split_ifs at hs
    obtain rfl := Option.some.inj hs
    exact .inl rfl
  | consumer e =>
    rw [captureStep] at hs
    split_ifs at hs
    obtain ⟨record, hrecord, rfl⟩ := Option.map_eq_some_iff.1 hs
    exact .inr ⟨e, hrecord⟩

/-- The hub sees the steps of a run that concern it. -/
theorem exists_exec_record (hrun : Run.exec captureStep s₀ es = some s) :
    ∃ es', Run.exec recordedStep s₀.record es' = some s.record := by
  refine Run.exec_invariant (P := fun s ↦ ∃ es', Run.exec recordedStep s₀.record es' = some s.record)
    (fun t e t' ⟨es', h⟩ hs ↦ ?_) ⟨[], rfl⟩ hrun
  rcases record_captureStep hs with heq | ⟨e', he'⟩
  · exact ⟨es', heq ▸ h⟩
  · exact ⟨es' ++ [e'], Run.exec_snoc h he'⟩

/-- The pictures that a consumer takes are published ones, in their order. -/
theorem takenPictures_sublist (hhub : frameHubCreate impl.frameSize poolCount = some hub)
    {r : HubRecord} {es : List HubEvent} (hrun : Run.exec recordedStep (HubRecord.start hub) es = some r)
    (c : ℕ) : (takenPictures c r).Sublist r.infos := by
  have hmap := Run.exec_map trace_recordedStep (HubRecord.start hub) es
  rw [hrun] at hmap
  have hkept := kept_of_run c hhub hmap.symm
  have hincreasing : (takes c r.trace.log).reduceOption.Pairwise (· > ·) :=
    hkept.increasing.sublist
      ((List.sublist_append_right _ _).trans (takes_sublist_deliveries hkept.takes_pending))
  exact filterMap_getElem?_sublist (List.pairwise_reverse.2 hincreasing)

/-- **From the camera to a consumer.** In every run of the capture thread with its driver and the consumers of
the hub, when the buffers of the hub are as large as a picture of the source: whoever holds a frame sees a
picture as it was when its buffer was dequeued, with its number; a consumer takes a part of the captured
pictures, in their order; and what it has in its hands is one of these. -/
theorem pictures_of_capture_run (hcreate : v4l2SourceCreate answers = .ok impl)
    (hhub : frameHubCreate impl.frameSize poolCount = some hub)
    (hstart : sourceWorkerStart impl qbuf streamOn format mapped hub = some s₀)
    (hrun : Run.exec captureStep s₀ es = some s) :
    (∀ i, s.record.trace.hub.view.Held i → ∃ (k : ℕ) (info : FrameInfo), s.pictures[k]? = some info ∧
      info.sequence = UInt64.ofNat k ∧ s.record.trace.hub.pool.Shows i info) ∧
    (∀ c, (takenPictures c s.record).Sublist s.pictures) ∧
    ∀ c i, (c, i) ∈ s.record.trace.hub.taken →
      ∃ info ∈ takenPictures c s.record, s.record.trace.hub.pool.Shows i info := by
  have h := sound_of_run hcreate hhub hstart hrun
  have hpublished := h.phase.infos_sublist
  obtain ⟨es', hes'⟩ := exists_exec_record hrun
  have hrecord : s₀.record = .start hub := by rw [sourceWorkerStart_eq_some hcreate hstart]
  rw [hrecord] at hes'
  refine ⟨fun i hi ↦ ?_, fun c ↦ (takenPictures_sublist hhub hes' c).trans hpublished, fun c i hc ↦ ?_⟩
  · obtain ⟨info, hinfo, hshows⟩ := h.faithful.shows i hi
    obtain ⟨k, hk⟩ := List.getElem?_of_mem (hpublished.subset (List.mem_of_getElem? hinfo))
    exact ⟨k, info, hk, h.numbered k info hk, hshows⟩
  · obtain ⟨info, hinfo, hshows⟩ := h.faithful.shows i (.inr (.inl ⟨c, hc⟩))
    refine ⟨info, List.mem_filterMap.2 ⟨s.record.trace.number i, ?_, hinfo⟩, hshows⟩
    rw [List.mem_reverse, List.reduceOption_mem_iff]
    exact (h.faithful.kept c).hands i hc

/-- A camera with two buffers of eight bytes. -/
def sampleCameraCreate : V4l2CreateAnswers := ⟨some 8, some 2, fun _ ↦ some 8, some⟩

/-- A whole turn with a buffer that three bytes are in. -/
def sampleTurn (i : UInt32) (now : UInt64) : List CaptureEvent :=
  [.capture ⟨1, false, some ⟨i, false, 3⟩, false⟩ false now, .publish] ++ List.replicate 4 .publishNext ++
    [.release true]

/-- A consumer holds the first picture while the driver uses its buffer again, and another is published. -/
def sampleCapture : List CaptureEvent :=
  .consumer (.subscribe 7) :: sampleTurn 0 5 ++
    [.consumer (.take 7), .fill 0 fun _ ↦ 9, .capture ⟨1, false, some ⟨0, true, 3⟩, false⟩ true 6] ++
    sampleTurn 1 7

/-- What is left of the sample: the frames that are taken, the pictures and the buffers of the driver. -/
def sampleCaptured : Option (List (ℕ × ℕ) × ℕ × List ℕ) := do
  let impl ← (v4l2SourceCreate sampleCameraCreate).toOption
  let hub ← frameHubCreate impl.frameSize 3
  let s₀ ← sourceWorkerStart impl (fun _ ↦ true) true ⟨2, 1, 0, 2⟩ (fun _ _ ↦ 0) hub
  let s ← Run.exec captureStep s₀ sampleCapture
  some (s.record.trace.hub.taken, s.pictures.length, s.queued)

theorem sampleCaptured_eq : sampleCaptured = some ([(7, 2)], 2, [1, 0]) := by decide

theorem exists_sample_run : ∃ impl hub s₀ s, v4l2SourceCreate sampleCameraCreate = .ok impl ∧
    frameHubCreate impl.frameSize 3 = some hub ∧
    sourceWorkerStart impl (fun _ ↦ true) true ⟨2, 1, 0, 2⟩ (fun _ _ ↦ 0) hub = some s₀ ∧
    Run.exec captureStep s₀ sampleCapture = some s ∧ s.record.trace.hub.taken = [(7, 2)] ∧
    s.pictures.length = 2 ∧ s.queued = [1, 0] := by
  have h := sampleCaptured_eq
  rw [sampleCaptured] at h
  obtain ⟨impl, hcreate, h⟩ := Option.bind_eq_some_iff.1 h
  obtain ⟨hub, hhub, h⟩ := Option.bind_eq_some_iff.1 h
  obtain ⟨s₀, hstart, h⟩ := Option.bind_eq_some_iff.1 h
  obtain ⟨s, hrun, h⟩ := Option.bind_eq_some_iff.1 h
  have hcreate' : v4l2SourceCreate sampleCameraCreate = .ok impl := by
    rcases hc : v4l2SourceCreate sampleCameraCreate with fault | impl'
    · rw [hc] at hcreate
      exact absurd hcreate.symm (Option.some_ne_none impl)
    · rw [hc] at hcreate
      exact congrArg _ (Option.some.inj hcreate)
  injection Option.some.inj h with htaken hrest
  injection hrest with hpictures hqueued
  exact ⟨impl, hub, s₀, s, hcreate', hhub, hstart, hrun, htaken, hpictures, hqueued⟩

theorem pictures_of_capture_run_sample : ∃ s : CaptureSystem, s.pictures.length = 2 ∧
    (∀ c, (takenPictures c s.record).Sublist s.pictures) ∧
    ∃ info ∈ takenPictures 7 s.record, s.record.trace.hub.pool.Shows 2 info := by
  obtain ⟨impl, hub, s₀, s, hcreate, hhub, hstart, hrun, htaken, hpictures, -⟩ := exists_sample_run
  have h := pictures_of_capture_run hcreate hhub hstart hrun
  exact ⟨s, hpictures, h.2.1, h.2.2 7 2 (htaken ▸ List.mem_singleton_self _)⟩

/-- **Where the buffers are**, in every run: each is with the driver, with the thread or lost to a failed
`VIDIOC_QBUF`; the driver does not have the buffer that is being copied, which still holds what was dequeued;
when nothing was lost the driver has all of them between two turns. `captured` counts the turns, and a capture
never leaves the table of the buffers. -/
theorem buffers_of_capture_run (hcreate : v4l2SourceCreate answers = .ok impl)
    (hhub : frameHubCreate impl.frameSize poolCount = some hub)
    (hstart : sourceWorkerStart impl qbuf streamOn format mapped hub = some s₀)
    (hrun : Run.exec captureStep s₀ es = some s) :
    (∀ i, s.places i = if i < impl.bufferCount.toNat then 1 else 0) ∧
    (∀ turn, s.phase.turn? = some turn → turn.picture.bufferIndex.toNat ∉ s.queued ∧
      s.pictures.getLast? = some (s.info turn)) ∧
    (s.phase = .idle → s.captured = UInt64.ofNat s.pictures.length ∧
      (s.refused = [] → s.queued.Perm (List.range impl.bufferCount.toNat))) ∧
    ∀ answers, ∃ r, v4l2Capture s.impl answers = .ok r := by
  have h := sound_of_run hcreate hhub hstart hrun
  refine ⟨h.places, fun turn hturn ↦ ⟨h.notMem_queued hturn, ?_⟩, fun hidle ↦ ⟨?_, fun hrefused ↦ ?_⟩,
    exists_v4l2Capture h.inside⟩
  · obtain ⟨older, holder⟩ := h.phase.exists_current hturn
    rw [holder]
    exact List.getLast?_concat
  · have hphase := h.phase
    rw [CaptureSystem.PhaseSound, hidle] at hphase
    rw [h.captured_eq, hphase.1]
  · refine List.perm_iff_count.2 fun i ↦ ?_
    have hplaces := h.places i
    rw [CaptureSystem.places, hidle, hrefused] at hplaces
    rw [List.count_range, ← hplaces]
    rfl

theorem buffers_of_capture_run_sample : ∃ s : CaptureSystem, s.queued = [1, 0] ∧ s.places 0 = 1 ∧
    s.places 2 = 0 := by
  obtain ⟨impl, hub, s₀, s, hcreate, hhub, hstart, hrun, -, -, hqueued⟩ := exists_sample_run
  have h := (buffers_of_capture_run hcreate hhub hstart hrun).1
  have hcount : impl.bufferCount.toNat = 2 := by
    have heval : (v4l2SourceCreate sampleCameraCreate).toOption.map V4l2Source.bufferCount = some 2 := by decide
    rw [hcreate] at heval
    exact congrArg UInt32.toNat (Option.some.inj heval)
  rw [hcount] at h
  exact ⟨s, hqueued, h 0, h 2⟩

end Camstream
