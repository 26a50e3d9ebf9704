import Camstream.Media.Isolation
import Camstream.Media.KeepNewest

/-!
# What a consumer reads

A frame is filled once, by the publish that has acquired it, and read later by consumers that may hold it for
a long time. `recordedStep` runs the hub with the list of what was published, and `contents_of_run` says that
a frame in a mailbox, in the hands of a consumer or with the producer still has the bytes and the labels of
the publish whose number it has, as long as every picture fits a buffer.

It rests on two facts about a step: only `memcpy` writes bytes (`bytes_hubStep`), and no step but the begin of
a publish makes anybody hold a frame that nobody held (`HubView.Step.held`).
-/

namespace Camstream

/-! ### Holding a frame -/

/-- Somebody holds the frame. -/
def HubView.Held (v : HubView) (frame : ℕ) : Prop :=
  (∃ c ∈ v.live, v.slot c = some frame) ∨ (∃ c, (c, frame) ∈ v.taken) ∨ v.publisher.frame? = some frame

variable {v v' : HubView} {e : HubEvent} {frame : ℕ}

/-- A mailbox that holds a frame after one was emptied is another one. -/
theorem slot_of_emptied {slot : ℕ → Option ℕ} {c d : ℕ}
    (h : Function.update slot c none d = some frame) : d ≠ c ∧ slot d = some frame := by
  rcases eq_or_ne d c with rfl | hne
  · rw [Function.update_self] at h
    exact absurd h.symm (Option.some_ne_none frame)
  · rw [Function.update_of_ne hne] at h
    exact ⟨hne, h⟩

/-- **Who holds a frame after a step** held it before, or has just acquired it. -/
theorem HubView.Step.held (h : v.Step e v') (hheld : v'.Held frame) :
    v.Held frame ∨ acquiredFrame e v'.publisher = some frame := by
  -- Frames change hands; only a publish that begins makes somebody hold one that nobody held.
  cases h with
  | @subscribe c hlock hfresh =>
    refine .inl ?_
    rcases hheld with ⟨d, hd, hslot⟩ | htaken
    · obtain ⟨hne, hslot⟩ := slot_of_emptied hslot
      exact .inl ⟨d, (List.mem_cons.1 hd).resolve_left hne, hslot⟩
    · exact .inr htaken
  | @unsubscribe c hlock hlinked =>
    refine .inl (hheld.imp_left ?_)
    rintro ⟨d, hd, hslot⟩
    refine ⟨d, List.mem_append.2 ?_, hslot⟩
    rcases List.mem_append.1 hd with hd | hd
    · exact .inl (List.mem_of_mem_erase hd)
    · rcases List.mem_cons.1 hd with rfl | hd
      · exact .inl hlinked
      · exact .inr hd
  | @free c hunlinked =>
    refine .inl ?_
    rcases hheld with ⟨d, hd, hslot⟩ | htaken
    · obtain ⟨-, hslot⟩ := slot_of_emptied hslot
      exact .inl ⟨d, List.mem_append.2 ((List.mem_append.1 hd).imp_right List.mem_of_mem_erase), hslot⟩
    · exact .inr htaken
  | fail hidle => exact .inl hheld
  | @fill info frame' hidle hunheld =>
    rcases hheld with hslot | htaken | hpublisher
    · exact .inl (.inl hslot)
    · exact .inl (.inr (.inl htaken))
    · exact .inr hpublisher
  | lock hfilled =>
    refine .inl (hheld.imp_right (Or.imp_right fun hpublisher ↦ ?_))
    rw [hfilled]
    exact hpublisher
  | @deliver frame' c rest hloop =>
    refine .inl ?_
    -- The mailbox gets the frame that the producer has.
    have hown : v.publisher.frame? = some frame' := by rw [hloop]; rfl
    rcases hheld with ⟨d, hd, hslot⟩ | htaken | hpublisher
    · replace hslot : Function.update v.slot c (some frame') d = some frame := hslot
      rcases eq_or_ne d c with rfl | hne
      · rw [Function.update_self] at hslot
        exact .inr (.inr (hown.trans hslot))
      · rw [Function.update_of_ne hne] at hslot
        exact .inl ⟨d, hd, hslot⟩
    · exact .inr (.inl htaken)
    · exact .inr (.inr (hown.trans hpublisher))
  | unlock hloop =>
    refine .inl (hheld.imp_right (Or.imp_right fun hpublisher ↦ ?_))
    rw [hloop]
    exact hpublisher
  | finish hdelivered =>
    refine .inl (hheld.imp_right (Or.imp_right fun hpublisher ↦ ?_))
    exact absurd hpublisher.symm (Option.some_ne_none frame)
  | miss hlive hempty => exact .inl hheld
  | @take c frame' hlive hslot' =>
    refine .inl ?_
    rcases hheld with ⟨d, hd, hslot⟩ | ⟨d, htaken⟩ | hpublisher
    · exact .inl ⟨d, hd, (slot_of_emptied hslot).2⟩
    · rcases List.mem_cons.1 htaken with heq | htaken
      -- What the consumer has now was in its mailbox.
      · obtain ⟨-, rfl⟩ := Prod.mk.inj heq
        exact .inl ⟨c, hlive, hslot'⟩
      · exact .inr (.inl ⟨d, htaken⟩)
    · exact .inr (.inr hpublisher)
  | release htaken' =>
    refine .inl (hheld.imp_right (Or.imp_left ?_))
    rintro ⟨d, htaken⟩
    exact ⟨d, List.mem_of_mem_erase htaken⟩

/-! ### Labels -/

/-- What a frame says about itself, and where its bytes are. -/
structure FrameLabel where
  width : UInt32
  height : UInt32
  format : UInt32
  stride : UInt32
  size : ℕ
  sequence : UInt64
  timestampUs : UInt64
  data : ℕ
  deriving DecidableEq, Repr

def Frame.label (f : Frame) : FrameLabel :=
  ⟨f.width, f.height, f.format, f.stride, f.size, f.sequence, f.timestampUs, f.data⟩

/-- The label of a frame whose buffer begins at `data`. -/
def FrameInfo.label (info : FrameInfo) (data : ℕ) : FrameLabel :=
  ⟨info.width, info.height, info.format, info.stride, info.data.length, info.sequence, info.timestampUs, data⟩

/-- The labels of all frames. -/
def FramePool.labels (pool : FramePool) (i : ℕ) : FrameLabel := (pool.frames i).label

/-- A frame that keeps its labels. -/
theorem labels_setFrame (pool : FramePool) {i : ℕ} {f : Frame} (h : f.label = pool.labels i) :
    (pool.setFrame i f).labels = pool.labels := by
  funext j
  rcases eq_or_ne j i with rfl | hne
  · rw [FramePool.labels, setFrame_frames_self, h]
  · rw [FramePool.labels, setFrame_frames_of_ne hne, FramePool.labels]

/-- Counting references is no labelling. -/
theorem labels_frameRef (pool : FramePool) (i : ℕ) : (frameRef pool i).labels = pool.labels :=
  labels_setFrame pool rfl

theorem labels_frameUnref (pool : FramePool) (i : ℕ) : (frameUnref pool i).labels = pool.labels := by
  rw [frameUnref]
  dsimp only
  split_ifs with hdouble hlast
  · rfl
  · exact labels_setFrame pool (f := { pool.frames i with refcount := _, poolIndex := -1 }) rfl
  · exact labels_setFrame pool (f := { pool.frames i with refcount := _, poolIndex := -1 }) rfl
  · exact labels_setFrame pool (f := { pool.frames i with refcount := _ }) rfl

variable {hub hub' : FrameHub} {pool pool' : FramePool} {info : FrameInfo}

/-- Only a publish labels a frame. -/
theorem labels_hubStep (he : e.isPublish = false) (hs : hubStep hub e = some hub') :
    hub'.pool.labels = hub.pool.labels :=
  pool_hubStep (P := fun pool ↦ pool.labels = hub.pool.labels)
    (fun pool i h ↦ (labels_frameRef pool i).trans h) (fun pool i h ↦ (labels_frameUnref pool i).trans h) he hs
    rfl

/-- A frame shows what was published in it. -/
structure FramePool.Shows (pool : FramePool) (i : ℕ) (info : FrameInfo) : Prop where
  holds : pool.Holds i info.data
  label : pool.labels i = info.label (i * pool.capacity)

/-- A picture that fits is shown by the frame that was acquired for it, and the other frames show what they
have shown. -/
theorem shows_fillFrame {i : ℕ} (hacq : framePoolAcquire pool = .frame i pool')
    (hle : info.data.length ≤ pool.capacity) : (fillFrame pool' i info).Shows i info ∧
      ∀ j info', j ≠ i → pool.Shows j info' → (fillFrame pool' i info).Shows j info' := by
  obtain ⟨hholds, hothers⟩ := fillFrame_of_le hacq hle
  have hcapacity : (fillFrame pool' i info).capacity = pool.capacity :=
    (Prod.mk.inj (Prod.mk.inj (bytes_framePoolAcquire hacq)).2).1
  have hdata := data_framePoolAcquire hacq
  refine ⟨⟨hholds, ?_⟩, fun j info' hj h ↦ ⟨⟨?_, fun k hk ↦ ?_⟩, ?_⟩⟩
  · have hlabel : (fillFrame pool' i info).labels i = info.label (pool'.frames i).data := by
      rw [FramePool.labels, fillFrame, setFrame_frames_self]
      rfl
    rw [hlabel, hdata, hcapacity]
  · exact h.holds.1.trans_eq hcapacity.symm
  · rw [hcapacity, ← h.holds.2 k hk]
    exact hcapacity ▸ hothers j hj k (hk.trans_le h.holds.1)
  · have hlabel : (fillFrame pool' i info).labels j = pool.labels j := by
      obtain ⟨-, -, rfl⟩ := framePoolAcquire_eq_frame_iff.1 hacq
      rw [FramePool.labels, fillFrame, setFrame_frames_of_ne hj, setFrame_frames_of_ne hj]
      rfl
    rw [hlabel, h.label, hcapacity]

/-! ### The run -/

/-- What a publish has published with its first step, if it has got a frame. -/
def publishedInfo : HubEvent → Publisher → Option FrameInfo
  | .publish info, .filled _ => some info
  | _, _ => none

/-- The hub with its log and with everything that was published. -/
structure HubRecord where
  trace : HubTrace
  infos : List FrameInfo

/-- A new hub. -/
def HubRecord.start (hub : FrameHub) : HubRecord := ⟨.start hub, []⟩

def recordedStep (r : HubRecord) (e : HubEvent) : Option HubRecord :=
  (tracedStep r.trace e).map fun t ↦ ⟨t, r.infos ++ (publishedInfo e t.hub.publisher).toList⟩

/-- Whether a publish is of a picture that fits. -/
def HubEvent.Fits (capacity : ℕ) : HubEvent → Prop
  | .publish info => info.data.length ≤ capacity
  | _ => True

/-- Every held frame shows what was published under its number, and that is the number a consumer was given
it under. -/
structure HubRecord.Faithful (capacity n : ℕ) (r : HubRecord) : Prop where
  accounted : r.trace.hub.Accounted n
  kept : ∀ c, Kept c r.trace.hub.view r.trace.number r.trace.published r.trace.log
  capacity_eq : r.trace.hub.pool.capacity = capacity
  published_eq : r.trace.published = r.infos.length
  shows : ∀ i, r.trace.hub.view.Held i →
    ∃ info, r.infos[r.trace.number i]? = some info ∧ r.trace.hub.pool.Shows i info

variable {r r' : HubRecord} {capacity n : ℕ}

/-- A frame shows what it has shown as long as its bytes and labels stay. -/
theorem shows_of_bytes {i : ℕ} (hbytes : pool'.bytes = pool.bytes) (hlabels : pool'.labels = pool.labels)
    (h : pool.Shows i info) : pool'.Shows i info := by
  have hbacking : pool'.backing = pool.backing := congrArg Prod.fst hbytes
  have hcapacity : pool'.capacity = pool.capacity := congrArg (fun b ↦ b.2.1) hbytes
  refine ⟨⟨h.holds.1.trans_eq hcapacity.symm, fun k hk ↦ ?_⟩, ?_⟩
  · rw [hbacking, hcapacity]
    exact h.holds.2 k hk
  · rw [hlabels, hcapacity]
    exact h.label

/-- A step that acquires no frame and writes none. -/
theorem HubRecord.Faithful.keep (h : r.Faithful capacity n) (hhub : hubStep r.trace.hub e = some hub')
    (hacquired : acquiredFrame e hub'.publisher = none) (hpublished : publishedInfo e hub'.publisher = none)
    (hbytes : hub'.pool.bytes = r.trace.hub.pool.bytes) (hlabels : hub'.pool.labels = r.trace.hub.pool.labels)
    (hs : recordedStep r e = some r') : r'.Faithful capacity n := by
  obtain ⟨t, htrace, rfl⟩ := Option.map_eq_some_iff.1 hs
  have ht := htrace
  rw [tracedStep, hhub, Option.map_some, hacquired] at ht
  obtain rfl := Option.some.inj ht
  rw [hpublished, Option.toList_none, List.append_nil]
  refine ⟨accounted_hubStep h.accounted hhub, fun c ↦ (kept_tracedStep h.accounted (h.kept c) htrace).2,
    (measures_hubStep hhub).1.trans h.capacity_eq, h.published_eq, fun i hi ↦ ?_⟩
  have hheld := ((view_hubStep h.accounted hhub).held hi).resolve_right fun h ↦
    absurd (hacquired.symm.trans h).symm (Option.some_ne_none i)
  obtain ⟨info, hinfo, hshows⟩ := h.shows i hheld
  exact ⟨info, hinfo, shows_of_bytes hbytes hlabels hshows⟩

/-- **One step keeps what the frames show.** -/
theorem HubRecord.Faithful.step (h : r.Faithful capacity n) (hfits : e.Fits capacity)
    (hs : recordedStep r e = some r') : r'.Faithful capacity n := by
  obtain ⟨t, ht, -⟩ := Option.map_eq_some_iff.1 hs
  obtain ⟨hub', hhub, -⟩ := Option.map_eq_some_iff.1 ht
  cases e with
  | publish info =>
    obtain ⟨hidle, ⟨rfl, -⟩ | ⟨-, frame, pool, hacq, rfl⟩⟩ := frameHubPublish_cases hhub
    · exact h.keep hhub (by rw [hidle]; rfl) (by rw [hidle]; rfl) rfl rfl hs
    · obtain ⟨t, htrace, rfl⟩ := Option.map_eq_some_iff.1 hs
      have ht := htrace
      rw [tracedStep, hhub, Option.map_some] at ht
      obtain rfl := Option.some.inj ht
      refine ⟨accounted_hubStep h.accounted hhub, fun c ↦ (kept_tracedStep h.accounted (h.kept c) htrace).2,
        (measures_hubStep hhub).1.trans h.capacity_eq, ?_, fun i hi ↦ ?_⟩
      · show r.trace.published + 1 = (r.infos ++ [info]).length
        rw [List.length_append, List.length_singleton, h.published_eq]
      · obtain ⟨hself, hothers⟩ := shows_fillFrame hacq (hfits.trans_eq h.capacity_eq.symm)
        show ∃ info', (r.infos ++ [info])[Function.update r.trace.number frame r.trace.published i]? =
          some info' ∧ (fillFrame pool frame info).Shows i info'
        rcases eq_or_ne i frame with rfl | hne
        · rw [Function.update_self, h.published_eq]
          exact ⟨info, List.getElem?_concat_length, hself⟩
        · have hheld := ((view_hubStep h.accounted hhub).held hi).resolve_right fun heq ↦
            hne (Option.some.inj heq).symm
          obtain ⟨info', hinfo', hshows⟩ := h.shows i hheld
          rw [Function.update_of_ne hne]
          refine ⟨info', ?_, hothers i info' hne hshows⟩
          rwa [List.getElem?_append_left (List.getElem?_eq_some_iff.1 hinfo').1]
  | subscribe | unsubscribe | free | publishNext | take | release =>
    exact h.keep hhub rfl rfl (bytes_hubStep rfl hhub) (labels_hubStep rfl hhub) hs

/-- At first nobody holds anything. -/
theorem faithful_start {poolCount : ℕ} {hub : FrameHub} (h : frameHubCreate capacity poolCount = some hub) :
    (HubRecord.start hub).Faithful capacity poolCount := by
  have hmeasures := measures_of_run h (Run.exec_nil hub)
  obtain ⟨pool, -, rfl⟩ := Option.map_eq_some_iff.1 h
  refine ⟨accounted_frameHubCreate h, fun c ↦ kept_start h, hmeasures.1, rfl, ?_⟩
  rintro i (⟨c, hc, -⟩ | ⟨c, hc⟩ | hpublisher)
  · exact absurd hc List.not_mem_nil
  · exact absurd hc List.not_mem_nil
  · exact absurd hpublisher.symm (Option.some_ne_none i)

/-- The record is beside the hub: without it the step is that of the trace. -/
theorem trace_recordedStep (r : HubRecord) (e : HubEvent) :
    (recordedStep r e).map HubRecord.trace = tracedStep r.trace e := by
  rw [recordedStep, Option.map_map]
  exact congrFun Option.map_id _

/-- Recording does not get in the way. -/
theorem exists_exec_recordedStep {es : List HubEvent} {hub₀ hub : FrameHub}
    (hrun : Run.exec hubStep hub₀ es = some hub) :
    ∃ r, Run.exec recordedStep (HubRecord.start hub₀) es = some r ∧ r.trace.hub = hub := by
  obtain ⟨t, ht, rfl⟩ := exec_hubStep_iff.1 hrun
  have hmap := Run.exec_map trace_recordedStep (HubRecord.start hub₀) es
  obtain ⟨r, hr, rfl⟩ := Option.map_eq_some_iff.1 (hmap.trans ht)
  exact ⟨r, hr, rfl⟩

/-- **What a consumer reads.** In every run of a hub whose publishes fit a buffer, every frame that is in a
mailbox, in the hands of a consumer or with the producer shows the picture that was published under its
number, bytes and labels, and what a consumer has in its hands has the number that its take has returned. -/
theorem contents_of_run {bufferCapacity poolCount : ℕ} {hub₀ hub : FrameHub} {es : List HubEvent}
    (hcreate : frameHubCreate bufferCapacity poolCount = some hub₀)
    (hfits : ∀ e ∈ es, e.Fits bufferCapacity) (hrun : Run.exec hubStep hub₀ es = some hub) :
    ∃ r, Run.exec recordedStep (HubRecord.start hub₀) es = some r ∧ r.trace.hub = hub ∧
      r.Faithful bufferCapacity poolCount := by
  obtain ⟨r, hr, rfl⟩ := exists_exec_recordedStep hrun
  refine ⟨r, hr, rfl, ?_⟩
  exact Run.exec_invariant_mem (P := HubRecord.Faithful bufferCapacity poolCount)
    (fun _ e _ he h hs ↦ h.step (hfits e he) hs) (faithful_start hcreate) hr

/-- A consumer holds a first frame while two more are published. -/
def sampleHeld : List HubEvent :=
  [.subscribe 7, .publish ⟨[1, 2], 1, 1, 0, 2, 0, 0⟩] ++ List.replicate 4 .publishNext ++ [.take 7] ++
    .publish ⟨[3, 4], 1, 1, 0, 2, 1, 9⟩ :: List.replicate 4 .publishNext ++
    .publish ⟨[5, 6], 1, 1, 0, 2, 2, 18⟩ :: List.replicate 4 .publishNext

theorem contents_of_run_sample : ∃ hub₀ hub, frameHubCreate 2 3 = some hub₀ ∧
    Run.exec hubStep hub₀ sampleHeld = some hub ∧ hub.taken = [(7, 2)] ∧
    ∃ r, Run.exec recordedStep (HubRecord.start hub₀) sampleHeld = some r ∧ r.trace.hub = hub ∧
      r.Faithful 2 3 := by
  have heval : ((frameHubCreate 2 3).bind fun hub₀ ↦
      (Run.exec hubStep hub₀ sampleHeld).map FrameHub.taken) = some [(7, 2)] := by decide
  obtain ⟨hub₀, hcreate, heval⟩ := Option.bind_eq_some_iff.1 heval
  obtain ⟨hub, hrun, htaken⟩ := Option.map_eq_some_iff.1 heval
  refine ⟨hub₀, hub, hcreate, hrun, htaken, contents_of_run hcreate (fun e he ↦ ?_) hrun⟩
  have hfits : ∀ e ∈ sampleHeld, e.Fits 2 := by
    simp [sampleHeld, HubEvent.Fits]
  exact hfits e he

end Camstream
