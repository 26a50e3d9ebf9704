import Camstream.Media.EncoderWorker

/-!
# Which picture is in which access unit

The device emits its pictures in the order in which the frames were queued, and when it does is its own
affair. `m2m_encode` concatenates whatever is ready behind the frame it has just queued, and the worker
gives the result the timestamp of that frame. So an access unit is the picture of its frame exactly if the
call found that picture ready, and no other that it could copy.

`pictureStep` follows the frames through the device: it runs over the effects of a run of the worker, and
it is undefined on effects that no device shows which emits its pictures in order.
-/

namespace Camstream

/-- A picture that came out of the device, with the timestamp of the frame it encodes. -/
structure Picture where
  timestamp : ℕ × ℕ
  bytes : List UInt8
  deriving DecidableEq, Repr

/-- An access unit in the ring, with the pictures that were copied into it. -/
structure PushedUnit where
  out : List UInt8
  ptsUs : UInt64
  pictures : List Picture
  deriving DecidableEq, Repr

/-- The frames in the device whose pictures have not come out, the pictures that the last call has copied,
and the access units pushed so far. -/
structure PictureTrace where
  waiting : List (ℕ × ℕ)
  copied : List Picture
  units : List PushedUnit
  deriving DecidableEq, Repr

/-- What an effect means for the pictures. An encoded buffer without bytes is no picture. -/
def pictureStep (p : PictureTrace) : WorkerEffect → Option PictureTrace
  | .encoder (.m2m (.qbufOutput _ timestamp _ true)) =>
    some { p with waiting := p.waiting ++ [timestamp], copied := [] }
  | .encoder (.m2m (.dqbufCapture buffer copied)) =>
    if buffer.bytes = [] then some p
    else
      match p.waiting with
      | [] => none
      | timestamp :: waiting =>
        some
          { p with
            waiting := waiting
            copied := p.copied ++ if copied then [⟨timestamp, buffer.bytes⟩] else [] }
  | .pushed out ptsUs _ => some { p with units := p.units ++ [⟨out, ptsUs, p.copied⟩] }
  | _ => some p

/-- The pictures of a run, if they come out in order. -/
def pictureTrace (log : List WorkerEffect) : Option PictureTrace :=
  Run.exec pictureStep ⟨[], [], []⟩ log

/-- **An access unit is one picture, and has the timestamp of its frame.** -/
def PushedUnit.Right (unit : PushedUnit) : Prop :=
  unit.pictures = [⟨m2mTimestamp unit.ptsUs, unit.out⟩]

/-- The pictures that a device with these frames has ready, when it returns these buffers. -/
def readyPictures (waiting : List (ℕ × ℕ)) (buffers : List CaptureBuffer) : List Picture :=
  (waiting.zip (buffers.filter (·.bytes ≠ []))).map fun r ↦ ⟨r.1, r.2.bytes⟩

/-- The first ready picture that is short enough for an access unit, if there is one, encodes the frame
with this timestamp, and none of those behind it fits as well. -/
def OnTime (timestamp : ℕ × ℕ) : List Picture → Prop
  | [] => True
  | picture :: rest =>
    if auScratchCapacity < picture.bytes.length then OnTime timestamp rest
    else
      picture.timestamp = timestamp ∧
        ∀ later ∈ rest, auScratchCapacity < picture.bytes.length + later.bytes.length

/-- If the event is an encode call that gets its frame to the device, the device is on time with it. -/
def CallOnTime (v : WorkerView) (p : PictureTrace) (e : WorkerEvent) : Prop :=
  ∀ answers ptsUs forceIdr, e = .encode (.m2m answers) → v.phase = .exchanged ptsUs forceIdr →
    ¬ v.backend.Broken → v.backend.Hands (.m2m answers) →
      OnTime (m2mTimestamp ptsUs)
        (readyPictures (p.waiting ++ [m2mTimestamp ptsUs]) answers.encoded)

/-! ### What the drain loop copies -/

/-- The pictures that are copied, behind `n` bytes. -/
def keptPictures (n : ℕ) : List Picture → List Picture
  | [] => []
  | picture :: rest =>
    if auScratchCapacity < n + picture.bytes.length then keptPictures n rest
    else picture :: keptPictures (n + picture.bytes.length) rest

/-- Nothing is kept if and only if nothing fits. -/
theorem keptPictures_eq_nil_iff {n : ℕ} {pictures : List Picture} :
    keptPictures n pictures = [] ↔
      ∀ picture ∈ pictures, auScratchCapacity < n + picture.bytes.length := by
  induction pictures with
  | nil => exact ⟨fun _ ↦ nofun, fun _ ↦ rfl⟩
  | cons picture rest ih =>
    rw [keptPictures, List.forall_mem_cons]
    split_ifs with hlong
    · rw [ih]
      exact ⟨fun h ↦ ⟨hlong, h⟩, And.right⟩
    · exact ⟨False.elim, fun h ↦ absurd h.1 hlong⟩

/-- **On time means that at most one picture is copied, and that it is the right one.** -/
theorem onTime_iff {timestamp : ℕ × ℕ} {pictures : List Picture} :
    OnTime timestamp pictures ↔ keptPictures 0 pictures = [] ∨
      ∃ bytes, keptPictures 0 pictures = [⟨timestamp, bytes⟩] := by
  induction pictures with
  | nil => exact ⟨fun _ ↦ .inl rfl, fun _ ↦ trivial⟩
  | cons picture rest ih =>
    rw [OnTime, keptPictures, Nat.zero_add]
    split_ifs with hlong
    · exact ih
    · rw [← keptPictures_eq_nil_iff]
      constructor
      · rintro ⟨rfl, hnone⟩
        exact .inr ⟨picture.bytes, by rw [hnone]⟩
      · rintro (hnil | ⟨bytes, hone⟩)
        · exact hnil.elim
        · obtain ⟨rfl, hnone⟩ := List.cons.inj hone
          exact ⟨rfl, hnone⟩

/-- The effects of collecting some buffers, seen from the worker. -/
def captureEffects (captured : List (CaptureBuffer × Bool)) : List WorkerEffect :=
  captured.map fun c ↦ .encoder (.m2m (.dqbufCapture c.1 c.2))

/-- An empty buffer is no picture, and takes no timestamp. -/
theorem readyPictures_of_empty {buffer : CaptureBuffer} (h : buffer.bytes = [])
    (waiting : List (ℕ × ℕ)) (buffers : List CaptureBuffer) :
    readyPictures waiting (buffer :: buffers) = readyPictures waiting buffers := by
  rw [readyPictures, List.filter_cons_of_neg (by simpa using h), readyPictures]

/-- A picture gets the oldest timestamp that waits. -/
theorem readyPictures_cons {buffer : CaptureBuffer} (h : buffer.bytes ≠ []) (timestamp : ℕ × ℕ)
    (waiting : List (ℕ × ℕ)) (buffers : List CaptureBuffer) :
    readyPictures (timestamp :: waiting) (buffer :: buffers) =
      ⟨timestamp, buffer.bytes⟩ :: readyPictures waiting buffers := by
  rw [readyPictures, List.filter_cons_of_pos (by simpa using h), List.zip_cons_cons, List.map_cons,
    readyPictures]

/-- A picture that comes out is that of the frame that has waited longest. -/
theorem pictureStep_dqbufCapture {p p' : PictureTrace} {buffer : CaptureBuffer} {copied : Bool}
    (h : pictureStep p (.encoder (.m2m (.dqbufCapture buffer copied))) = some p') :
    (buffer.bytes = [] ∧ p' = p) ∨ buffer.bytes ≠ [] ∧ ∃ timestamp waiting,
      p.waiting = timestamp :: waiting ∧ p' = ⟨waiting,
        p.copied ++ if copied then [⟨timestamp, buffer.bytes⟩] else [], p.units⟩ := by
  rw [pictureStep] at h
  by_cases hempty : buffer.bytes = []
  · rw [if_pos hempty] at h
    exact .inl ⟨hempty, (Option.some.inj h).symm⟩
  · rw [if_neg hempty] at h
    rcases hwaiting : p.waiting with - | ⟨timestamp, waiting⟩ <;>
      simp only [hwaiting, Option.some.injEq, reduceCtorEq] at h
    exact .inr ⟨hempty, timestamp, waiting, rfl, h.symm⟩

/-- **The drain loop copies the ready pictures as long as they fit**, and what it has written are their
bytes. -/
theorem exists_captured (buffers : List CaptureBuffer) (drained : M2mDrained) :
    ∃ captured, (buffers.foldl (m2mCollect auScratchCapacity) drained).ioctls =
        drained.ioctls ++ captured.map (fun c ↦ .dqbufCapture c.1 c.2) ∧
      ∀ p p', Run.exec pictureStep p (captureEffects captured) = some p' →
        let kept := keptPictures drained.out.length (readyPictures p.waiting buffers)
        p'.units = p.units ∧ p'.copied = p.copied ++ kept ∧
          (buffers.foldl (m2mCollect auScratchCapacity) drained).out =
            drained.out ++ (kept.map Picture.bytes).flatten := by
  induction buffers generalizing drained with
  | nil =>
    refine ⟨[], (List.append_nil _).symm, fun p p' hrun ↦ ?_⟩
    obtain rfl := Option.some.inj hrun
    rw [readyPictures, List.filter_nil, List.zip_nil_right]
    exact ⟨rfl, (List.append_nil _).symm, (List.append_nil _).symm⟩
  | cons buffer buffers ih =>
    obtain ⟨captured, hioctls, hpictures⟩ := ih (m2mCollect auScratchCapacity drained buffer)
    rw [List.foldl_cons]
    by_cases hcopied : 0 < buffer.bytes.length ∧
        ¬ auScratchCapacity < drained.out.length + buffer.bytes.length
    · -- The buffer is a picture, and is copied.
      have hcollect : m2mCollect auScratchCapacity drained buffer =
        ⟨drained.out ++ buffer.bytes, drained.isIdr || buffer.keyframe,
          drained.ioctls ++ [.dqbufCapture buffer true]⟩ := if_pos hcopied
      refine ⟨(buffer, true) :: captured, ?_, fun p p' hrun ↦ ?_⟩
      · rw [hioctls, hcollect, List.append_assoc]
        rfl
      · rw [captureEffects, List.map_cons, Run.exec_cons] at hrun
        obtain ⟨p₁, hp₁, hrun⟩ := Option.bind_eq_some_iff.1 hrun
        obtain ⟨hunits, hkept, hout⟩ := hpictures p₁ p' hrun
        rcases pictureStep_dqbufCapture hp₁ with
          ⟨hempty, -⟩ | ⟨hne, timestamp, waiting, hwaiting, rfl⟩
        · exact absurd hempty (List.ne_nil_of_length_pos hcopied.1)
        · rw [hcollect] at hkept hout ⊢
          rw [hwaiting, readyPictures_cons hne, keptPictures, if_neg hcopied.2, ← List.length_append]
          refine ⟨hunits, hkept.trans (List.append_assoc _ _ _), hout.trans ?_⟩
          rw [List.map_cons, List.flatten_cons, ← List.append_assoc]
    · -- The buffer is left out, and is no picture or too long a one.
      have hcollect : m2mCollect auScratchCapacity drained buffer =
        { drained with ioctls := drained.ioctls ++ [.dqbufCapture buffer false] } := if_neg hcopied
      refine ⟨(buffer, false) :: captured, ?_, fun p p' hrun ↦ ?_⟩
      · rw [hioctls, hcollect, List.append_assoc]
        rfl
      · rw [captureEffects, List.map_cons, Run.exec_cons] at hrun
        obtain ⟨p₁, hp₁, hrun⟩ := Option.bind_eq_some_iff.1 hrun
        have hpictures := hpictures p₁ p' hrun
        rw [hcollect] at hpictures ⊢
        rcases pictureStep_dqbufCapture hp₁ with
          ⟨hempty, rfl⟩ | ⟨hne, timestamp, waiting, hwaiting, rfl⟩
        · rw [readyPictures_of_empty hempty]
          exact hpictures
        · have hlong : auScratchCapacity < drained.out.length + buffer.bytes.length := by
            by_contra hfits
            exact hcopied ⟨List.length_pos_of_ne_nil hne, hfits⟩
          obtain ⟨hunits, hkept, hout⟩ := hpictures
          rw [hwaiting, readyPictures_cons hne, keptPictures, if_pos hlong]
          refine ⟨hunits, hkept.trans ?_, hout⟩
          rw [if_neg Bool.false_ne_true, List.append_nil]

/-! ### One encode call -/

/-- The effects of acquiring an input buffer have no part in the pictures. -/
theorem exec_pictureStep_acquired {encoder encoder' : M2mBackend} {answers : M2mAnswers} {index : ℕ}
    {ioctls : List M2mIoctl} (p : PictureTrace)
    (hacq : m2mAcquireInputBuffer encoder answers = (some index, encoder', ioctls)) :
    Run.exec pictureStep p (ioctls.map fun ioctl ↦ .encoder (.m2m ioctl)) = some p := by
  rcases m2mAcquireInputBuffer_cases encoder answers with h | ⟨n, -, h⟩ | ⟨i, h⟩ <;>
    rw [h] at hacq <;> obtain ⟨-, hrest⟩ := Prod.mk.inj hacq <;>
    obtain ⟨-, rfl⟩ := Prod.mk.inj hrest <;> rfl

/-- **What a call of the hardware encoder does to the pictures**: it copies those that are ready behind its
own frame, or it does not get its frame to the device, and returns nothing. -/
theorem pictures_of_m2mEncode {encoder : M2mBackend} {answers : M2mAnswers} {ptsUs : UInt64}
    {forceIdr : Bool} {p p' : PictureTrace}
    (hrun : Run.exec pictureStep p ((m2mEncode encoder ptsUs forceIdr auScratchCapacity answers).2.2.map
      fun ioctl ↦ .encoder (.m2m ioctl)) = some p') :
    p'.units = p.units ∧
      (((64 < encoder.errors ∨ ¬ (H264Backend.m2m encoder).Hands (.m2m answers)) ∧
          (m2mEncode encoder ptsUs forceIdr auScratchCapacity answers).1.result ≤ 0) ∨
        (¬ 64 < encoder.errors ∧ (H264Backend.m2m encoder).Hands (.m2m answers)) ∧
          p'.copied = keptPictures 0
            (readyPictures (p.waiting ++ [m2mTimestamp ptsUs]) answers.encoded) ∧
          (m2mEncode encoder ptsUs forceIdr auScratchCapacity answers).1.out =
            (p'.copied.map Picture.bytes).flatten ∧
          (m2mEncode encoder ptsUs forceIdr auScratchCapacity answers).1.result =
            if 0 < (m2mEncode encoder ptsUs forceIdr auScratchCapacity answers).1.out.length
              then 1 else 0) := by
  -- Too many errors, no buffer, a buffer that the driver refuses, and last a picture that it takes.
  by_cases herrors : 64 < encoder.errors
  · have he : m2mEncode encoder ptsUs forceIdr auScratchCapacity answers =
      (⟨-1, [], false⟩, encoder, []) := if_pos herrors
    rw [he] at hrun ⊢
    obtain rfl := Option.some.inj hrun
    exact ⟨rfl, .inl ⟨.inl herrors, by simp⟩⟩
  rcases m2mEncode_cases encoder ptsUs forceIdr auScratchCapacity answers with
    ⟨h, -⟩ | ⟨hnone, he⟩ | ⟨index, encoder', acquired, hacq, ⟨hq, he⟩ | ⟨hq, he⟩⟩
  · exact absurd h herrors
  · rw [he] at hrun ⊢
    obtain rfl := Option.some.inj hrun
    exact ⟨rfl, .inl ⟨.inr fun hhands ↦ hhands.1 hnone, Int.le_refl 0⟩⟩
  · rw [he] at hrun ⊢
    rw [List.map_append] at hrun
    obtain ⟨p₁, hp₁, hqbuf⟩ := Run.exists_of_exec_append hrun
    obtain rfl := Option.some.inj ((exec_pictureStep_acquired p hacq).symm.trans hp₁)
    obtain rfl := Option.some.inj hqbuf
    refine ⟨rfl, .inl ⟨.inr fun hhands ↦ ?_, Int.le_refl 0⟩⟩
    exact Bool.false_ne_true (hq.symm.trans hhands.2)
  · rw [he, m2mDrainReady_eq] at hrun ⊢
    obtain ⟨captured, hioctls, hpictures⟩ := exists_captured answers.encoded
      ⟨[], false, acquired ++ [.qbufOutput index (m2mTimestamp ptsUs) forceIdr true]⟩
    dsimp only at hrun hioctls ⊢
    rw [hioctls, List.map_append, List.map_append, List.map_map] at hrun
    obtain ⟨p₂, hp₂, hcaptured⟩ := Run.exists_of_exec_append hrun
    obtain ⟨p₁, hp₁, hqbuf⟩ := Run.exists_of_exec_append hp₂
    obtain rfl := Option.some.inj ((exec_pictureStep_acquired p hacq).symm.trans hp₁)
    obtain rfl := Option.some.inj hqbuf
    obtain ⟨hunits, hcopied, hout⟩ := hpictures _ p' hcaptured
    refine ⟨hunits, .inr ⟨⟨herrors, ?_, hq⟩, hcopied, ?_, rfl⟩⟩
    · rw [hacq]
      exact Option.some_ne_none _
    · rw [hcopied]
      exact hout

/-! ### Runs -/

/-- The access unit that the thread has in its hands, with its pictures. -/
def WorkerPhase.inHands (pictures : List Picture) : WorkerPhase → Option PushedUnit
  | encoded ptsUs out _ | cleared ptsUs out _ => some ⟨out, ptsUs, pictures⟩
  | _ => none

/-- The access units that are in the ring or on their way to it. -/
def PictureTrace.allUnits (p : PictureTrace) (phase : WorkerPhase) : List PushedUnit :=
  p.units ++ (phase.inHands p.copied).toList

theorem ne_nil_of_mem_readyPictures {waiting : List (ℕ × ℕ)} {buffers : List CaptureBuffer}
    {picture : Picture} (h : picture ∈ readyPictures waiting buffers) : picture.bytes ≠ [] := by
  obtain ⟨r, hr, rfl⟩ := List.mem_map.1 h
  have hmem := (List.mem_filter.1 (List.of_mem_zip hr).2).2
  simpa using hmem

/-- What is kept was ready. -/
theorem mem_of_mem_keptPictures {n : ℕ} {pictures : List Picture} {picture : Picture}
    (h : picture ∈ keptPictures n pictures) : picture ∈ pictures := by
  induction pictures generalizing n with
  | nil => exact h
  | cons first rest ih =>
    rw [keptPictures] at h
    split_ifs at h
    · exact List.mem_cons_of_mem _ (ih h)
    · rcases List.mem_cons.1 h with rfl | h
      · exact List.mem_cons_self
      · exact List.mem_cons_of_mem _ (ih h)

/-- A call that has copied nothing was on time. -/
theorem onTime_of_flatten_eq_nil {timestamp : ℕ × ℕ} {waiting : List (ℕ × ℕ)}
    {buffers : List CaptureBuffer}
    (h : ((keptPictures 0 (readyPictures waiting buffers)).map Picture.bytes).flatten = []) :
    OnTime timestamp (readyPictures waiting buffers) := by
  refine onTime_iff.2 (.inl (List.eq_nil_iff_forall_not_mem.2 fun picture hmem ↦ ?_))
  refine ne_nil_of_mem_readyPictures (mem_of_mem_keptPictures hmem) ?_
  exact List.flatten_eq_nil_iff.1 h _ (List.mem_map_of_mem hmem)

/-- A call that has copied something was on time if the access unit is right. -/
theorem onTime_iff_right (ptsUs : UInt64) {out : List UInt8} {ready copied : List Picture}
    (hcopied : copied = keptPictures 0 ready) (hout : out = (copied.map Picture.bytes).flatten)
    (hne : out ≠ []) : PushedUnit.Right ⟨out, ptsUs, copied⟩ ↔ OnTime (m2mTimestamp ptsUs) ready := by
  rw [onTime_iff, ← hcopied]
  constructor
  · exact fun h ↦ .inr ⟨out, h⟩
  · rintro (hnil | ⟨bytes, hone⟩)
    · rw [hnil] at hout
      exact absurd hout hne
    · have hbytes : out = bytes := by
        rw [hout, hone]
        exact List.append_nil _
      rw [PushedUnit.Right, hbytes, hone]

/-- An encode call adds an access unit that is right if the call is on time. -/
theorem allUnits_encode {v : WorkerView} {p p' : PictureTrace} {encoder : M2mBackend}
    {answers : M2mAnswers} {ptsUs : UInt64} {forceIdr : Bool} (hbackend : v.backend = .m2m encoder)
    (hphase : v.phase = .exchanged ptsUs forceIdr)
    (hcall : Run.exec pictureStep p
      ((m2mEncode encoder ptsUs forceIdr auScratchCapacity answers).2.2.map
        fun ioctl ↦ .encoder (.m2m ioctl)) = some p') :
    (∀ unit ∈ p'.allUnits
        ((m2mEncode encoder ptsUs forceIdr auScratchCapacity answers).1.next ptsUs), unit.Right) ↔
      (∀ unit ∈ p.allUnits v.phase, unit.Right) ∧ CallOnTime v p (.encode (.m2m answers)) := by
  obtain ⟨hunits, hcases⟩ := pictures_of_m2mEncode hcall
  set outcome := (m2mEncode encoder ptsUs forceIdr auScratchCapacity answers).1
  have hbefore : p.allUnits v.phase = p.units := by
    rw [PictureTrace.allUnits, hphase]
    exact List.append_nil _
  rw [hbefore]
  have hcall : CallOnTime v p (.encode (.m2m answers)) ↔
      (¬ 64 < encoder.errors → (H264Backend.m2m encoder).Hands (.m2m answers) →
        OnTime (m2mTimestamp ptsUs)
          (readyPictures (p.waiting ++ [m2mTimestamp ptsUs]) answers.encoded)) := by
    constructor
    · intro h herrors hhands
      exact h answers ptsUs forceIdr rfl hphase (hbackend ▸ herrors) (hbackend ▸ hhands)
    · intro h answers' ptsUs' forceIdr' heq hphase' hbroken hhands
      obtain rfl := H264Answers.m2m.inj (WorkerEvent.encode.inj heq)
      obtain ⟨rfl, -⟩ := WorkerPhase.exchanged.inj (hphase.symm.trans hphase')
      rw [hbackend] at hbroken hhands
      exact h hbroken hhands
  rw [hcall]
  rcases hcases with ⟨hnot, hle⟩ | ⟨⟨herrors, hhands⟩, hcopied, hout, hresult⟩
  · -- The frame does not get to the device.
    have hnone : (outcome.next ptsUs).inHands p'.copied = none := by
      rw [EncodeOutcome.next]
      split_ifs with hneg hzero
      · rfl
      · rfl
      · omega
    rw [PictureTrace.allUnits, hnone, hunits, Option.toList_none, List.append_nil]
    refine ⟨fun h ↦ ⟨h, fun herrors hhands ↦ ?_⟩, And.left⟩
    rcases hnot with herrors' | hhands'
    · exact absurd herrors' herrors
    · exact absurd hhands hhands'
  · by_cases hempty : outcome.out = []
    · -- Nothing is copied, and the thread returns to the top.
      have hnext : outcome.next ptsUs = .top := by
        rw [EncodeOutcome.next, hresult, hempty]
        rfl
      rw [hempty, hcopied] at hout
      have hnone : WorkerPhase.top.inHands p'.copied = none := rfl
      rw [PictureTrace.allUnits, hnext, hunits, hnone, Option.toList_none, List.append_nil]
      exact ⟨fun h ↦ ⟨h, fun _ _ ↦ onTime_of_flatten_eq_nil hout.symm⟩, And.left⟩
    · have hnext : outcome.next ptsUs = .encoded ptsUs outcome.out outcome.isIdr := by
        rw [EncodeOutcome.next, hresult, if_pos (List.length_pos_of_ne_nil hempty)]
        rfl
      have hunit := onTime_iff_right ptsUs hcopied hout hempty
      rw [PictureTrace.allUnits, hnext, hunits, List.forall_mem_append]
      refine and_congr_right fun _ ↦ ?_
      rw [WorkerPhase.inHands, Option.toList_some, List.forall_mem_singleton, hunit]
      exact ⟨fun h _ _ ↦ h, fun h ↦ h herrors hhands⟩

/-- **What one step adds to the access units is right if the call is on time.** -/
theorem allUnits_step {v v' : WorkerView} {e : WorkerEvent} {p p' : PictureTrace} {encoder : M2mBackend}
    (hbackend : v.backend = .m2m encoder) (hs : v.Step e v') (hp : pictureTrace v.log = some p)
    (hp' : pictureTrace v'.log = some p') :
    ((∀ unit ∈ p'.allUnits v'.phase, unit.Right) ↔
        (∀ unit ∈ p.allUnits v.phase, unit.Right) ∧ CallOnTime v p e) ∧
      ∃ encoder', v'.backend = .m2m encoder' := by
  have hsame : p' = p → (v'.phase.inHands p.copied = v.phase.inHands p.copied) →
      (∀ answers, e ≠ .encode answers) → ((∀ unit ∈ p'.allUnits v'.phase, unit.Right) ↔
        (∀ unit ∈ p.allUnits v.phase, unit.Right) ∧ CallOnTime v p e) := by
    rintro rfl hphase he
    rw [PictureTrace.allUnits, hphase]
    exact ⟨fun h ↦ ⟨h, fun answers _ _ heq ↦ absurd heq (he _)⟩, And.left⟩
  cases hs with
  | idle he =>
    refine ⟨hsame (Option.some.inj (hp'.symm.trans hp)) rfl ?_, encoder, hbackend⟩
    rintro answers rfl
    exact Bool.false_ne_true he
  | request =>
    obtain ⟨p₁, hp₁, hlast⟩ := Run.exists_of_exec_snoc hp'
    obtain rfl := Option.some.inj (hp.symm.trans hp₁)
    exact ⟨hsame (Option.some.inj hlast).symm rfl nofun, encoder, hbackend⟩
  | leave hphase | take hphase | exchange hphase | clear hphase =>
    refine ⟨hsame (Option.some.inj (hp'.symm.trans hp)) ?_ nofun, encoder, hbackend⟩
    rw [hphase]
    rfl
  | @push ptsUs out isIdr hphase =>
    obtain ⟨p₁, hp₁, hlast⟩ := Run.exists_of_exec_snoc hp'
    obtain rfl := Option.some.inj (hp.symm.trans hp₁)
    obtain rfl := Option.some.inj hlast
    refine ⟨?_, encoder, hbackend⟩
    -- The access unit goes from the hands of the thread to the ring.
    have hunits : PictureTrace.allUnits ⟨p.waiting, p.copied, p.units ++ [⟨out, ptsUs, p.copied⟩]⟩ .top =
        p.allUnits v.phase := by
      rw [PictureTrace.allUnits, PictureTrace.allUnits, hphase]
      exact List.append_nil _
    show (∀ unit ∈ PictureTrace.allUnits _ .top, unit.Right) ↔ _
    rw [hunits]
    exact ⟨fun h ↦ ⟨h, nofun⟩, And.left⟩
  | @encode ptsUs forceIdr answers outcome backend effects hphase hencode =>
    rw [hbackend] at hencode
    rcases answers with answers | answers
    · obtain ⟨rfl, hrest⟩ := Prod.mk.inj (Option.some.inj hencode)
      obtain ⟨rfl, rfl⟩ := Prod.mk.inj hrest
      obtain ⟨p₁, hp₁, hcall⟩ := Run.exists_of_exec_append hp'
      obtain rfl := Option.some.inj (hp.symm.trans hp₁)
      rw [List.map_map] at hcall
      exact ⟨allUnits_encode hbackend hphase hcall, _, rfl⟩
    · exact absurd hencode.symm (Option.some_ne_none _)

/-- The log only grows. -/
theorem exists_log_step {v v' : WorkerView} {e : WorkerEvent} (hs : v.Step e v') :
    ∃ new, v'.log = v.log ++ new := by
  cases hs with
  | idle | leave | take | exchange | clear => exact ⟨[], (List.append_nil _).symm⟩
  | request | encode | push => exact ⟨_, rfl⟩

/-- The law for a run: every access unit in the ring is the picture of its frame. -/
def AccessUnitContract (p : PictureTrace) : Prop :=
  ∀ unit ∈ p.units, unit.Right

/-- **The access units of a run are right, including the one that is on its way to the ring, exactly if
the device was on time in every call.** -/
theorem allUnits_of_run {start : EncoderWorker} {encoder : M2mBackend} (hfits : start.Fits)
    (hview : start.view.log = [] ∧ start.view.phase = .top ∧ start.view.backend = .m2m encoder)
    {events : List WorkerEvent} {worker : EncoderWorker} {p : PictureTrace}
    (hrun : Run.exec workerEventStep start events = some worker)
    (hdriver : pictureTrace worker.log = some p) :
    ((∀ unit ∈ p.allUnits worker.phase, unit.Right) ↔
        ∀ events' e worker' p', events' ++ [e] <+: events →
          Run.exec workerEventStep start events' = some worker' →
          pictureTrace worker'.log = some p' → CallOnTime worker'.view p' e) ∧
      worker.Fits ∧ ∃ encoder', worker.view.backend = .m2m encoder' := by
  induction events using List.reverseRecOn generalizing worker p with
  | nil =>
    obtain rfl := Option.some.inj hrun
    obtain ⟨hlog, hphase, hbackend⟩ := hview
    rw [show start.log = [] from hlog] at hdriver
    obtain rfl := Option.some.inj hdriver
    refine ⟨⟨fun _ events' e _ _ hprefix ↦ ?_, fun _ unit hunit ↦ ?_⟩, hfits, encoder, hbackend⟩
    · exact absurd (List.prefix_nil.1 hprefix) (List.append_ne_nil_of_right_ne_nil _ (List.cons_ne_nil _ _))
    · rw [show start.phase = .top from hphase] at hunit
      exact absurd hunit List.not_mem_nil
  | append_singleton events e ih =>
    obtain ⟨worker₀, hrun₀, hstep⟩ := Run.exists_of_exec_snoc hrun
    -- The worker before the last step, with the device as the driver had it then.
    have hfits₀ : worker₀.Fits :=
      Run.exec_invariant (fun _ _ _ hs hstep ↦ (view_workerEventStep hs hstep).2) hfits hrun₀
    obtain ⟨hview₀, hfits'⟩ := view_workerEventStep hfits₀ hstep
    obtain ⟨new, hnew⟩ := exists_log_step hview₀
    rw [show worker.log = worker₀.log ++ new from hnew] at hdriver
    obtain ⟨p₀, hdriver₀, -⟩ := Run.exists_of_exec_append hdriver
    obtain ⟨hih, -, encoder₀, hbackend₀⟩ := ih hrun₀ hdriver₀
    obtain ⟨hunits, hbackend'⟩ := allUnits_step hbackend₀ hview₀ hdriver₀
      ((congrArg pictureTrace hnew).trans hdriver)
    refine ⟨?_, hfits', hbackend'⟩
    rw [show worker.phase = worker.view.phase from rfl, hunits,
      show worker₀.view.phase = worker₀.phase from rfl, hih]
    -- An encode inside the run was one before the last step, or it is the last step.
    constructor
    · rintro ⟨hbefore, hlast⟩ events' e' worker' p' hprefix hrun' hp'
      rcases List.prefix_concat_iff.1 hprefix with heq | hprefix
      · obtain ⟨rfl, he⟩ := List.append_inj' heq rfl
        obtain rfl := List.head_eq_of_cons_eq he
        obtain rfl := Option.some.inj (hrun₀.symm.trans hrun')
        obtain rfl := Option.some.inj (hdriver₀.symm.trans hp')
        exact hlast
      · exact hbefore events' e' worker' p' hprefix hrun' hp'
    · intro h
      refine ⟨fun events' e' worker' p' hprefix ↦ h events' e' worker' p' ?_, ?_⟩
      · exact hprefix.trans (List.prefix_append _ _)
      · exact h events e worker₀ p₀ (List.prefix_refl _) hrun₀ hdriver₀

/-- **The access units in the ring are right exactly in the runs in which the device is on time.** The
thread has to be between two access units. -/
theorem accessUnitContract_iff {encoder : M2mBackend} {width height : UInt32} {ring : AuRing}
    {forceIdr : Bool} {slots : ℕ} {start worker : EncoderWorker} {events : List WorkerEvent}
    {p : PictureTrace} (hring : auRingCreate auSlotCapacity slots = some ring)
    (hcreate : encoderWorkerCreate (.m2m encoder) width height ring forceIdr = some start)
    (hrun : Run.exec workerEventStep start events = some worker)
    (hdriver : pictureTrace worker.log = some p) (hphase : worker.phase.unit? = none) :
    AccessUnitContract p ↔
      ∀ events' e worker' p', events' ++ [e] <+: events →
        Run.exec workerEventStep start events' = some worker' →
        pictureTrace worker'.log = some p' → CallOnTime worker'.view p' e := by
  obtain ⟨hfits, hview⟩ := fits_encoderWorkerCreate hring hcreate
  rw [← (allUnits_of_run hfits (by rw [hview]; exact ⟨rfl, rfl, rfl⟩) hrun hdriver).1]
  have hhands : worker.phase.inHands p.copied = none := by
    rcases hp : worker.phase with - | ptsUs | ⟨ptsUs, f⟩ | ⟨ptsUs, out, i⟩ | ⟨ptsUs, out, i⟩ | - <;>
      rw [hp] at hphase
    · rfl
    · rfl
    · rfl
    · exact absurd hphase (Option.some_ne_none _)
    · exact absurd hphase (Option.some_ne_none _)
    · rfl
  rw [AccessUnitContract, PictureTrace.allUnits, hhands, Option.toList_none, List.append_nil]

instance (p : PictureTrace) : Decidable (AccessUnitContract p) :=
  inferInstanceAs (Decidable (∀ unit ∈ p.units, unit.pictures = [_]))

/-- A device that takes the frame and has one picture of one byte ready. -/
def m2mReturnsOne : M2mAnswers := ⟨false, none, true, true, [⟨⟨[1], true⟩, true, false⟩]⟩

/-- A device without delay. -/
theorem accessUnitContract_iff_sample : ∃ encoder ring start worker p events,
    m2mOpen 6 = some encoder ∧ auRingCreate auSlotCapacity 8 = some ring ∧
    encoderWorkerCreate (.m2m encoder) 2 2 ring false = some start ∧
    events = encodeSmallFrame 40 (.m2m m2mReturnsOne) ++ [.clear, .push] ∧
    Run.exec workerEventStep start events = some worker ∧ pictureTrace worker.log = some p ∧
    AccessUnitContract p ∧
    ∀ events' e worker' p', events' ++ [e] <+: events →
      Run.exec workerEventStep start events' = some worker' →
      pictureTrace worker'.log = some p' → CallOnTime worker'.view p' e := by
  obtain ⟨encoder, ring, start, worker, p, hopen, hring, hcreate, hrun, hdriver, hphase, hright⟩ :
      ∃ encoder ring start worker p, m2mOpen 6 = some encoder ∧
        auRingCreate auSlotCapacity 8 = some ring ∧
        encoderWorkerCreate (.m2m encoder) 2 2 ring false = some start ∧
        Run.exec workerEventStep start (encodeSmallFrame 40 (.m2m m2mReturnsOne) ++ [.clear, .push]) =
          some worker ∧
        pictureTrace worker.log = some p ∧ worker.phase.unit? = none ∧ AccessUnitContract p :=
    ⟨_, _, _, _, _, rfl, rfl, rfl, rfl, rfl, rfl, by decide⟩
  exact ⟨encoder, ring, start, worker, p, _, hopen, hring, hcreate, rfl, hrun, hdriver, hright,
    (accessUnitContract_iff hring hcreate hrun hdriver hphase).1 hright⟩

/-- A device that is one frame behind: the picture of the first frame gets the timestamp of the second. -/
theorem not_accessUnitContract : ∃ encoder ring start worker p,
    m2mOpen 6 = some encoder ∧ auRingCreate auSlotCapacity 8 = some ring ∧
    encoderWorkerCreate (.m2m encoder) 2 2 ring false = some start ∧
    Run.exec workerEventStep start (encodeSmallFrame 40 (.m2m m2mAccepts) ++
      encodeSmallFrame 80 (.m2m m2mReturnsOne) ++ [.clear, .push]) = some worker ∧
    pictureTrace worker.log = some p ∧ ¬ AccessUnitContract p :=
  ⟨_, _, _, _, _, rfl, rfl, rfl, rfl, rfl, by decide⟩

end Camstream
