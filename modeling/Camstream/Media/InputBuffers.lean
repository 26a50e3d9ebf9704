import Mathlib.Data.List.Perm.Basic
import Camstream.Lib.Run
import Camstream.Media.EncoderM2m

/-!
# The input buffers of the hardware encoder

An input buffer is on the stack of the encoder or in the OUTPUT queue of the device, and a call moves it
from one to the other. Two things lose it. A buffer that the device refuses has left the stack and does
not return to it; and a device that grants more buffers than the stack has entries writes the index behind
the last one over the count.

So what is conserved is the stack, the queue and the refused buffers together (`perm_of_run`), and the
buffers are all in their places exactly in the runs in which neither happens.
-/

namespace Camstream

/-- The free input buffers. -/
def M2mBackend.free (encoder : M2mBackend) : List ℕ :=
  (List.range encoder.outFreeCount).map encoder.outFree

/-- The encoder with the OUTPUT queue of its device and everything that was done to the device. -/
structure M2mDevice where
  encoder : M2mBackend
  queued : List ℕ
  history : List M2mIoctl

/-- The OUTPUT queue: what is dequeued was queued, and a buffer that is refused stays outside. -/
def outputQueueStep (queued : List ℕ) : M2mIoctl → Option (List ℕ)
  | .dqbufOutput index => if index ∈ queued then some (queued.erase index) else none
  | .qbufOutput index _ _ ok => some (if ok then index :: queued else queued)
  | .dqbufCapture _ _ => some queued

/-- A call of `m2m_encode`, with what the system answers. -/
structure M2mCall where
  ptsUs : UInt64
  forceIdr : Bool
  outCapacity : ℕ
  answers : M2mAnswers
  deriving DecidableEq, Repr

/-- One call of `m2m_encode` on the device. -/
def m2mStep (s : M2mDevice) (call : M2mCall) : Option M2mDevice :=
  let r := m2mEncode s.encoder call.ptsUs call.forceIdr call.outCapacity call.answers
  (Run.exec outputQueueStep s.queued r.2.2).map fun queued ↦ ⟨r.2.1, queued, s.history ++ r.2.2⟩

/-- **Each input buffer is in exactly one place.** -/
def M2mDevice.Placed (granted : ℕ) (s : M2mDevice) : Prop :=
  ∀ index < granted, s.encoder.free.count index + s.queued.count index = 1

instance (granted : ℕ) (s : M2mDevice) : Decidable (s.Placed granted) :=
  inferInstanceAs (Decidable (∀ index < granted, _ = _))

/-! ### The stack -/

theorem outFreeCount_storeOutFree (encoder : M2mBackend) (i : ℕ) :
    (encoder.storeOutFree i).outFreeCount =
      if i = m2mOutputBuffers then m2mOutputBuffers else encoder.outFreeCount := by
  rw [M2mBackend.storeOutFree]
  split_ifs with hlt heq heq
  · exact absurd heq (Nat.ne_of_lt hlt)
  · rfl
  · exact heq
  · rfl

theorem outFree_storeOutFree {i : ℕ} (encoder : M2mBackend) {j : ℕ} (hj : j < m2mOutputBuffers) :
    (encoder.storeOutFree i).outFree j = if j = i then i else encoder.outFree j := by
  rcases Nat.decEq j i with hne | rfl
  · rw [if_neg hne, M2mBackend.storeOutFree]
    split_ifs
    · exact Function.update_of_ne hne _ _
    · rfl
    · rfl
  · rw [if_pos rfl, M2mBackend.storeOutFree, if_pos hj]
    exact Function.update_self _ _ _

/-- The loop of `m2m_open` fills the stack as far as it goes, and the first index behind it restores the
count. -/
theorem foldl_storeOutFree (count k : ℕ) :
    ((List.range k).foldl M2mBackend.storeOutFree ⟨fun _ ↦ 0, count, 0⟩).outFreeCount =
        (if m2mOutputBuffers < k then m2mOutputBuffers else count) ∧
      ∀ j < m2mOutputBuffers, j < k →
        ((List.range k).foldl M2mBackend.storeOutFree ⟨fun _ ↦ 0, count, 0⟩).outFree j = j := by
  induction k with
  | zero => exact ⟨rfl, fun j _ hj ↦ absurd hj (Nat.not_lt_zero j)⟩
  | succ k ih =>
    obtain ⟨hcount, hfree⟩ := ih
    rw [List.range_succ, List.foldl_append, List.foldl_cons, List.foldl_nil]
    refine ⟨?_, fun j hj hjk ↦ ?_⟩
    · rw [outFreeCount_storeOutFree, hcount]
      split_ifs <;> first | rfl | omega
    · rw [outFree_storeOutFree _ hj]
      split_ifs with heq
      · exact heq.symm
      · exact hfree j hj (by omega)

/-- At first every buffer of the table is free. -/
theorem free_m2mOpen {granted : ℕ} {encoder : M2mBackend} (h : m2mOpen granted = some encoder) :
    encoder.free = List.range (min granted m2mOutputBuffers) := by
  rw [m2mOpen] at h
  split_ifs at h
  obtain rfl := Option.some.inj h
  obtain ⟨hcount, hfree⟩ := foldl_storeOutFree granted granted
  have hmin : (if m2mOutputBuffers < granted then m2mOutputBuffers else granted) =
      min granted m2mOutputBuffers := by
    split_ifs <;> omega
  rw [M2mBackend.free, hcount, hmin]
  refine (List.map_congr_left fun j hj ↦ ?_).trans (List.map_id _)
  have hj := List.mem_range.1 hj
  exact hfree j (by omega) (by omega)

/-! ### Conservation -/

/-- The buffers that the device has refused. -/
def refused : List M2mIoctl → List ℕ
  | [] => []
  | .qbufOutput index _ _ false :: ioctls => index :: refused ioctls
  | _ :: ioctls => refused ioctls

theorem refused_append (ioctls ioctls' : List M2mIoctl) :
    refused (ioctls ++ ioctls') = refused ioctls ++ refused ioctls' := by
  induction ioctls with
  | nil => rfl
  | cons ioctl ioctls ih =>
    rcases ioctl with index | ⟨index, timestamp, keyframe, _ | _⟩ | ⟨buffer, copied⟩
    · exact ih
    · exact congrArg (index :: ·) ih
    · exact ih
    · exact ih

/-- The buffers that `VIDIOC_QBUF` did not take. -/
theorem mem_refused {ioctls : List M2mIoctl} {index : ℕ} :
    index ∈ refused ioctls ↔
      ∃ timestamp keyframe, M2mIoctl.qbufOutput index timestamp keyframe false ∈ ioctls := by
  induction ioctls with
  | nil => simp [refused]
  | cons ioctl ioctls ih =>
    rcases ioctl with i | ⟨i, timestamp, keyframe, _ | _⟩ | ⟨buffer, copied⟩ <;>
      simp [refused, ih, exists_or]

/-- Collecting encoded buffers has no part in the OUTPUT queue. -/
theorem exec_outputQueueStep_captured (queued : List ℕ) (captured : List (CaptureBuffer × Bool)) :
    Run.exec outputQueueStep queued (captured.map fun c ↦ .dqbufCapture c.1 c.2) = some queued ∧
      refused (captured.map fun c ↦ M2mIoctl.dqbufCapture c.1 c.2) = [] := by
  induction captured with
  | nil => exact ⟨rfl, rfl⟩
  | cons c captured ih => exact ih

/-- What there is of the input buffers. -/
def M2mDevice.all (s : M2mDevice) : List ℕ :=
  s.encoder.free ++ (s.queued ++ refused s.history)

variable {encoder encoder' : M2mBackend} {answers : M2mAnswers} {index : ℕ} {ioctls : List M2mIoctl}
  {queued queued' : List ℕ} {s s' : M2mDevice} {granted : ℕ}

/-- The buffer that a call acquires comes from the stack or from the queue. -/
theorem perm_m2mAcquireInputBuffer
    (hacq : m2mAcquireInputBuffer encoder answers = (some index, encoder', ioctls))
    (hrun : Run.exec outputQueueStep queued ioctls = some queued') :
    (encoder'.free ++ index :: queued').Perm (encoder.free ++ queued) ∧ refused ioctls = [] := by
  rcases m2mAcquireInputBuffer_cases encoder answers with h | ⟨n, hn, h⟩ | ⟨i, h⟩
  · rw [h] at hacq
    exact absurd (Prod.mk.inj hacq).1.symm (Option.some_ne_none _)
  · rw [h] at hacq
    obtain ⟨hindex, hrest⟩ := Prod.mk.inj hacq
    obtain ⟨rfl, rfl⟩ := Prod.mk.inj hrest
    obtain rfl := Option.some.inj hindex
    obtain rfl := Option.some.inj hrun
    refine ⟨?_, rfl⟩
    -- The top of the stack leaves the free list.
    have hfree : encoder.free = M2mBackend.free { encoder with outFreeCount := n } ++
        [encoder.outFree n] := by
      rw [M2mBackend.free, hn, List.range_succ, List.map_append]
      rfl
    rw [hfree, List.append_assoc]
    exact List.Perm.refl _
  · rw [h] at hacq
    obtain ⟨hindex, hrest⟩ := Prod.mk.inj hacq
    obtain ⟨rfl, rfl⟩ := Prod.mk.inj hrest
    obtain rfl := Option.some.inj hindex
    rw [Run.exec_cons, outputQueueStep] at hrun
    split_ifs at hrun with hmem
    · obtain rfl := Option.some.inj hrun
      exact ⟨(List.perm_cons_erase hmem).symm.append_left _, rfl⟩
    · exact absurd hrun.symm (Option.some_ne_none _)

/-- The buffer that a call has acquired goes to the queue or is refused. -/
theorem perm_qbufOutput {all : List ℕ} (hperm : (encoder'.free ++ index :: queued').Perm
      (encoder.free ++ queued)) (ok : Bool) :
    (encoder'.free ++ ((if ok then index :: queued' else queued') ++
      (all ++ if ok then [] else [index]))).Perm (encoder.free ++ (queued ++ all)) := by
  refine List.perm_iff_count.2 fun i ↦ ?_
  have hcount := hperm.count_eq i
  cases ok <;>
    simp only [List.count_append, List.count_cons, List.count_nil, if_true, Bool.false_eq_true,
      if_false] at hcount ⊢ <;> omega

/-- **A call moves the input buffers around.** -/
theorem perm_m2mStep {call : M2mCall} (hs : m2mStep s call = some s') : s'.all.Perm s.all := by
  obtain ⟨queued, hrun, rfl⟩ := Option.map_eq_some_iff.1 hs
  -- Nothing is acquired in the first two cases. In the others `VIDIOC_QBUF` decides who has the buffer.
  rcases m2mEncode_cases s.encoder call.ptsUs call.forceIdr call.outCapacity call.answers with
    ⟨-, h⟩ | ⟨-, h⟩ | ⟨index, encoder', ioctls, hacq, ⟨-, h⟩ | ⟨-, h⟩⟩
  · rw [h] at hrun ⊢
    obtain rfl := Option.some.inj hrun
    simp only [M2mDevice.all, List.append_nil]
    exact List.Perm.refl _
  · rw [h] at hrun ⊢
    obtain rfl := Option.some.inj hrun
    simp only [M2mDevice.all, List.append_nil]
    exact List.Perm.refl _
  · rw [h] at hrun ⊢
    obtain ⟨queued', hrun', hqbuf⟩ := Run.exists_of_exec_append hrun
    obtain rfl := Option.some.inj hqbuf
    obtain ⟨hperm, hrefused⟩ := perm_m2mAcquireInputBuffer hacq hrun'
    show (encoder'.free ++ (queued' ++ refused (s.history ++ (ioctls ++ [_])))).Perm _
    rw [refused_append, refused_append, hrefused]
    exact perm_qbufOutput hperm false
  · rw [h, m2mDrainReady_eq] at hrun ⊢
    obtain ⟨captured, hcaptured⟩ := exists_ioctls_foldl_m2mCollect call.answers.encoded
      ⟨[], false, ioctls ++ [.qbufOutput index (m2mTimestamp call.ptsUs) call.forceIdr true]⟩
    dsimp only at hrun hcaptured ⊢
    rw [hcaptured] at hrun ⊢
    obtain ⟨queued'', hrun'', hdrained⟩ := Run.exists_of_exec_append hrun
    obtain ⟨queued', hrun', hqbuf⟩ := Run.exists_of_exec_append hrun''
    obtain ⟨hkeeps, hnone⟩ := exec_outputQueueStep_captured queued'' captured
    obtain rfl := Option.some.inj (hkeeps.symm.trans hdrained)
    obtain rfl := Option.some.inj hqbuf
    obtain ⟨hperm, hrefused⟩ := perm_m2mAcquireInputBuffer hacq hrun'
    show (encoder'.free ++ (index :: queued' ++ refused (s.history ++ (ioctls ++ [_] ++ _)))).Perm _
    rw [refused_append, refused_append, refused_append, hrefused, hnone, List.append_nil]
    exact perm_qbufOutput hperm true

/-- By induction on the run: buffers change places, and none is lost or doubled. -/
theorem perm_of_run {calls : List M2mCall} (hrun : Run.exec m2mStep s calls = some s') :
    s'.all.Perm s.all :=
  Run.exec_invariant (P := fun t ↦ t.all.Perm s.all)
    (fun _ _ _ ht hs ↦ (perm_m2mStep hs).trans ht) (List.Perm.refl _) hrun

/-! ### Where each buffer is -/

/-- **The input buffers are in their places exactly if the device has granted no more of them than the
stack has entries, and has refused none.** -/
theorem placed_iff (hopen : m2mOpen granted = some encoder) {calls : List M2mCall}
    (hrun : Run.exec m2mStep ⟨encoder, [], []⟩ calls = some s) :
    s.Placed granted ↔ granted ≤ m2mOutputBuffers ∧
      ∀ index timestamp keyframe, M2mIoctl.qbufOutput index timestamp keyframe false ∉ s.history := by
  have hperm := perm_of_run hrun
  have hstart : (⟨encoder, [], []⟩ : M2mDevice).all = List.range (min granted m2mOutputBuffers) := by
    rw [M2mDevice.all, free_m2mOpen hopen]
    exact List.append_nil _
  rw [hstart] at hperm
  -- What is not refused is placed, as far as the stack has entries.
  have hcount : ∀ i, s.encoder.free.count i + s.queued.count i + (refused s.history).count i =
      if i < min granted m2mOutputBuffers then 1 else 0 := by
    intro i
    have hcount := hperm.count_eq i
    rwa [M2mDevice.all, List.count_append, List.count_append, List.count_range, ← Nat.add_assoc]
      at hcount
  constructor
  · intro hplaced
    have hle : granted ≤ m2mOutputBuffers := by
      by_contra hlt
      have hlost := hcount m2mOutputBuffers
      rw [if_neg (by omega)] at hlost
      have hplace := hplaced m2mOutputBuffers (by omega)
      omega
    refine ⟨hle, fun i timestamp keyframe hmem ↦ ?_⟩
    have hrefused : 0 < (refused s.history).count i :=
      List.count_pos_iff.2 (mem_refused.2 ⟨timestamp, keyframe, hmem⟩)
    have htotal := hcount i
    split_ifs at htotal with hi
    · have hplace := hplaced i (by omega)
      omega
    · omega
  · rintro ⟨hle, hnone⟩ i hi
    have hrefused : (refused s.history).count i = 0 := by
      refine List.count_eq_zero.2 fun hmem ↦ ?_
      obtain ⟨timestamp, keyframe, hmem⟩ := mem_refused.1 hmem
      exact hnone i timestamp keyframe hmem
    have htotal := hcount i
    rwa [hrefused, Nat.add_zero, if_pos (by omega)] at htotal

/-- The answers of a device that refuses the frame. -/
def m2mRefuses : M2mAnswers := ⟨false, none, false, false, []⟩

theorem placed_iff_sample : ∃ encoder s, m2mOpen 6 = some encoder ∧
    Run.exec m2mStep ⟨encoder, [], []⟩ [⟨40, false, 512, m2mAccepts⟩] = some s ∧ s.Placed 6 := by
  obtain ⟨encoder, s, hopen, hrun, hhistory⟩ : ∃ encoder s, m2mOpen 6 = some encoder ∧
      Run.exec m2mStep ⟨encoder, [], []⟩ [⟨40, false, 512, m2mAccepts⟩] = some s ∧
      s.history = [.qbufOutput 5 (0, 40) false true] := ⟨_, _, rfl, rfl, rfl⟩
  refine ⟨encoder, s, hopen, hrun, (placed_iff hopen hrun).2 ⟨by decide, ?_⟩⟩
  intro index timestamp keyframe hmem
  rw [hhistory, List.mem_singleton] at hmem
  exact absurd hmem (by simp)

/-- The device refuses one frame, and its buffer is gone. -/
theorem not_placed : ∃ encoder s, m2mOpen 6 = some encoder ∧
    Run.exec m2mStep ⟨encoder, [], []⟩ [⟨40, false, 512, m2mRefuses⟩] = some s ∧ ¬ s.Placed 6 :=
  ⟨_, _, rfl, rfl, by decide⟩

end Camstream
