import Camstream.Lib.Memory
import Camstream.Media.References

/-!
# What a publish writes

All buffers of the pool are slices of one allocation, and `frame_hub_publish` copies `size` bytes to the
start of the slice it has acquired, without comparing `size` with the capacity. So a publish leaves the
other buffers alone exactly if the frame fits its slice, or if there is no free slice and nothing is
copied at all.

`bytes_hubStep` is the frame condition behind it: no other step of the hub writes a byte, since all that
happens to the pool then is that references are counted (`pool_hubStep`). So what a publish did to the
buffers stays true until the next one.
-/

namespace Camstream

/-! ### Buffers -/

/-- Buffer `i` has room for `data` and begins with it. -/
def FramePool.Holds (pool : FramePool) (i : ℕ) (data : List UInt8) : Prop :=
  data.length ≤ pool.capacity ∧
    ∀ k < data.length, pool.backing (i * pool.capacity + k) = data.getD k 0

/-- Buffer `i` has the same bytes in two states of a pool. -/
def FramePool.SameBuffer (pool pool' : FramePool) (i : ℕ) : Prop :=
  ∀ k < pool.capacity,
    pool'.backing (i * pool.capacity + k) = pool.backing (i * pool.capacity + k)

/-! ### What does not write -/

/-- The part of the pool that only `memcpy` changes. -/
def FramePool.bytes (pool : FramePool) : (ℕ → UInt8) × ℕ × ℕ :=
  (pool.backing, pool.capacity, pool.count)

theorem bytes_framePoolAcquire {pool pool' : FramePool} {i : ℕ}
    (h : framePoolAcquire pool = .frame i pool') : pool'.bytes = pool.bytes := by
  obtain ⟨-, -, rfl⟩ := framePoolAcquire_eq_frame_iff.1 h
  rfl

/-- Giving a frame back writes no bytes. -/
theorem bytes_frameUnref (pool : FramePool) (frame : ℕ) :
    (frameUnref pool frame).bytes = pool.bytes := by
  rw [frameUnref]
  dsimp only
  split_ifs <;> rfl

/-- Whether an event is the begin of a publish. -/
def HubEvent.isPublish : HubEvent → Bool
  | .publish _ => true
  | _ => false

variable {hub hub' : FrameHub} {e : HubEvent}

/-- **The pool changes by references only** in a step that does not begin a publish. -/
theorem pool_hubStep {P : FramePool → Prop} (href : ∀ pool i, P pool → P (frameRef pool i))
    (hunref : ∀ pool i, P pool → P (frameUnref pool i)) (he : e.isPublish = false)
    (hs : hubStep hub e = some hub') (h : P hub.pool) : P hub'.pool := by
  -- Apart from a publish, the hub touches the pool by counting references.
  cases e with
  | subscribe c =>
    rw [hubStep, frameHubSubscribe] at hs
    split_ifs at hs
    obtain rfl := Option.some.inj hs
    exact h
  | unsubscribe c =>
    rw [hubStep, frameHubUnsubscribe] at hs
    dsimp only at hs
    split_ifs at hs <;> obtain rfl := Option.some.inj hs <;> exact h
  | free c =>
    rw [hubStep, frameHubFree] at hs
    split_ifs at hs
    rcases hslot : (hub.consumer c).slot with - | frame <;>
      simp only [hslot, Option.some.injEq] at hs <;> subst hs
    · exact h
    · exact hunref _ _ h
  | publish info => exact absurd he.symm Bool.false_ne_true
  | publishNext =>
    rw [hubStep, frameHubPublishNext] at hs
    rcases hp : hub.publisher with - | frame | ⟨frame, _ | ⟨c, rest⟩⟩ | frame <;>
      simp only [hp, Option.some.injEq, reduceCtorEq] at hs <;> subst hs
    · exact h
    · exact h
    · show P (deliver hub frame c).pool
      rw [deliver]
      dsimp only
      split_ifs
      · rcases (hub.consumer c).slot with - | old
        · exact href _ _ h
        · exact hunref _ _ (href _ _ h)
      · exact h
    · exact hunref _ _ h
  | take c =>
    obtain ⟨-, rfl⟩ := eq_of_frameHubTake hs
    exact h
  | release c frame =>
    rw [hubStep, frameHubRelease] at hs
    split_ifs at hs
    obtain rfl := Option.some.inj hs
    exact hunref _ _ h

/-- **Nothing but a publish writes to the buffers.** -/
theorem bytes_hubStep (he : e.isPublish = false) (hs : hubStep hub e = some hub') :
    hub'.pool.bytes = hub.pool.bytes :=
  pool_hubStep (P := fun pool ↦ pool.bytes = hub.pool.bytes) (fun _ _ h ↦ h)
    (fun pool i h ↦ (bytes_frameUnref pool i).trans h) he hs rfl

/-- So the bytes stay until the next publish. -/
theorem bytes_of_run {es : List HubEvent} (hes : ∀ e ∈ es, e.isPublish = false)
    (hrun : Run.exec hubStep hub es = some hub') : hub'.pool.bytes = hub.pool.bytes :=
  Run.exec_invariant_mem (P := fun t ↦ t.pool.bytes = hub.pool.bytes)
    (fun _ e _ he hs hstep ↦ (bytes_hubStep (hes e he) hstep).trans hs) rfl hrun

/-! ### What a publish writes -/

/-- A call of `frame_hub_publish` that was begun in `hub` with its step to `begun` has by `later` done
what it should: it failed and every buffer has its bytes; or it has stored the data in a buffer nobody
referenced, and every other buffer has its bytes. -/
def PublishIntact (info : FrameInfo) (hub begun later : FrameHub) : Prop :=
  match begun.publisher with
  | .filled i =>
    hub.references i = 0 ∧ later.pool.Holds i info.data ∧
      ∀ j < hub.pool.count, j ≠ i → hub.pool.SameBuffer later.pool j
  | _ => ∀ j < hub.pool.count, hub.pool.SameBuffer later.pool j

variable {begun later : FrameHub} {info : FrameInfo}

/-- The acquired frame points to its own slice. -/
theorem data_framePoolAcquire {pool pool' : FramePool} {i : ℕ}
    (h : framePoolAcquire pool = .frame i pool') :
    (pool'.frames i).data = i * pool.capacity := by
  obtain ⟨-, -, rfl⟩ := framePoolAcquire_eq_frame_iff.1 h
  rw [setFrame_frames_self]

/-- `memcpy` writes the bytes from the frame's pointer on, and no others. -/
theorem backing_fillFrame (pool : FramePool) (frame : ℕ) (info : FrameInfo) :
    (fillFrame pool frame info).backing =
      Memory.copy pool.backing (pool.frames frame).data (fun k ↦ info.data.getD k 0)
        info.data.length :=
  rfl

/-- **Data that fits its slice is stored there, and reaches no other slice.** -/
theorem fillFrame_of_le {pool pool' : FramePool} {i : ℕ} (hacq : framePoolAcquire pool = .frame i pool')
    (hle : info.data.length ≤ pool.capacity) :
    (fillFrame pool' i info).Holds i info.data ∧
      ∀ j, j ≠ i → pool.SameBuffer (fillFrame pool' i info) j := by
  have hdata := data_framePoolAcquire hacq
  obtain ⟨hbacking, hcapacity, -⟩ :=
    (Prod.mk.injEq _ _ _ _).mp (bytes_framePoolAcquire hacq) |>.imp_right Prod.mk.inj
  have hcapacity : (fillFrame pool' i info).capacity = pool.capacity := hcapacity
  refine ⟨⟨hle.trans_eq hcapacity.symm, fun k hk ↦ ?_⟩, fun j hj k hk ↦ ?_⟩
  · rw [hcapacity, backing_fillFrame, hdata, Memory.copy_add_of_lt hk]
  · rw [backing_fillFrame, hdata, Memory.copy_slice_of_ne hj hk hle, hbacking]

/-- The measures of the pool never change. -/
theorem measures_hubStep (hs : hubStep hub e = some hub') :
    hub'.pool.capacity = hub.pool.capacity ∧ hub'.pool.count = hub.pool.count := by
  rcases he : e.isPublish with - | -
  · exact Prod.mk.inj (Prod.mk.inj (bytes_hubStep he hs)).2
  · cases e with
    | publish info =>
      obtain ⟨-, ⟨rfl, -⟩ | ⟨-, i, pool, hacq, rfl⟩⟩ := frameHubPublish_cases hs
      · exact ⟨rfl, rfl⟩
      · exact Prod.mk.inj (Prod.mk.inj (bytes_framePoolAcquire hacq)).2
    | subscribe | unsubscribe | free | publishNext | take | release => exact absurd he Bool.false_ne_true

/-- The sizes of the pool are fixed. -/
theorem measures_of_run {bufferCapacity poolCount : ℕ} {hub₀ : FrameHub} {es : List HubEvent}
    (hcreate : frameHubCreate bufferCapacity poolCount = some hub₀)
    (hrun : Run.exec hubStep hub₀ es = some hub) :
    hub.pool.capacity = bufferCapacity ∧ hub.pool.count = poolCount := by
  refine Run.exec_invariant
    (P := fun t ↦ t.pool.capacity = bufferCapacity ∧ t.pool.count = poolCount)
    (fun _ _ _ ht hs ↦ ?_) ?_ hrun
  · exact ⟨(measures_hubStep hs).1.trans ht.1, (measures_hubStep hs).2.trans ht.2⟩
  · obtain ⟨pool, hpool, rfl⟩ := Option.map_eq_some_iff.1 hcreate
    rw [framePoolCreate] at hpool
    split_ifs at hpool
    obtain rfl := Option.some.inj hpool
    exact ⟨rfl, rfl⟩

/-- The begin of a publish that has gone wrong after it is one that has copied too much. -/
theorem publishIntact_of_begun {n : ℕ} (h : hub.Accounted n)
    (hbegin : hubStep hub (.publish info) = some begun)
    (hfits : info.data.length = 0 ∨ hub.pool.freeCount = 0 ∨ info.data.length ≤ hub.pool.capacity)
    {es : List HubEvent} (hes : ∀ e ∈ es, e.isPublish = false)
    (hlater : Run.exec hubStep begun es = some later) : PublishIntact info hub begun later := by
  have hbytes := bytes_of_run hes hlater
  obtain ⟨hidle, ⟨rfl, -⟩ | ⟨hsize, i, pool, hacq, rfl⟩⟩ := frameHubPublish_cases hbegin
  · -- A publish that fails writes nothing.
    rw [PublishIntact, hidle]
    intro j _ k _
    exact congrFun (congrArg Prod.fst hbytes) _
  · have hfree : hub.pool.freeCount ≠ 0 := (framePoolAcquire_eq_frame_iff.1 hacq).1
    obtain ⟨hholds, hothers⟩ :=
      fillFrame_of_le hacq ((hfits.resolve_left hsize).resolve_left hfree)
    obtain ⟨a, ha, href⟩ := h.represents
    obtain ⟨-, hnot, -⟩ := represents_framePoolAcquire ha hacq
    have hbacking : later.pool.backing = (fillFrame pool i info).backing :=
      congrArg Prod.fst hbytes
    have hcapacity : later.pool.capacity = (fillFrame pool i info).capacity :=
      congrArg (fun b ↦ b.2.1) hbytes
    refine ⟨(href i).symm.trans (Multiset.count_eq_zero.2 hnot), ?_, fun j _ hj k hk ↦ ?_⟩
    · rw [FramePool.Holds, hbacking, hcapacity]
      exact hholds
    · rw [hbacking]
      exact hothers j hj k hk

/-- **When a publish leaves the frames of others alone.** For a call of `frame_hub_publish` in any state
that a hub reaches, from its first step until the next publish begins: it stores its data in a buffer
nobody referenced, or fails, and keeps every other buffer, exactly if there is no data, or no buffer is
free, or the data fits a buffer and the index on top of the stack is not negative. In a pool of at most
`2 ^ 31` frames no index is. -/
theorem publishIntact_iff (info : FrameInfo) {bufferCapacity poolCount : ℕ} {hub₀ : FrameHub} {es : List HubEvent}
    (hcreate : frameHubCreate bufferCapacity poolCount = some hub₀)
    (hrun : Run.exec hubStep hub₀ es = some hub) (hidle : hub.publisher = .idle) :
    ((∃ begun, hubStep hub (.publish info) = some begun ∧
      ∀ es' later, (∀ e ∈ es', e.isPublish = false) → Run.exec hubStep begun es' = some later →
        PublishIntact info hub begun later) ↔
      info.data.length = 0 ∨ hub.pool.freeCount = 0 ∨
        info.data.length ≤ bufferCapacity ∧ ∀ index ∈ hub.pool.stack.head?, 0 ≤ index) ∧
    (poolCount ≤ 2 ^ 31 → ∀ index ∈ hub.pool.stack.head?, 0 ≤ index) := by
  rw [← (measures_of_run hcreate hrun).1]
  have h := accounted_of_run hcreate hrun
  obtain ⟨a, ha, -⟩ := h.represents
  refine ⟨⟨?_, fun hfits ↦ ?_⟩, fun hcount index hindex ↦ ?_⟩
  · rintro ⟨begun, hbegin, hintact⟩
    obtain ⟨-, ⟨-, hfails⟩ | ⟨-, i, pool, hacq, rfl⟩⟩ := frameHubPublish_cases hbegin
    · exact hfails.imp_right Or.inl
    · -- Only data that fits can be held by the buffer.
      obtain ⟨-, ⟨hfits, -⟩, -⟩ := hintact [] _ (fun e he ↦ absurd he List.not_mem_nil) rfl
      obtain ⟨hfree, htop, -⟩ := framePoolAcquire_eq_frame_iff.1 hacq
      refine .inr (.inr ⟨hfits.trans_eq ?_, fun index hindex ↦ ?_⟩)
      · exact congrArg (fun b ↦ b.2.1) (bytes_framePoolAcquire hacq)
      · rw [head?_stack (ha.length_freeList.symm ▸ ha.freeCount_le) hfree, htop] at hindex
        exact Option.some.inj hindex ▸ Int.natCast_nonneg i
  · obtain ⟨begun, hbegin⟩ : ∃ begun, hubStep hub (.publish info) = some begun := by
      rw [hubStep, frameHubPublish, if_neg (not_not.2 hidle)]
      split_ifs with hsize
      · exact ⟨hub, rfl⟩
      rcases hacq : framePoolAcquire hub.pool with - | ⟨i, pool⟩ | index
      · exact ⟨hub, rfl⟩
      · exact ⟨_, rfl⟩
      · -- The index that leads outside is on top of the stack.
        obtain ⟨hfree, htop, hneg⟩ := framePoolAcquire_eq_outside_iff.1 hacq
        obtain ⟨-, hindex⟩ := (hfits.resolve_left hsize).resolve_left hfree
        have hhead := head?_stack (ha.length_freeList.symm ▸ ha.freeCount_le) hfree
        exact absurd (hindex index (htop ▸ hhead)) (Int.not_le.2 hneg)
    refine ⟨begun, hbegin, fun es' later hes' hlater ↦ publishIntact_of_begun h hbegin ?_ hes' hlater⟩
    exact hfits.imp_right (Or.imp_right And.left)
  · rw [ha.stack_eq_free (usableFrames_of_frameHubCreate hcreate hcount), List.head?_map] at hindex
    obtain ⟨i, -, rfl⟩ := Option.map_eq_some_iff.1 hindex
    exact Int.natCast_nonneg i

/-- One consumer with a frame of two bytes in its mailbox. -/
def sampleMailboxed : List HubEvent :=
  .subscribe 7 :: .publish ⟨[1, 2], 1, 1, 0, 2, 0, 0⟩ :: List.replicate 4 .publishNext

/-- A frame of one byte too many. -/
def sampleOversized : FrameInfo :=
  ⟨[3, 4, 5], 1, 1, 0, 3, 1, 0⟩

theorem publishIntact_iff_sample : ∃ hub₀ hub begun,
    frameHubCreate 3 2 = some hub₀ ∧ Run.exec hubStep hub₀ sampleMailboxed = some hub ∧
    hubStep hub (.publish sampleOversized) = some begun ∧
    PublishIntact sampleOversized hub begun begun := by
  have heval : ((frameHubCreate 3 2).bind fun hub₀ ↦
      (Run.exec hubStep hub₀ sampleMailboxed).map fun hub ↦
        (decide (hub.publisher = .idle), hub.pool.stack)) = some (true, [0]) := by decide
  obtain ⟨hub₀, hcreate, heval⟩ := Option.bind_eq_some_iff.1 heval
  obtain ⟨hub, hrun, heval⟩ := Option.map_eq_some_iff.1 heval
  obtain ⟨hidle, hstack⟩ := Prod.mk.inj heval
  obtain ⟨begun, hbegin, hintact⟩ :=
    (publishIntact_iff sampleOversized hcreate hrun (of_decide_eq_true hidle)).1.2
      (.inr (.inr ⟨by decide, by rw [hstack]; decide⟩))
  exact ⟨hub₀, hub, begun, hcreate, hrun, hbegin,
    hintact [] begun (fun e he ↦ absurd he List.not_mem_nil) rfl⟩

/-- In buffers of two bytes, the third byte of the new frame lands in the frame of the consumer. -/
theorem not_publishIntact : ∃ hub₀ hub begun,
    frameHubCreate 2 2 = some hub₀ ∧ Run.exec hubStep hub₀ sampleMailboxed = some hub ∧
    hubStep hub (.publish sampleOversized) = some begun ∧
    ((hub.consumer 7).slot = some 1 ∧ ¬ hub.pool.SameBuffer begun.pool 1) ∧
    ¬ PublishIntact sampleOversized hub begun begun := by
  have heval : ((frameHubCreate 2 2).bind fun hub₀ ↦
      (Run.exec hubStep hub₀ sampleMailboxed).bind fun hub ↦
        (hubStep hub (.publish sampleOversized)).map fun begun ↦
          ((hub.consumer 7).slot, begun.publisher, hub.pool.capacity, hub.pool.count,
            hub.pool.backing 2, begun.pool.backing 2)) =
      some (some 1, .filled 0, 2, 2, 1, 5) := by decide
  obtain ⟨hub₀, hcreate, heval⟩ := Option.bind_eq_some_iff.1 heval
  obtain ⟨hub, hrun, heval⟩ := Option.bind_eq_some_iff.1 heval
  obtain ⟨begun, hbegin, heval⟩ := Option.map_eq_some_iff.1 heval
  simp only [Prod.mk.injEq] at heval
  obtain ⟨hslot, hpublisher, hcapacity, hcount, hbefore, hafter⟩ := heval
  have hchanged : ¬ hub.pool.SameBuffer begun.pool 1 := by
    intro hsame
    have hbyte := hsame 0 (by rw [hcapacity]; decide)
    rw [hcapacity] at hbyte
    exact absurd (hafter.symm.trans (hbyte.trans hbefore)) (by decide)
  refine ⟨hub₀, hub, begun, hcreate, hrun, hbegin, ⟨hslot, hchanged⟩, fun hintact ↦ ?_⟩
  rw [PublishIntact, hpublisher] at hintact
  exact hchanged (hintact.2.2 1 (by rw [hcount]; decide) (by decide))

end Camstream
