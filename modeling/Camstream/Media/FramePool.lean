import Mathlib.Algebra.Group.Int.Defs
import Mathlib.Algebra.Group.Nat.Defs
import Mathlib.Data.Finset.Range
import Mathlib.Data.List.GetD
import Mathlib.Logic.Function.Basic
import Mathlib.Data.Int.Notation
import Camstream.Lib.RefPool

/-!
# The frame pool

`src/media/frame_pool.c`: a fixed number of frames over one backing allocation, a stack of free indices,
and a reference count in each frame. A `Frame *` is the index of the frame; its `data` pointer is an
offset into the backing bytes.

The indices are of type `int`, the number of frames is a `size_t`. From frame `2 ^ 31` on an index is
negative, and `frame_pool_acquire` that pops it writes before the array: `Acquired.outside`, after which
nothing is said. What lies on the stack above such an index are the frames that can be had
(`usableFrames`), all of them if there are `2 ^ 31` at most.

The connection to `RefPool` is `FramePool.Represents`: the stack, read from the top down to the first
negative index, is the free list; the reference counts are the multiplicities; and a referenced frame still
knows its index, which is what lets the last `frame_unref` return it. Each of the three operations of the
source refines the operation of the same meaning — `represents_framePoolAcquire`, `represents_frameRef`,
`represents_frameUnref` — and in the represented states neither diagnostic of the source can be reached: no
double release, no overflow of the free list.
-/

namespace Camstream

/-- `struct Frame` -/
structure Frame where
  width : UInt32
  height : UInt32
  format : UInt32
  stride : UInt32
  size : ℕ
  sequence : UInt64
  timestampUs : UInt64
  data : ℕ
  poolIndex : ℤ
  refcount : ℤ
  deriving DecidableEq, Repr

/-- What `frame_unref` can complain about on `stderr`. -/
inductive FramePoolDiagnostic
  /-- "frame_pool: double unref detected (index %d)" -/
  | doubleUnref (index : ℤ)
  /-- "frame_pool: free list overflow" -/
  | freeListOverflow
  deriving DecidableEq, Repr

/-- `struct FramePool`. The backing memory is a function of the offset; `stderr` collects the
diagnostics. -/
structure FramePool where
  frames : ℕ → Frame
  backing : ℕ → UInt8
  capacity : ℕ
  count : ℕ
  freeList : List ℤ
  freeCount : ℕ
  stderr : List FramePoolDiagnostic

/-- A `size_t` converted to `int`: its low 32 bits, with a sign. -/
def intOfSize (i : ℕ) : ℤ :=
  if i % 2 ^ 32 < 2 ^ 31 then (i % 2 ^ 32 : ℕ) else (i % 2 ^ 32 : ℕ) - 2 ^ 32

/-- A frame as `calloc` and the loop of `frame_pool_create` leave it. -/
def initialFrame (capacity i : ℕ) : Frame :=
  ⟨0, 0, 0, 0, 0, 0, 0, i * capacity, intOfSize i, 0⟩

/-- `frame_pool_create` -/
def framePoolCreate (capacity count : ℕ) : Option FramePool :=
  if capacity = 0 ∨ count = 0 then none
  else some
    { frames := initialFrame capacity
      backing := fun _ ↦ 0
      capacity := capacity
      count := count
      freeList := (List.range count).map intOfSize
      freeCount := count
      stderr := [] }

/-- Write one frame. -/
def FramePool.setFrame (pool : FramePool) (i : ℕ) (f : Frame) : FramePool :=
  { pool with frames := Function.update pool.frames i f }

/-- What a call of `frame_pool_acquire` comes to. -/
inductive Acquired
  /-- It returns `NULL`. -/
  | null
  | frame (i : ℕ) (pool : FramePool)
  /-- `&pool->frames[index]` is before the array, and the call writes there. -/
  | outside (index : ℤ)

/-- `frame_pool_acquire` -/
def framePoolAcquire (pool : FramePool) : Acquired :=
  if pool.freeCount = 0 then .null
  else
    let index := pool.freeList.getD (pool.freeCount - 1) 0
    if index < 0 then .outside index
    else
      let frame : Frame := ⟨0, 0, 0, 0, 0, 0, 0, index.toNat * pool.capacity, index, 1⟩
      .frame index.toNat ({ pool with freeCount := pool.freeCount - 1 }.setFrame index.toNat frame)

/-- `frame_ref` -/
def frameRef (pool : FramePool) (frame : ℕ) : FramePool :=
  pool.setFrame frame { pool.frames frame with refcount := (pool.frames frame).refcount + 1 }

/-- `frame_unref`. Both diagnostics leave the free list alone. -/
def frameUnref (pool : FramePool) (frame : ℕ) : FramePool :=
  let f := pool.frames frame
  if f.refcount ≤ 0 then { pool with stderr := .doubleUnref f.poolIndex :: pool.stderr }
  else
    let f := { f with refcount := f.refcount - 1 }
    if f.refcount ≤ 0 ∧ 0 ≤ f.poolIndex then
      let pool := pool.setFrame frame { f with poolIndex := -1 }
      if pool.count ≤ pool.freeCount then
        { pool with stderr := .freeListOverflow :: pool.stderr }
      else
        { pool with
          freeList := pool.freeList.set pool.freeCount f.poolIndex
          freeCount := pool.freeCount + 1 }
    else pool.setFrame frame f

@[simp] theorem setFrame_frames_self (pool : FramePool) (i : ℕ) (f : Frame) :
    (pool.setFrame i f).frames i = f := by
  show Function.update pool.frames i f i = f
  rw [Function.update_self]

theorem setFrame_frames_of_ne {i j : ℕ} (h : j ≠ i) (pool : FramePool) (f : Frame) :
    (pool.setFrame i f).frames j = pool.frames j := by
  show Function.update pool.frames i f j = pool.frames j
  rw [Function.update_of_ne h]

/-- Only an empty stack makes `frame_pool_acquire` fail. -/
theorem framePoolAcquire_eq_null_iff {pool : FramePool} :
    framePoolAcquire pool = .null ↔ pool.freeCount = 0 := by
  rw [framePoolAcquire]
  dsimp only
  split_ifs with hzero hneg
  · exact iff_of_true rfl hzero
  · exact iff_of_false nofun hzero
  · exact iff_of_false nofun hzero

/-- Only a negative index on top of the stack makes it leave the array. -/
theorem framePoolAcquire_eq_outside_iff {pool : FramePool} {index : ℤ} :
    framePoolAcquire pool = .outside index ↔
      pool.freeCount ≠ 0 ∧ pool.freeList.getD (pool.freeCount - 1) 0 = index ∧ index < 0 := by
  rw [framePoolAcquire]
  dsimp only
  split_ifs with hzero hneg
  · exact iff_of_false nofun fun h ↦ h.1 hzero
  · constructor
    · intro h
      obtain rfl := Acquired.outside.inj h
      exact ⟨hzero, rfl, hneg⟩
    · rintro ⟨-, rfl, -⟩
      rfl
  · refine iff_of_false nofun ?_
    rintro ⟨-, rfl, hindex⟩
    exact hneg hindex

/-- What it has done when it returns a frame. -/
theorem framePoolAcquire_eq_frame_iff {pool pool' : FramePool} {i : ℕ} :
    framePoolAcquire pool = .frame i pool' ↔
      pool.freeCount ≠ 0 ∧ pool.freeList.getD (pool.freeCount - 1) 0 = i ∧
      pool' = { pool with freeCount := pool.freeCount - 1 }.setFrame i
        ⟨0, 0, 0, 0, 0, 0, 0, i * pool.capacity, i, 1⟩ := by
  rw [framePoolAcquire]
  dsimp only
  set index := pool.freeList.getD (pool.freeCount - 1) 0
  split_ifs with hzero hneg
  · exact iff_of_false nofun fun h ↦ h.1 hzero
  · exact iff_of_false nofun fun h ↦ absurd (Int.natCast_nonneg i) (h.2.1 ▸ Int.not_le.2 hneg)
  · have hindex : (index.toNat : ℤ) = index := Int.toNat_of_nonneg (Int.not_lt.1 hneg)
    constructor
    · intro h
      obtain ⟨rfl, rfl⟩ := Acquired.frame.inj h
      exact ⟨hzero, hindex.symm, by rw [hindex]⟩
    · rintro ⟨-, hi, rfl⟩
      rw [hi, Int.toNat_natCast]

/-! ### The stack of free indices -/

/-- The free indices, the next one to be taken first. -/
def FramePool.stack (pool : FramePool) : List ℤ :=
  (pool.freeList.take pool.freeCount).reverse

/-- The stack is the used part of the array. -/
theorem length_stack {pool : FramePool} (hlen : pool.freeCount ≤ pool.freeList.length) :
    pool.stack.length = pool.freeCount := by
  rw [FramePool.stack, List.length_reverse, List.length_take, Nat.min_eq_left hlen]

/-- Popping the stack. -/
theorem stack_eq_cons {pool : FramePool} (hlen : pool.freeCount ≤ pool.freeList.length)
    (hpos : pool.freeCount ≠ 0) :
    pool.stack = pool.freeList.getD (pool.freeCount - 1) 0 ::
      (pool.freeList.take (pool.freeCount - 1)).reverse := by
  obtain ⟨n, hn⟩ := Nat.exists_eq_succ_of_ne_zero hpos
  have hlt : n < pool.freeList.length := Nat.lt_of_succ_le (hn ▸ hlen)
  rw [FramePool.stack, hn, Nat.succ_eq_add_one, Nat.add_sub_cancel,
    List.take_succ_eq_append_getElem hlt, List.reverse_append, List.getD_eq_getElem _ _ hlt]
  rfl

/-- The top of the stack is the last entry in use. -/
theorem head?_stack {pool : FramePool} (hlen : pool.freeCount ≤ pool.freeList.length)
    (hpos : pool.freeCount ≠ 0) :
    pool.stack.head? = some (pool.freeList.getD (pool.freeCount - 1) 0) := by
  rw [stack_eq_cons hlen hpos]
  rfl

/-- Pushing on the stack. -/
theorem stack_push {pool : FramePool} (hlt : pool.freeCount < pool.freeList.length) (i : ℤ) :
    ((pool.freeList.set pool.freeCount i).take (pool.freeCount + 1)).reverse = i :: pool.stack := by
  have hlt' : pool.freeCount < (pool.freeList.set pool.freeCount i).length := by
    rwa [List.length_set]
  rw [List.take_succ_eq_append_getElem hlt', List.getElem_set_self,
    List.take_set_of_le (Nat.le_refl _), List.reverse_append]
  rfl

/-! ### Indices of type `int` -/

/-- Below `2 ^ 31` the conversion keeps the number. -/
theorem intOfSize_of_lt {i : ℕ} (h : i < 2 ^ 31) : intOfSize i = i := by
  have hlow : i % 2 ^ 32 = i := Nat.mod_eq_of_lt (by omega)
  rw [intOfSize, hlow, if_pos h]

theorem intOfSize_lt (i : ℕ) : intOfSize i < 2 ^ 31 := by
  have hlow : i % 2 ^ 32 < 2 ^ 32 := Nat.mod_lt _ (by omega)
  rw [intOfSize]
  split_ifs <;> omega

/-- The numbers from `2 ^ 32 * k` on start at zero again. -/
theorem intOfSize_add_mul (i k : ℕ) : intOfSize (2 ^ 32 * k + i) = intOfSize i := by
  have hlow : (2 ^ 32 * k + i) % 2 ^ 32 = i % 2 ^ 32 := Nat.mul_add_mod _ _ _
  simp only [intOfSize, hlow]

/-- The upper half of the numbers below `2 ^ 32` is negative. -/
theorem intOfSize_neg {i : ℕ} (hge : 2 ^ 31 ≤ i) (hlt : i < 2 ^ 32) : intOfSize i < 0 := by
  have hlow : i % 2 ^ 32 = i := Nat.mod_eq_of_lt hlt
  rw [intOfSize, hlow, if_neg (Nat.not_lt.2 hge)]
  omega

/-- How many frames can be had before a negative index comes up. -/
def usableFrames (count : ℕ) : ℕ :=
  if (count - 1) % 2 ^ 32 < 2 ^ 31 then (count - 1) % 2 ^ 32 + 1 else 0

/-- Up to `2 ^ 31` buffers all frames are usable. -/
theorem usableFrames_of_le {count : ℕ} (hpos : count ≠ 0) (hle : count ≤ 2 ^ 31) :
    usableFrames count = count := by
  rw [usableFrames]
  split_ifs with h <;> omega

theorem usableFrames_le {count : ℕ} (hpos : count ≠ 0) : usableFrames count ≤ count := by
  have hmod := Nat.mod_le (count - 1) (2 ^ 32)
  rw [usableFrames]
  split_ifs <;> omega

/-- **The stack of a new pool**: the usable frames, and behind them a negative
index if there is any other. -/
theorem stack_framePoolCreate {count : ℕ} (hpos : count ≠ 0) :
    ∃ buried : List ℤ, ((List.range count).map intOfSize).reverse =
        (List.range (usableFrames count)).reverse.map Int.ofNat ++ buried ∧
      ∀ index ∈ buried.head?, index < 0 := by
  set n := usableFrames count with hn
  have hle : n ≤ count := usableFrames_le hpos
  have hdiv := Nat.div_add_mod (count - 1) (2 ^ 32)
  rw [usableFrames] at hn
  refine ⟨((List.range (count - n)).map intOfSize).reverse, ?_, fun index hindex ↦ ?_⟩
  · have hblock : (List.range n).map (fun i ↦ intOfSize (count - n + i)) = (List.range n).map Int.ofNat := by
      refine List.map_congr_left fun i hi ↦ ?_
      have hi : i < n := List.mem_range.1 hi
      have hbase : count - n = 2 ^ 32 * ((count - 1) / 2 ^ 32) := by
        split_ifs at hn <;> omega
      rw [hbase, intOfSize_add_mul]
      refine intOfSize_of_lt ?_
      split_ifs at hn <;> omega
    conv_lhs => rw [show count = count - n + n by omega]
    rw [List.range_add, List.map_append, List.map_map, List.reverse_append, List.map_reverse, ← hblock]
    rfl
  · rw [List.head?_reverse, List.getLast?_map, List.getLast?_range] at hindex
    split_ifs at hindex with hzero
    · exact absurd hindex.symm (Option.some_ne_none index)
    · obtain rfl := Option.some.inj hindex
      split_ifs at hn with hlow
      · -- The numbers below the usable ones end with `2 ^ 32 * k - 1`.
        obtain ⟨k, hk⟩ : ∃ k, (count - 1) / 2 ^ 32 = k + 1 :=
          Nat.exists_eq_succ_of_ne_zero fun h ↦ by omega
        have hlast : count - n - 1 = 2 ^ 32 * k + (2 ^ 32 - 1) := by omega
        rw [hlast, intOfSize_add_mul]
        exact intOfSize_neg (by decide) (by decide)
      · have hlast : count - n - 1 = 2 ^ 32 * ((count - 1) / 2 ^ 32) + (count - 1) % 2 ^ 32 := by omega
        rw [hlast, intOfSize_add_mul]
        exact intOfSize_neg (Nat.not_lt.1 hlow) (Nat.mod_lt _ (by decide))

/-! ### Refinement -/

/-- A pool of `count` frames represents an abstract pool over the usable ones. -/
structure FramePool.Represents (count : ℕ) (pool : FramePool)
    (a : RefPool (Finset.range (usableFrames count))) : Prop where
  count_eq : pool.count = count
  length_freeList : pool.freeList.length = count
  freeCount_le : pool.freeCount ≤ count
  /-- Below the free frames a negative index is next. -/
  stack_eq : ∃ buried : List ℤ, pool.stack = a.free.map Int.ofNat ++ buried ∧
    usableFrames count + buried.length = count ∧ ∀ index ∈ buried.head?, index < 0
  refcount_eq : ∀ i < usableFrames count, (pool.frames i).refcount = a.refs.count i
  poolIndex_eq : ∀ i ∈ a.refs, (pool.frames i).poolIndex = i
  stderr_eq : pool.stderr = []

variable {count : ℕ} {pool : FramePool} {a : RefPool (Finset.range (usableFrames count))}

namespace FramePool.Represents

/-- When all frames are usable the stack is the free list. -/
theorem stack_eq_free (h : pool.Represents count a) (hall : usableFrames count = count) :
    pool.stack = a.free.map Int.ofNat := by
  obtain ⟨buried, hstack, hcount, -⟩ := h.stack_eq
  obtain rfl : buried = [] := List.length_eq_zero_iff.1 (by omega)
  rw [hstack, List.append_nil]

theorem freeCount_eq (h : pool.Represents count a) :
    pool.freeCount + usableFrames count = a.free.length + count := by
  obtain ⟨buried, hstack, hcount, -⟩ := h.stack_eq
  have hlen := length_stack (h.length_freeList.symm ▸ h.freeCount_le)
  rw [hstack, List.length_append, List.length_map] at hlen
  omega

/-- Only usable frames are ever referenced. -/
theorem lt_of_mem (_h : pool.Represents count a) {i : ℕ} (hi : i ∈ a.refs) :
    i < usableFrames count :=
  Finset.mem_range.1 (a.refs_subset i hi)

/-- A referenced frame is not on the stack, so the stack has room for it. -/
theorem freeCount_lt (h : pool.Represents count a) {i : ℕ} (hi : i ∈ a.refs) : pool.freeCount < count := by
  have hfree := (a.length_free_lt hi).trans_eq (Finset.card_range _)
  have hcount := h.freeCount_eq
  omega

end FramePool.Represents

/-- **A fresh pool has every usable index free.** -/
theorem represents_framePoolCreate {capacity : ℕ} (h : framePoolCreate capacity count = some pool) :
    ∃ a : RefPool (Finset.range (usableFrames count)), pool.Represents count a ∧ a.refs = 0 := by
  rw [framePoolCreate] at h
  split_ifs at h with hzero
  obtain ⟨-, hpos⟩ := not_or.1 hzero
  obtain rfl := Option.some.inj h
  obtain ⟨buried, hstack, hburied⟩ := stack_framePoolCreate hpos
  refine ⟨RefPool.fresh (List.range (usableFrames count)).reverse (List.nodup_reverse.2 List.nodup_range) ?_, ?_, rfl⟩
  · intro i
    rw [List.mem_reverse, List.mem_range, Finset.mem_range]
  · have hlength : ((List.range count).map intOfSize).length = count := by
      rw [List.length_map, List.length_range]
    refine ⟨rfl, hlength, Nat.le_refl _, ⟨buried, ?_, ?_, hburied⟩, fun _ _ ↦ rfl,
      fun _ hi ↦ ?_, rfl⟩
    · show (((List.range count).map intOfSize).take count).reverse = _
      rw [List.take_of_length_le hlength.le, hstack]
      rfl
    · have hlen := congrArg List.length hstack
      rw [List.length_reverse, hlength, List.length_append, List.length_map, List.length_reverse,
        List.length_range] at hlen
      exact hlen.symm
    · exact absurd hi (Multiset.notMem_zero _)

/-- **A new pool of more frames** than an `int` counts hands out a negative index first. -/
theorem framePoolAcquire_framePoolCreate {capacity : ℕ} (h : framePoolCreate capacity count = some pool)
    (hge : 2 ^ 31 < count) (hle : count ≤ 2 ^ 32) :
    framePoolAcquire pool = .outside ((count : ℤ) - 1 - 2 ^ 32) := by
  rw [framePoolCreate] at h
  split_ifs at h with hzero
  obtain rfl := Option.some.inj h
  have htop : ((List.range count).map intOfSize).getD (count - 1) 0 = (count : ℤ) - 1 - 2 ^ 32 := by
    have hlt : count - 1 < ((List.range count).map intOfSize).length := by
      rw [List.length_map, List.length_range]
      omega
    have hlow : (count - 1) % 2 ^ 32 = count - 1 := Nat.mod_eq_of_lt (by omega)
    rw [List.getD_eq_getElem _ _ hlt, List.getElem_map, List.getElem_range, intOfSize, hlow,
      if_neg (by omega)]
    omega
  exact framePoolAcquire_eq_outside_iff.2 ⟨show count ≠ 0 by omega, htop, by omega⟩

/-- Its stack has no index from `2 ^ 31` on. -/
theorem lt_of_mem_stack_framePoolCreate {capacity : ℕ} (h : framePoolCreate capacity count = some pool)
    {index : ℤ} (hindex : index ∈ pool.stack) : index < 2 ^ 31 := by
  rw [framePoolCreate] at h
  split_ifs at h with hzero
  obtain rfl := Option.some.inj h
  obtain ⟨i, -, rfl⟩ := List.mem_map.1 (List.mem_of_mem_take (List.mem_reverse.1 hindex))
  exact intOfSize_lt i

/-- **Acquiring refines taking the head of the free list.** The frame returned is one nobody
references. -/
theorem represents_framePoolAcquire (h : pool.Represents count a) {i : ℕ} {pool' : FramePool}
    (hacq : framePoolAcquire pool = .frame i pool') :
    i < usableFrames count ∧ i ∉ a.refs ∧ ∃ (rest : List ℕ) (hfree : a.free = i :: rest),
      pool'.Represents count (a.acquire hfree) := by
  obtain ⟨hpos, htop, rfl⟩ := framePoolAcquire_eq_frame_iff.1 hacq
  have hpop := stack_eq_cons (h.length_freeList.symm ▸ h.freeCount_le) hpos
  obtain ⟨buried, hstack, hcount, hburied⟩ := h.stack_eq
  rw [hstack, htop] at hpop
  obtain ⟨j, rest, hfree⟩ : ∃ j rest, a.free = j :: rest := by
    -- An empty free list leaves a negative index on top.
    refine List.exists_cons_of_ne_nil fun hnil ↦ ?_
    rw [hnil, List.map_nil, List.nil_append] at hpop
    exact absurd (Int.natCast_nonneg i) (Int.not_le.2 (hburied i (by rw [hpop]; rfl)))
  rw [hfree, List.map_cons, List.cons_append] at hpop
  obtain ⟨hindex, hrest⟩ := List.cons.inj hpop
  obtain rfl : i = j := (Int.ofNat.inj hindex).symm
  -- What the stack hands out is in the pool and has no references.
  have hU := (a.mem_free i).1 (hfree ▸ List.mem_cons_self)
  refine ⟨Finset.mem_range.1 hU.1, hU.2, rest, hfree, ?_⟩
  refine ⟨h.count_eq, h.length_freeList, (Nat.sub_le _ _).trans h.freeCount_le,
    ⟨buried, hrest.symm, hcount, hburied⟩, ?_, ?_, h.stderr_eq⟩
  · intro j hj
    show _ = ((i ::ₘ a.refs).count j : ℤ)
    rcases eq_or_ne j i with rfl | hne
    · rw [setFrame_frames_self, Multiset.count_cons_self, Multiset.count_eq_zero.2 hU.2]
      rfl
    · rw [setFrame_frames_of_ne hne, Multiset.count_cons_of_ne hne]
      exact h.refcount_eq j hj
  · intro j hj
    rcases eq_or_ne j i with rfl | hne
    · rw [setFrame_frames_self]
    · rw [setFrame_frames_of_ne hne]
      exact h.poolIndex_eq j ((Multiset.mem_cons.1 hj).resolve_left hne)

/-- **With a usable frame free there is one to be had.** -/
theorem exists_framePoolAcquire (h : pool.Represents count a) (hfree : a.free ≠ []) :
    ∃ i pool', framePoolAcquire pool = .frame i pool' := by
  obtain ⟨i, rest, hcons⟩ := List.exists_cons_of_ne_nil hfree
  obtain ⟨buried, hstack, -, -⟩ := h.stack_eq
  have hlen := length_stack (h.length_freeList.symm ▸ h.freeCount_le)
  rw [hstack, hcons, List.map_cons, List.cons_append, List.length_cons] at hlen
  have hpos : pool.freeCount ≠ 0 := by omega
  have hpop := stack_eq_cons (h.length_freeList.symm ▸ h.freeCount_le) hpos
  rw [hstack, hcons, List.map_cons, List.cons_append] at hpop
  exact ⟨i, _, framePoolAcquire_eq_frame_iff.2 ⟨hpos, (List.cons.inj hpop).1.symm, rfl⟩⟩

/-- **In a pool whose frames are all usable** no access is outside the array. -/
theorem framePoolAcquire_ne_outside (h : pool.Represents count a) (hall : usableFrames count = count)
    (index : ℤ) :
    framePoolAcquire pool ≠ .outside index := by
  intro hacq
  rcases hfree : a.free with - | ⟨i, rest⟩
  · have hcount := h.freeCount_eq
    rw [hfree, List.length_nil] at hcount
    have hnull := framePoolAcquire_eq_null_iff.2 (by omega : pool.freeCount = 0)
    exact Acquired.noConfusion (hnull.symm.trans hacq)
  · obtain ⟨i, pool', hframe⟩ := exists_framePoolAcquire h (hfree ▸ List.cons_ne_nil i rest)
    exact Acquired.noConfusion (hacq.symm.trans hframe)

/-- **`frame_ref` refines sharing.** -/
theorem represents_frameRef (h : pool.Represents count a) {i : ℕ} (hi : i ∈ a.refs) :
    (frameRef pool i).Represents count (a.share hi) := by
  refine ⟨h.count_eq, h.length_freeList, h.freeCount_le, h.stack_eq, ?_, ?_, h.stderr_eq⟩
  · intro j hj
    show _ = ((i ::ₘ a.refs).count j : ℤ)
    rcases eq_or_ne j i with rfl | hne
    · rw [frameRef, setFrame_frames_self, Multiset.count_cons_self, h.refcount_eq j hj]
      rfl
    · rw [frameRef, setFrame_frames_of_ne hne, Multiset.count_cons_of_ne hne]
      exact h.refcount_eq j hj
  · intro j hj
    rcases eq_or_ne j i with rfl | hne
    · rw [frameRef, setFrame_frames_self]
      exact h.poolIndex_eq j hi
    · rw [frameRef, setFrame_frames_of_ne hne]
      exact h.poolIndex_eq j ((Multiset.mem_cons.1 hj).resolve_left hne)

/-- **`frame_unref` refines releasing.** Neither diagnostic is reached: the count is positive, and a
stack that lacks a referenced index is not full. -/
theorem represents_frameUnref (h : pool.Represents count a) {i : ℕ} (hi : i ∈ a.refs) :
    (frameUnref pool i).Represents count (a.release hi) := by
  have hcount : (pool.frames i).refcount = a.refs.count i := h.refcount_eq i (h.lt_of_mem hi)
  have hpos : 0 < a.refs.count i := Multiset.count_pos.2 hi
  have herase : ∀ j ≠ i, (a.refs.erase i).count j = a.refs.count j := fun j hne ↦
    Multiset.count_erase_of_ne hne _
  have hindex : (pool.frames i).poolIndex = i := h.poolIndex_eq i hi
  have hroom : ¬ pool.count ≤ pool.freeCount := h.count_eq ▸ Nat.not_le.2 (h.freeCount_lt hi)
  obtain ⟨buried, hstack, hcount', hburied⟩ := h.stack_eq
  -- The last reference goes exactly when the multiset keeps none.
  have hlast : i ∈ a.refs.erase i ↔ ¬ (pool.frames i).refcount - 1 ≤ 0 := by
    rw [← Multiset.count_pos, Multiset.count_erase_self, hcount]
    omega
  have hcounts : ∀ (f : Frame), f.refcount = (pool.frames i).refcount - 1 → ∀ j < usableFrames count,
      ((pool.setFrame i f).frames j).refcount = ((a.refs.erase i).count j : ℤ) := by
    intro f hf j hj
    rcases eq_or_ne j i with rfl | hne
    · rw [setFrame_frames_self, hf, Multiset.count_erase_self, hcount]
      omega
    · rw [setFrame_frames_of_ne hne, herase j hne]
      exact h.refcount_eq j hj
  rw [frameUnref]
  rw [if_neg (by omega)]
  dsimp only
  split_ifs with hzero hfull
  · exact absurd hfull hroom
  · -- The last reference goes, and the index returns to the stack.
    have hgone : i ∉ a.refs.erase i := fun hmem ↦ hlast.1 hmem hzero.1
    refine ⟨h.count_eq, ?_, ?_, ⟨buried, ?_, hcount', hburied⟩, hcounts _ rfl, ?_, h.stderr_eq⟩
    · exact List.length_set.trans h.length_freeList
    · exact Nat.succ_le_of_lt (h.freeCount_lt hi)
    · show ((pool.freeList.set pool.freeCount (pool.frames i).poolIndex).take
        (pool.freeCount + 1)).reverse =
          (if i ∈ a.refs.erase i then a.free else i :: a.free).map Int.ofNat ++ buried
      rw [stack_push (h.length_freeList.symm ▸ h.freeCount_lt hi), hindex, if_neg hgone, hstack]
      rfl
    · intro j hj
      have hne : j ≠ i := fun he ↦ hgone (he ▸ hj)
      show ((pool.setFrame i _).frames j).poolIndex = j
      rw [setFrame_frames_of_ne hne]
      exact h.poolIndex_eq j (Multiset.mem_of_mem_erase hj)
  · -- The index of a referenced frame is never negative, so the branch means that others hold it.
    have hstays : i ∈ a.refs.erase i := by
      refine hlast.2 fun hle ↦ hzero ⟨hle, ?_⟩
      rw [hindex]
      exact Int.natCast_nonneg i
    refine ⟨h.count_eq, h.length_freeList, h.freeCount_le, ⟨buried, ?_, hcount', hburied⟩,
      hcounts _ rfl, ?_, h.stderr_eq⟩
    · show pool.stack = (if i ∈ a.refs.erase i then a.free else i :: a.free).map Int.ofNat ++ buried
      rw [if_pos hstays, hstack]
    · intro j hj
      rcases eq_or_ne j i with rfl | hne
      · rw [setFrame_frames_self]
        exact hindex
      · rw [setFrame_frames_of_ne hne]
        exact h.poolIndex_eq j (Multiset.mem_of_mem_erase hj)

end Camstream
