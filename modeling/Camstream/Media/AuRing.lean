import Mathlib.Data.Int.Notation
import Camstream.Lib.DropOldest
import Camstream.Lib.Memory
import Camstream.Lib.Run

/-!
# The access-unit ring

`src/media/au_ring.c`: the encoder thread pushes encoded pictures, the event loop pops them, and a full
ring overwrites the oldest. Both operations hold the lock of the ring from their checks to the end, so
that a run is a sequence of calls.

The ring is a `DropOldest` queue: `fifoCall` says what each call should do, and `Represents` connects the
circular buffer to it. Two of its measures are machine words. The counters of the ring wrap after `2 ^ 64`
access units, and so the order of sequence numbers is a statement about shorter runs. The offset of a
slot is computed in `size_t`, and so the slots are apart only if the whole backing has a size.
-/

namespace Camstream

/-- `AuMeta` -/
structure AuMeta where
  ptsUs : UInt64
  sequence : UInt64
  isIdr : ℤ
  size : ℕ
  deriving DecidableEq, Repr

/-- What `au_ring_pop` hands out. -/
structure AccessUnit where
  bytes : List UInt8
  info : AuMeta
  deriving DecidableEq, Repr

/-- `struct AuRing`; `info` is its array `meta`. -/
structure AuRing where
  backing : ℕ → UInt8
  info : ℕ → AuMeta
  slotCapacity : ℕ
  slotCount : ℕ
  head : ℕ
  tail : ℕ
  count : ℕ
  dropped : UInt64
  sequence : UInt64

/-- `au_ring_create` -/
def auRingCreate (slotCapacity slotCount : ℕ) : Option AuRing :=
  if slotCapacity = 0 ∨ slotCount = 0 then none
  else some
    { backing := fun _ ↦ 0
      info := fun _ ↦ ⟨0, 0, 0, 0⟩
      slotCapacity := slotCapacity
      slotCount := slotCount
      head := 0
      tail := 0
      count := 0
      dropped := 0
      sequence := 0 }

/-- Where a slot begins in the backing: `size_t` arithmetic. -/
def AuRing.offset (ring : AuRing) (slot : ℕ) : ℕ :=
  slot * ring.slotCapacity % 2 ^ 64

/-- What `au_ring_create` has allocated for the slots: `size_t` arithmetic. -/
def AuRing.backingSize (ring : AuRing) : ℕ :=
  ring.slotCapacity * ring.slotCount % 2 ^ 64

/-- All slots are inside the backing. -/
def AuRing.Inside (ring : AuRing) : Prop :=
  ∀ slot < ring.slotCount, ring.offset slot + ring.slotCapacity ≤ ring.backingSize

/-- The access unit in a slot. -/
def AuRing.unit (ring : AuRing) (slot : ℕ) : AccessUnit :=
  ⟨(List.range (ring.info slot).size).map fun k ↦ ring.backing (ring.offset slot + k), ring.info slot⟩

/-- "Overwrite the oldest access unit." -/
def AuRing.overwriteOldest (ring : AuRing) : AuRing :=
  if ring.count = ring.slotCount then
    { ring with
      head := (ring.head + 1) % ring.slotCount
      count := ring.count - 1
      dropped := ring.dropped + 1 }
  else ring

/-- The rest of `au_ring_push`: write the slot at the tail. -/
def AuRing.store (ring : AuRing) (data : ℕ → UInt8) (size : ℕ) (ptsUs : UInt64) (isIdr : ℤ) : AuRing :=
  { ring with
    backing := Memory.copy ring.backing (ring.offset ring.tail) data size
    info := Function.update ring.info ring.tail ⟨ptsUs, ring.sequence, isIdr, size⟩
    sequence := ring.sequence + 1
    tail := (ring.tail + 1) % ring.slotCount
    count := ring.count + 1 }

/-- `au_ring_push`; `data` is a pointer, `none` is `NULL`. -/
def auRingPush (ring : AuRing) (data : Option (ℕ → UInt8)) (size : ℕ) (ptsUs : UInt64) (isIdr : ℤ) :
    ℤ × AuRing :=
  if size = 0 ∨ ring.slotCapacity < size then (-1, ring)
  else
    match data with
    | none => (-1, ring)
    | some data => (0, ring.overwriteOldest.store data size ptsUs isIdr)

/-- `au_ring_pop`: `none` is its result `0`. An access unit that does not fit the buffer leaves the ring
all the same. -/
def auRingPop (ring : AuRing) (bufferCapacity : ℕ) : Option AccessUnit × AuRing :=
  if ring.count = 0 then (none, ring)
  else
    let head := ring.head
    let ok := (ring.info head).size ≤ bufferCapacity
    (if ok then some (ring.unit head) else none,
      { ring with head := (head + 1) % ring.slotCount, count := ring.count - 1 })

/-- What a push does: it is rejected, or it stores the access unit. -/
theorem auRingPush_cases (ring : AuRing) (data : Option (ℕ → UInt8)) (size : ℕ) (ptsUs : UInt64)
    (isIdr : ℤ) :
    auRingPush ring data size ptsUs isIdr = (-1, ring) ∧
        (size = 0 ∨ ring.slotCapacity < size ∨ data = none) ∨
      ∃ bytes, data = some bytes ∧ size ≠ 0 ∧ size ≤ ring.slotCapacity ∧
        auRingPush ring data size ptsUs isIdr =
          (0, ring.overwriteOldest.store bytes size ptsUs isIdr) := by
  rw [auRingPush.eq_def]
  split_ifs with hsize
  · exact .inl ⟨rfl, hsize.imp_right .inl⟩
  · obtain ⟨hzero, hle⟩ := not_or.1 hsize
    rcases data with - | bytes
    · exact .inl ⟨rfl, .inr (.inr rfl)⟩
    · exact .inr ⟨bytes, rfl, hzero, Nat.not_lt.1 hle, rfl⟩

/-! ### Runs -/

/-- The calls of the two threads. -/
inductive AuRingCall
  | push (data : Option (ℕ → UInt8)) (size : ℕ) (ptsUs : UInt64) (isIdr : ℤ)
  | pop (bufferCapacity : ℕ)

/-- The access unit that a push offers, unless it is rejected. -/
def offeredUnit (capacity : ℕ) (data : Option (ℕ → UInt8)) (size : ℕ) (ptsUs : UInt64) (isIdr : ℤ)
    (sequence : UInt64) : Option AccessUnit :=
  if size = 0 ∨ capacity < size then none
  else data.map fun data ↦ ⟨(List.range size).map data, ⟨ptsUs, sequence, isIdr, size⟩⟩

/-- A push of nothing, or of more than a slot holds, is no offer. -/
theorem offeredUnit_eq_none {capacity size : ℕ} {data : Option (ℕ → UInt8)} {ptsUs sequence : UInt64}
    {isIdr : ℤ} (h : size = 0 ∨ capacity < size ∨ data = none) :
    offeredUnit capacity data size ptsUs isIdr sequence = none := by
  rw [offeredUnit]
  split_ifs with hsize
  · rfl
  · rcases h with h | h | rfl
    · exact absurd (.inl h) hsize
    · exact absurd (.inr h) hsize
    · rfl

/-- Any other push offers its bytes. -/
theorem offeredUnit_eq_some {capacity size : ℕ} {bytes : ℕ → UInt8} {ptsUs sequence : UInt64}
    {isIdr : ℤ} (hzero : size ≠ 0) (hle : size ≤ capacity) :
    offeredUnit capacity (some bytes) size ptsUs isIdr sequence =
      some ⟨(List.range size).map bytes, ⟨ptsUs, sequence, isIdr, size⟩⟩ :=
  if_neg (not_or.2 ⟨hzero, Nat.not_lt.2 hle⟩)

/-- A ring with what its calls have returned: the access units of the pushes that returned `0`, with the
sequence number the ring had for them, and those of the pops that returned `1`. -/
structure AuTrace where
  ring : AuRing
  accepted : List AccessUnit
  popped : List AccessUnit

/-- One call, with a buffer that has room for a slot. -/
def auTraceStep (t : AuTrace) : AuRingCall → Option AuTrace
  | .push data size ptsUs isIdr =>
    let r := auRingPush t.ring data size ptsUs isIdr
    let unit := data.map fun data ↦
      (⟨(List.range size).map data, ⟨ptsUs, t.ring.sequence, isIdr, size⟩⟩ : AccessUnit)
    some { t with ring := r.2, accepted := t.accepted ++ if r.1 = 0 then unit.toList else [] }
  | .pop bufferCapacity =>
    if bufferCapacity < t.ring.slotCapacity then none
    else
      let r := auRingPop t.ring bufferCapacity
      some { t with ring := r.2, popped := t.popped ++ r.1.toList }

/-- The access units in the ring, the oldest first. -/
def AuRing.stored (ring : AuRing) : List AccessUnit :=
  Circular.window ring.unit ring.slotCount ring.head ring.count

/-- What a call should do to a queue of `n` access units: the `k`-th that is accepted carries `k`, as a
64-bit number. -/
def fifoCall (capacity n : ℕ) (q : DropOldest AccessUnit) : AuRingCall → DropOldest AccessUnit
  | .push data size ptsUs isIdr =>
    match offeredUnit capacity data size ptsUs isIdr (UInt64.ofNat q.accepted.length) with
    | some unit => q.push n unit
    | none => q
  | .pop _ => q.take

/-- **The ring after some calls is a bounded queue that drops its oldest access unit.** -/
structure AuRingLaw (capacity n : ℕ) (calls : List AuRingCall) (t : AuTrace) : Prop where
  accepted_eq : t.accepted = (calls.foldl (fifoCall capacity n) .empty).accepted
  popped_eq : t.popped = (calls.foldl (fifoCall capacity n) .empty).taken
  stored_eq : t.ring.stored = (calls.foldl (fifoCall capacity n) .empty).stored
  dropped_eq : t.ring.dropped = UInt64.ofNat (calls.foldl (fifoCall capacity n) .empty).dropped
  rejected : ∀ data size ptsUs isIdr, (auRingPush t.ring data size ptsUs isIdr).1 ≠ 0 →
    (auRingPush t.ring data size ptsUs isIdr).2 = t.ring
  /-- The slots that the calls read and write are allocated. -/
  inside : t.ring.Inside
  pop_eq_none_iff : ∀ bufferCapacity, capacity ≤ bufferCapacity →
    ((auRingPop t.ring bufferCapacity).1 = none ↔ t.ring.stored = [])
  head_lt : t.ring.head < n
  tail_lt : t.ring.tail < n
  count_le : t.ring.count ≤ n
  tail_eq : t.ring.tail = (t.ring.head + t.ring.count) % n

/-- The sequence number of the oldest stored access unit, or the next one to assign. -/
def AuRing.oldest (ring : AuRing) : ℕ :=
  (ring.stored.head?.map fun unit ↦ unit.info.sequence.toNat).getD ring.sequence.toNat

/-- **The sequence numbers tell what was lost.** -/
structure AuSequenceLaw (t : AuTrace) : Prop where
  increasing : (t.popped.map fun unit ↦ unit.info.sequence.toNat).Pairwise (· < ·)
  card_missing : ((Finset.range t.ring.oldest).filter
    (· ∉ t.popped.map fun unit ↦ unit.info.sequence.toNat)).card = t.ring.dropped.toNat

/-! ### Refinement -/

/-- A ring with `n` slots of `capacity` bytes represents an abstract queue. -/
structure AuRing.Represents (capacity n : ℕ) (ring : AuRing) (q : DropOldest AccessUnit) : Prop where
  slotCapacity_eq : ring.slotCapacity = capacity
  slotCount_eq : ring.slotCount = n
  head_lt : ring.head < n
  count_le : ring.count ≤ n
  tail_eq : ring.tail = (ring.head + ring.count) % n
  stored_eq : ring.stored = q.stored
  dropped_eq : ring.dropped = UInt64.ofNat q.dropped
  sequence_eq : ring.sequence = UInt64.ofNat q.accepted.length
  size_le : ∀ unit ∈ q.stored, unit.info.size ≤ capacity

namespace AuRing.Represents

variable {capacity n : ℕ} {ring : AuRing} {q : DropOldest AccessUnit}

/-- The count is the length of the queue. -/
theorem count_eq (h : ring.Represents capacity n q) : ring.count = q.stored.length := by
  rw [← h.stored_eq, AuRing.stored, Circular.length_window]

theorem tail_lt (h : ring.Represents capacity n q) : ring.tail < n := by
  rw [h.tail_eq]
  exact Nat.mod_lt _ (Nat.zero_lt_of_lt h.head_lt)

/-- A ring that is not empty stores the access unit in the slot at its head, and behind it what the ring
stores without that slot. -/
theorem stored_eq_cons (h : ring.Represents capacity n q) (hpos : ring.count ≠ 0) :
    q.stored = ring.unit ring.head ::
      Circular.window ring.unit n ((ring.head + 1) % n) (ring.count - 1) := by
  rw [← h.stored_eq, AuRing.stored, h.slotCount_eq, ← Circular.window_eq_cons h.head_lt,
    Nat.sub_add_cancel (Nat.pos_of_ne_zero hpos)]

/-- **Moving the head refines the departure of the oldest**, whatever the ring counts. -/
theorem shift (h : ring.Represents capacity n q) (hpos : ring.count ≠ 0) {b : Bool} {dropped : UInt64}
    (hdropped : dropped = UInt64.ofNat (q.shift b).dropped) :
    { ring with
      head := (ring.head + 1) % ring.slotCount
      count := ring.count - 1
      dropped := dropped : AuRing }.Represents capacity n (q.shift b) := by
  have hn : 0 < n := Nat.zero_lt_of_lt h.head_lt
  have hstored := h.stored_eq_cons hpos
  refine ⟨h.slotCapacity_eq, h.slotCount_eq, ?_, (Nat.sub_le _ _).trans h.count_le, ?_, ?_, hdropped,
    ?_, ?_⟩
  · show (ring.head + 1) % ring.slotCount < n
    rw [h.slotCount_eq]
    exact Nat.mod_lt _ hn
  · show ring.tail = ((ring.head + 1) % ring.slotCount + (ring.count - 1)) % n
    rw [h.slotCount_eq, Nat.mod_add_mod, Nat.add_assoc, Nat.add_sub_cancel' (Nat.pos_of_ne_zero hpos),
      h.tail_eq]
  · show Circular.window ring.unit ring.slotCount ((ring.head + 1) % ring.slotCount) (ring.count - 1) =
      (q.shift b).stored
    rw [DropOldest.stored_shift, hstored, h.slotCount_eq, List.tail_cons]
  · rw [DropOldest.accepted_shift]
    exact h.sequence_eq
  · intro unit hunit
    rw [DropOldest.stored_shift] at hunit
    exact h.size_le unit (List.mem_of_mem_tail hunit)

/-- **Overwriting the oldest makes room.** -/
theorem overwriteOldest (h : ring.Represents capacity n q) :
    ring.overwriteOldest.count < n ∧
      ring.overwriteOldest.Represents capacity n
        (if q.stored.length = n then q.shift false else q) := by
  have hn : 0 < n := Nat.zero_lt_of_lt h.head_lt
  rw [AuRing.overwriteOldest, ← h.count_eq, h.slotCount_eq]
  split_ifs with hfull
  · have hpos : ring.count ≠ 0 := hfull ▸ hn.ne'
    have hne : q.stored ≠ [] := by
      rw [h.stored_eq_cons hpos]
      exact List.cons_ne_nil _ _
    refine ⟨?_, ?_⟩
    · show ring.count - 1 < n
      omega
    · rw [← h.slotCount_eq]
      refine h.slotCount_eq.symm ▸ h.shift hpos ?_
      rw [DropOldest.dropped_shift_false hne, UInt64.ofNat_add, ← h.dropped_eq]
      rfl
  · exact ⟨lt_of_le_of_ne h.count_le hfull, h⟩

/-- The slots of a backing that has a size lie behind each other. -/
theorem offset_eq (h : ring.Represents capacity n q) (hfits : capacity * n ≤ 2 ^ 64) {slot : ℕ}
    (hslot : slot < n) (hpos : 0 < capacity) : ring.offset slot = slot * capacity := by
  rw [AuRing.offset, h.slotCapacity_eq]
  refine Nat.mod_eq_of_lt (lt_of_lt_of_le ?_ hfits)
  rw [Nat.mul_comm capacity]
  exact Nat.mul_lt_mul_of_pos_right hslot hpos

/-- A backing that has a size has room for all slots. -/
theorem inside (h : ring.Represents capacity n q) (hfits : capacity * n < 2 ^ 64) : ring.Inside := by
  intro slot hslot
  rw [h.slotCount_eq] at hslot
  rw [AuRing.backingSize, h.slotCapacity_eq, h.slotCount_eq, Nat.mod_eq_of_lt hfits]
  rcases Nat.eq_zero_or_pos capacity with hzero | hpos
  · rw [AuRing.offset, h.slotCapacity_eq, hzero, Nat.mul_zero, Nat.zero_mod]
    exact Nat.zero_le _
  · rw [h.offset_eq hfits.le hslot hpos, ← Nat.succ_mul, Nat.mul_comm]
    exact Nat.mul_le_mul_left capacity hslot

variable {data : ℕ → UInt8} {size : ℕ} {ptsUs : UInt64} {isIdr : ℤ}

/-- The slot at the tail holds what was pushed. -/
theorem unit_store_self : (ring.store data size ptsUs isIdr).unit ring.tail =
    ⟨(List.range size).map data, ⟨ptsUs, ring.sequence, isIdr, size⟩⟩ := by
  have hinfo : (ring.store data size ptsUs isIdr).info ring.tail =
      ⟨ptsUs, ring.sequence, isIdr, size⟩ := Function.update_self _ _ _
  rw [AuRing.unit, hinfo]
  refine congrArg (fun bytes ↦ AccessUnit.mk bytes _) (List.map_congr_left fun k hk ↦ ?_)
  exact Memory.copy_add_of_lt (List.mem_range.1 hk) _ _ _

/-- The other slots keep what they hold. -/
theorem unit_store_of_ne (h : ring.Represents capacity n q) (hfits : capacity * n ≤ 2 ^ 64)
    (hsize : size ≤ capacity) {slot : ℕ} (hslot : slot < n) (hne : slot ≠ ring.tail)
    (hle : (ring.info slot).size ≤ capacity) :
    (ring.store data size ptsUs isIdr).unit slot = ring.unit slot := by
  have hinfo : (ring.store data size ptsUs isIdr).info slot = ring.info slot :=
    Function.update_of_ne hne _ _
  rw [AuRing.unit, AuRing.unit, hinfo]
  refine congrArg (fun bytes ↦ AccessUnit.mk bytes _) (List.map_congr_left fun k hk ↦ ?_)
  have hk : k < capacity := lt_of_lt_of_le (List.mem_range.1 hk) hle
  have hpos : 0 < capacity := Nat.zero_lt_of_lt hk
  show Memory.copy ring.backing (ring.offset ring.tail) data size (ring.offset slot + k) = _
  rw [h.offset_eq hfits hslot hpos, h.offset_eq hfits h.tail_lt hpos,
    Memory.copy_slice_of_ne hne hk hsize]

/-- **Writing the slot at the tail refines adding an element**, where there is room. -/
theorem store (h : ring.Represents capacity n q) (hfits : capacity * n ≤ 2 ^ 64)
    (hroom : ring.count < n) (hsize : size ≤ capacity) :
    (ring.store data size ptsUs isIdr).Represents capacity n
      ⟨q.gone, q.stored ++ [⟨(List.range size).map data, ⟨ptsUs, ring.sequence, isIdr, size⟩⟩]⟩ := by
  have hn : 0 < n := Nat.zero_lt_of_lt h.head_lt
  -- The slots in use are others than the one at the tail.
  have hkeeps : ∀ i < ring.count, (ring.store data size ptsUs isIdr).unit ((ring.head + i) % n) =
      ring.unit ((ring.head + i) % n) := by
    intro i hi
    refine h.unit_store_of_ne hfits hsize (Nat.mod_lt _ hn) ?_ ?_
    · rw [h.tail_eq]
      exact Circular.add_mod_ne hi hroom
    · refine h.size_le (ring.unit ((ring.head + i) % n)) ?_
      rw [← h.stored_eq, AuRing.stored, h.slotCount_eq]
      exact List.mem_map_of_mem (List.mem_range.2 hi)
  refine ⟨h.slotCapacity_eq, h.slotCount_eq, h.head_lt, Nat.succ_le_of_lt hroom, ?_, ?_,
    h.dropped_eq, ?_, ?_⟩
  · show (ring.tail + 1) % ring.slotCount = (ring.head + (ring.count + 1)) % n
    rw [h.slotCount_eq, h.tail_eq, Nat.mod_add_mod, Nat.add_assoc]
  · show Circular.window (ring.store data size ptsUs isIdr).unit ring.slotCount ring.head
      (ring.count + 1) = _
    rw [Circular.window_succ, h.slotCount_eq, Circular.window_congr hkeeps, ← h.tail_eq,
      unit_store_self, ← h.stored_eq, AuRing.stored, h.slotCount_eq]
  · show ring.sequence + 1 = UInt64.ofNat (q.gone.map Prod.fst ++ (q.stored ++ [_])).length
    rw [← List.append_assoc, List.length_append, List.length_singleton, UInt64.ofNat_add,
      ← DropOldest.accepted, ← h.sequence_eq]
    rfl
  · intro unit hunit
    rcases List.mem_append.1 hunit with hunit | hunit
    · exact h.size_le unit hunit
    · rw [List.mem_singleton.1 hunit]
      exact hsize

/-- **`au_ring_push` refines `DropOldest.push`.** -/
theorem auRingPush (h : ring.Represents capacity n q) (hfits : capacity * n ≤ 2 ^ 64)
    (hsize : size ≤ capacity) :
    (ring.overwriteOldest.store data size ptsUs isIdr).Represents capacity n
      (q.push n ⟨(List.range size).map data, ⟨ptsUs, ring.sequence, isIdr, size⟩⟩) := by
  have hsequence : ring.overwriteOldest.sequence = ring.sequence := by
    rw [AuRing.overwriteOldest]
    split_ifs <;> rfl
  obtain ⟨hroom, h'⟩ := h.overwriteOldest
  rw [← hsequence]
  exact h'.store hfits hroom hsize

/-- **`au_ring_pop` refines `DropOldest.take`**, with a buffer that has room for a slot. -/
theorem auRingPop (h : ring.Represents capacity n q) {bufferCapacity : ℕ}
    (hbuffer : capacity ≤ bufferCapacity) :
    (auRingPop ring bufferCapacity).1 = q.stored.head? ∧
      (auRingPop ring bufferCapacity).2.Represents capacity n q.take := by
  rw [Camstream.auRingPop]
  split_ifs with hempty
  · have hnil : q.stored = [] := List.length_eq_zero_iff.1 (h.count_eq ▸ hempty)
    have htake : q.take = q := by
      rw [DropOldest.take, DropOldest.shift, hnil]
    rw [hnil, htake]
    exact ⟨rfl, h⟩
  · have hstored := h.stored_eq_cons hempty
    have hsize : (ring.info ring.head).size ≤ bufferCapacity :=
      (h.size_le (ring.unit ring.head) (hstored ▸ List.mem_cons_self)).trans hbuffer
    refine ⟨?_, h.shift hempty (h.dropped_eq.trans (congrArg _ DropOldest.dropped_take.symm))⟩
    rw [hstored]
    exact if_pos hsize

end AuRing.Represents

/-! ### Runs of calls -/

section Runs

variable {capacity n : ℕ} {t t' : AuTrace} {q : DropOldest AccessUnit}

/-- The ring and what its calls returned agree with the abstract queue. -/
structure AuTrace.Refines (capacity n : ℕ) (t : AuTrace) (q : DropOldest AccessUnit) : Prop where
  represents : t.ring.Represents capacity n q
  accepted_eq : t.accepted = q.accepted
  popped_eq : t.popped = q.taken

/-- A fresh ring is the empty queue. -/
theorem refines_auRingCreate {ring : AuRing} (h : auRingCreate capacity n = some ring) :
    (⟨ring, [], []⟩ : AuTrace).Refines capacity n .empty := by
  rw [auRingCreate] at h
  split_ifs at h with hzero
  obtain rfl := Option.some.inj h
  refine ⟨⟨rfl, rfl, ?_, Nat.zero_le _, (Nat.zero_mod n).symm, rfl, rfl, rfl, nofun⟩, rfl, rfl⟩
  exact Nat.pos_of_ne_zero fun h ↦ hzero (.inr h)

/-- **One call refines one step of the queue.** -/
theorem refines_auTraceStep (hfits : capacity * n ≤ 2 ^ 64) (h : t.Refines capacity n q)
    {call : AuRingCall} (hs : auTraceStep t call = some t') :
    t'.Refines capacity n (fifoCall capacity n q call) := by
  cases call with
  | push data size ptsUs isIdr =>
    obtain rfl := Option.some.inj hs
    rw [fifoCall]
    rcases auRingPush_cases t.ring data size ptsUs isIdr with
      ⟨hr, hbad⟩ | ⟨bytes, rfl, hzero, hle, hr⟩
    · rw [hr, offeredUnit_eq_none (h.represents.slotCapacity_eq ▸ hbad)]
      exact ⟨h.represents, (List.append_nil _).trans h.accepted_eq, h.popped_eq⟩
    · rw [h.represents.slotCapacity_eq] at hle
      rw [hr, offeredUnit_eq_some hzero hle, ← h.represents.sequence_eq]
      refine ⟨h.represents.auRingPush hfits hle, ?_, h.popped_eq.trans (DropOldest.taken_push n _).symm⟩
      rw [DropOldest.accepted_push, ← h.accepted_eq]
      rfl
  | pop bufferCapacity =>
    rw [auTraceStep, h.represents.slotCapacity_eq] at hs
    split_ifs at hs with hbuffer
    obtain rfl := Option.some.inj hs
    obtain ⟨hunit, hring⟩ := h.represents.auRingPop (Nat.not_lt.1 hbuffer)
    refine ⟨hring, h.accepted_eq.trans DropOldest.accepted_take.symm, ?_⟩
    show t.popped ++ (auRingPop t.ring bufferCapacity).1.toList = q.take.taken
    rw [hunit, h.popped_eq]
    rcases hq : q.stored with - | ⟨unit, rest⟩
    · rw [DropOldest.take, DropOldest.shift, hq]
      exact List.append_nil _
    · rw [DropOldest.taken_take hq]
      rfl

/-- **A run of calls refines a run of the queue.** -/
theorem refines_of_run (hfits : capacity * n ≤ 2 ^ 64) {calls : List AuRingCall}
    (h : t.Refines capacity n q) (hrun : Run.exec auTraceStep t calls = some t') :
    t'.Refines capacity n (calls.foldl (fifoCall capacity n) q) := by
  induction calls generalizing t q with
  | nil =>
    obtain rfl := Option.some.inj hrun
    exact h
  | cons call calls ih =>
    rw [Run.exec_cons] at hrun
    obtain ⟨u, hu, hrun⟩ := Option.bind_eq_some_iff.1 hrun
    exact ih (refines_auTraceStep hfits h hu) hrun

/-- The `k`-th access unit carries `k`, as a 64-bit number. -/
theorem map_sequence_fifo {calls : List AuRingCall}
    (hq : calls.foldl (fifoCall capacity n) .empty = q) :
    q.accepted.map (fun unit ↦ unit.info.sequence) =
      (List.range q.accepted.length).map UInt64.ofNat := by
  induction calls using List.reverseRecOn generalizing q with
  | nil =>
    subst hq
    rfl
  | append_singleton calls call ih =>
    rw [List.foldl_append, List.foldl_cons, List.foldl_nil] at hq
    have ih := ih rfl
    subst hq
    set q := calls.foldl (fifoCall capacity n) .empty
    cases call with
    | push data size ptsUs isIdr =>
      rw [fifoCall]
      rcases hunit : offeredUnit capacity data size ptsUs isIdr (UInt64.ofNat q.accepted.length)
        with - | unit
      · exact ih
      · have hsequence : unit.info.sequence = UInt64.ofNat q.accepted.length := by
          rw [offeredUnit] at hunit
          split_ifs at hunit
          obtain ⟨bytes, -, rfl⟩ := Option.map_eq_some_iff.1 hunit
          rfl
        show (q.push n unit).accepted.map _ = (List.range (q.push n unit).accepted.length).map _
        rw [DropOldest.accepted_push, List.map_append, ih, List.length_append, List.length_singleton,
          List.range_succ, List.map_append, List.map_singleton, List.map_singleton, hsequence]
    | pop bufferCapacity =>
      rw [fifoCall, DropOldest.accepted_take]
      exact ih

/-- As long as the counters have not wrapped, the sequence numbers count the access units. -/
theorem numbered_fifo {calls : List AuRingCall}
    (hq : calls.foldl (fifoCall capacity n) .empty = q) (hlen : q.accepted.length < 2 ^ 64) :
    q.Numbered fun unit ↦ unit.info.sequence.toNat := by
  rw [DropOldest.Numbered]
  have hmap := congrArg (List.map UInt64.toNat) (map_sequence_fifo hq)
  rw [List.map_map, List.map_map] at hmap
  refine hmap.trans (List.map_congr_left fun k hk ↦ ?_) |>.trans (List.map_id _)
  show (UInt64.ofNat k).toNat = k
  rw [UInt64.toNat_ofNat']
  exact Nat.mod_eq_of_lt ((List.mem_range.1 hk).trans hlen)

namespace AuTrace.Refines

/-- A ring that refines the queue obeys its law. -/
theorem auRingLaw {calls : List AuRingCall} (hfits : capacity * n < 2 ^ 64)
    (h : t.Refines capacity n (calls.foldl (fifoCall capacity n) .empty)) :
    AuRingLaw capacity n calls t := by
  have hr := h.represents
  refine ⟨h.accepted_eq, h.popped_eq, hr.stored_eq, hr.dropped_eq, ?_, hr.inside hfits, ?_, hr.head_lt,
    hr.tail_lt, hr.count_le, hr.tail_eq⟩
  · intro data size ptsUs isIdr hne
    rcases auRingPush_cases t.ring data size ptsUs isIdr with ⟨hpush, -⟩ | ⟨bytes, -, -, -, hpush⟩
    · rw [hpush]
    · rw [hpush] at hne
      exact absurd rfl hne
  · intro bufferCapacity hbuffer
    rw [(hr.auRingPop hbuffer).1, hr.stored_eq, List.head?_eq_none_iff]

/-- The oldest access unit comes behind everything that has left. -/
theorem oldest_eq (h : t.Refines capacity n q)
    (hnum : q.Numbered fun unit ↦ unit.info.sequence.toNat) (hlen : q.accepted.length < 2 ^ 64) :
    t.ring.oldest = q.gone.length := by
  rw [AuRing.oldest, h.represents.stored_eq]
  rcases hq : q.stored with - | ⟨unit, rest⟩
  · show t.ring.sequence.toNat = q.gone.length
    have hgone : q.accepted.length = q.gone.length := by
      rw [DropOldest.accepted, hq, List.append_nil, List.length_map]
    rw [h.represents.sequence_eq, UInt64.toNat_ofNat', Nat.mod_eq_of_lt hlen, hgone]
  · exact hnum.num_head hq

/-- The numbers of the queue are the sequence numbers of the access units. -/
theorem auSequenceLaw (h : t.Refines capacity n q)
    (hnum : q.Numbered fun unit ↦ unit.info.sequence.toNat) (hlen : q.accepted.length < 2 ^ 64) :
    AuSequenceLaw t := by
  have hdropped : q.dropped < 2 ^ 64 := by
    refine lt_of_le_of_lt (DropOldest.length_dropped_le.trans ?_) hlen
    rw [DropOldest.accepted, List.length_append, List.length_map]
    exact Nat.le_add_right _ _
  refine ⟨?_, ?_⟩
  · rw [h.popped_eq]
    exact hnum.pairwise_taken
  · rw [h.oldest_eq hnum hlen, h.popped_eq, hnum.card_missing, h.represents.dropped_eq,
      UInt64.toNat_ofNat', Nat.mod_eq_of_lt hdropped]

end AuTrace.Refines

/-- **The access-unit ring is a bounded queue that drops its oldest element**, if its backing has a size;
and as long as its counters have not wrapped, the sequence numbers tell what was dropped. -/
theorem auRingLaw_of_run {ring : AuRing} (hcreate : auRingCreate capacity n = some ring)
    (hfits : capacity * n < 2 ^ 64) {calls : List AuRingCall}
    (hrun : Run.exec auTraceStep ⟨ring, [], []⟩ calls = some t) :
    AuRingLaw capacity n calls t ∧ (t.accepted.length < 2 ^ 64 → AuSequenceLaw t) := by
  have h := refines_of_run hfits.le (refines_auRingCreate hcreate) hrun
  refine ⟨h.auRingLaw hfits, fun hlen ↦ ?_⟩
  rw [h.accepted_eq] at hlen
  exact h.auSequenceLaw (numbered_fifo rfl hlen) hlen

/-- Three access units in a ring with two slots; the first is dropped and the second is popped. -/
def overfullCalls : List AuRingCall :=
  [.push (some fun _ ↦ 1) 3 40 1, .push (some fun _ ↦ 2) 4 80 0, .push (some fun _ ↦ 3) 1 120 0, .pop 4]

theorem auRingLaw_of_run_overfullCalls : ∃ ring t, auRingCreate 4 2 = some ring ∧
    Run.exec auTraceStep ⟨ring, [], []⟩ overfullCalls = some t ∧
    AuRingLaw 4 2 overfullCalls t ∧ AuSequenceLaw t := by
  obtain ⟨ring, hcreate⟩ : ∃ ring, auRingCreate 4 2 = some ring := ⟨_, rfl⟩
  obtain ⟨t, hrun, hlen⟩ : ∃ t, Run.exec auTraceStep ⟨ring, [], []⟩ overfullCalls = some t ∧
      t.accepted.length < 2 ^ 64 := by
    obtain rfl := Option.some.inj hcreate
    exact ⟨_, rfl, by decide⟩
  have hlaw := auRingLaw_of_run hcreate (by decide) hrun
  exact ⟨ring, t, hcreate, hrun, hlaw.1, hlaw.2 hlen⟩

end Runs

/-! ### Where machine words end -/

/-- A push and a pop, `k` times. -/
def auRounds : ℕ → List AuRingCall
  | 0 => []
  | k + 1 => auRounds k ++ [.push (some fun _ ↦ 0) 1 0 0, .pop 1]

/-- A queue with one place takes out what each round puts in. -/
theorem exists_foldl_auRounds (k : ℕ) : ∃ units : List AccessUnit, units.length = k ∧
    (auRounds k).foldl (fifoCall 1 1) .empty = ⟨units.map (·, true), []⟩ := by
  induction k with
  | zero => exact ⟨[], rfl, rfl⟩
  | succ k ih =>
    obtain ⟨units, hlen, hfold⟩ := ih
    let stored : DropOldest AccessUnit := ⟨units.map (·, true), []⟩
    refine ⟨units ++ [⟨[0], ⟨0, UInt64.ofNat stored.accepted.length, 0, 1⟩⟩], ?_, ?_⟩
    · rw [List.length_append, hlen, List.length_singleton]
    · rw [auRounds, List.foldl_append, hfold, List.map_append]
      rfl

/-- No round is impossible. -/
theorem exists_run_auRounds {ring : AuRing} (hcreate : auRingCreate 1 1 = some ring) (k : ℕ) :
    ∃ t, Run.exec auTraceStep ⟨ring, [], []⟩ (auRounds k) = some t := by
  induction k with
  | zero => exact ⟨_, rfl⟩
  | succ k ih =>
    obtain ⟨t, hrun⟩ := ih
    obtain ⟨t', hpush⟩ : ∃ t', auTraceStep t (.push (some fun _ ↦ 0) 1 0 0) = some t' := ⟨_, rfl⟩
    have hrun' := Run.exec_snoc hrun hpush
    have hcapacity := (refines_of_run (by decide) (refines_auRingCreate hcreate)
      hrun').represents.slotCapacity_eq
    obtain ⟨t'', hpop⟩ : ∃ t'', auTraceStep t' (.pop 1) = some t'' :=
      ⟨_, if_neg (Nat.not_lt.2 hcapacity.le)⟩
    exact ⟨t'', Run.exec_append hrun (Run.exec_cons_of_step hpush (Run.exec_cons_of_step hpop rfl))⟩

/-- A run that is long enough repeats a sequence number. -/
theorem not_auSequenceLaw_auRounds {ring : AuRing} (hcreate : auRingCreate 1 1 = some ring) {k : ℕ}
    (hk : 2 ^ 64 < k) {t : AuTrace} (hrun : Run.exec auTraceStep ⟨ring, [], []⟩ (auRounds k) = some t) :
    ¬ AuSequenceLaw t := by
  intro hlaw
  have hpairs := hlaw.increasing
  obtain ⟨units, hlen, hfold⟩ := exists_foldl_auRounds k
  have h := refines_of_run (by decide) (refines_auRingCreate hcreate) hrun
  -- Everything was popped, so the numbers popped are all numbers assigned.
  have hpopped : t.popped = units := by
    rw [h.popped_eq, hfold, DropOldest.taken, List.filter_eq_self.2 (by simp), List.map_map]
    exact List.map_id _
  have haccepted : (⟨units.map (·, true), []⟩ : DropOldest AccessUnit).accepted = units := by
    rw [DropOldest.accepted, List.map_map, List.append_nil]
    exact List.map_id _
  have hsequence : units.map (fun unit ↦ unit.info.sequence) = (List.range k).map UInt64.ofNat := by
    have hsequence := map_sequence_fifo hfold
    rwa [haccepted, hlen] at hsequence
  have hmap : units.map (fun unit ↦ unit.info.sequence.toNat) = (List.range k).map (· % 2 ^ 64) := by
    have hmap := congrArg (List.map UInt64.toNat) hsequence
    rw [List.map_map, List.map_map] at hmap
    exact hmap.trans (List.map_congr_left fun i _ ↦ UInt64.toNat_ofNat')
  have hlength : ((List.range k).map (· % 2 ^ 64)).length = k := by
    rw [List.length_map, List.length_range]
  rw [hpopped, hmap, List.pairwise_iff_getElem] at hpairs
  have hlt := hpairs 0 (2 ^ 64) (by rw [hlength]; omega) (by rw [hlength]; exact hk) (by decide)
  rw [List.getElem_map, List.getElem_map, List.getElem_range, List.getElem_range, Nat.mod_self] at hlt
  exact Nat.not_lt_zero _ hlt

/-- A long run breaks the order of the sequence numbers; and where the size of the backing has wrapped to
zero, a push that is accepted writes behind it. -/
theorem not_auRingLaw_of_run :
    (∃ ring calls t, auRingCreate 1 1 = some ring ∧
      Run.exec auTraceStep ⟨ring, [], []⟩ calls = some t ∧ ¬ AuSequenceLaw t) ∧
    ∃ ring, auRingCreate (2 ^ 63) 4 = some ring ∧ (auRingPush ring (some fun _ ↦ 1) 1 0 0).1 = 0 ∧
      ring.backingSize < ring.offset ring.tail + 1 := by
  refine ⟨?_, _, rfl, by decide, by decide⟩
  obtain ⟨t, hrun⟩ := exists_run_auRounds rfl (2 ^ 64 + 1)
  exact ⟨_, _, t, rfl, hrun, not_auSequenceLaw_auRounds rfl (Nat.lt_succ_self _) hrun⟩

end Camstream
