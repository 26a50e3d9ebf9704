import Camstream.Media.Isolation
import Camstream.Vision.VisionWorker

/-!
# The bytes of a frame that its consumers use

A frame can be shorter than its width, height and stride say: the size is what the driver has filled. What
lies behind it in the buffer is left over from an earlier frame. `copy_gray` compares the size with what it
is about to read for planar frames; for packed frames, and in the encode worker, nobody does.

A run of a consumer depends on nothing but the published bytes exactly if it reads nothing else
(`output_iff`): no assignment hides what it has read, because every address is assigned only in one way, and
every assigned value changes when one of its bytes goes from 0 to 255. How far the conversions read is in
`Consumer.bytesNeeded`.
-/

namespace Camstream

open Memory

/-- The threads that look at the bytes of a frame, with the sizes they were created for. -/
inductive Consumer
  | encodeWorker (width height : UInt32)
  | visionWorker (width height : UInt32)
  deriving DecidableEq, Repr

/-- What a consumer does with a frame: it drops it, or assigns from it to its own buffer. -/
def Consumer.convert : Consumer → Frame → Option (List (Store UInt8))
  | .encodeWorker width height, frame =>
    if frame.width ≠ width ∨ frame.height ≠ height ∨ frame.size = 0 then none
    else some (encoderThreadConvert frame)
  | .visionWorker width height, frame => copyGray frame width height

/-- What frame `i` makes of the buffer `m` of a consumer. -/
def Consumer.output (consumer : Consumer) (pool : FramePool) (i : ℕ) (m : ℕ → UInt8) :
    Option (ℕ → UInt8) :=
  (consumer.convert (pool.frames i)).map fun stores ↦
    run (fun k ↦ pool.backing ((pool.frames i).data + k)) stores m

/-- The indices that a consumer reads, from `frame->data` on. -/
def Consumer.indices (consumer : Consumer) (frame : Frame) : List ℕ :=
  (consumer.convert frame).elim [] reads

/-- The hub, if buffer `i` had held other bytes. -/
def FrameHub.recycled (hub : FrameHub) (i : ℕ) (old : ℕ → UInt8) : FrameHub :=
  { hub with
    pool := { hub.pool with
      backing := copy hub.pool.backing (i * hub.pool.capacity) old hub.pool.capacity } }

/-- A consumer of the frame that is published makes the same of it whatever its buffer held before, and
reads no other buffer. -/
structure UsesValidBytes (consumer : Consumer) (hub : FrameHub) (info : FrameInfo) : Prop where
  output_eq : ∀ i begun, frameHubPublish hub info = some begun → begun.publisher = .filled i →
    ∀ old begun', frameHubPublish (hub.recycled i old) info = some begun' →
      ∀ m, consumer.output begun'.pool i m = consumer.output begun.pool i m
  lt_capacity : ∀ i begun, frameHubPublish hub info = some begun → begun.publisher = .filled i →
    ∀ a ∈ consumer.indices (begun.pool.frames i), a < hub.pool.capacity

/-! ### How far the conversions read -/

/-- `yuyv_to_i420` reads the luma of all rows, and the chroma of pairs of rows. -/
def yuyvBytes (stride width height : ℕ) : ℕ :=
  max (rowsEnd height (width / 2) stride 4 2) (rowsEnd (height / 2) (width / 2) (2 * stride) 4 (stride + 3))

/-- `i420_copy` reads rows of luma, and two chroma planes without gaps; the second one lies further back. -/
def planarBytes (stride width height : ℕ) : ℕ :=
  max (rowsEnd height width stride 1 0)
    (rowsEnd (height / 2) (width / 2) (width / 2) 1 (stride * height + stride / 2 * (height / 2)))

/-- The bytes that a consumer relies on; none, if it drops the frame or looks at its size. -/
def Consumer.bytesNeeded : Consumer → FrameInfo → ℕ
  | .encodeWorker width height, info =>
    if info.width ≠ width ∨ info.height ≠ height then 0
    else if info.format = v4l2PixFmtYuyv then
      yuyvBytes (if info.stride ≠ 0 then info.stride else width * 2).toNat width.toNat height.toNat
    else planarBytes (if info.stride ≠ 0 then info.stride else width).toNat width.toNat height.toNat
  | .visionWorker width height, info =>
    if info.format = v4l2PixFmtYuyv ∧ width ≠ 0 ∧ height ≠ 0 ∧ width * 2 ≤ info.stride ∧ width &&& 1 = 0 then
      rowsEnd height.toNat (min width.toNat (2 ^ 31)) info.stride.toNat 2 0
    else 0

/-- The reads of the conversion are inside the picture if and only if its last macropixel is. -/
theorem forall_reads_yuyvToI420 {stride dstY dstU dstV width height size : ℕ} :
    (∀ a ∈ reads (yuyvToI420 stride dstY dstU dstV width height), a < size) ↔
      yuyvBytes stride width height ≤ size := by
  rw [yuyvBytes, max_le_iff, rowsEnd_le_iff, rowsEnd_le_iff]
  constructor
  · intro hall
    refine ⟨fun r hr x hx ↦ ?_, fun r hr x hx ↦ ?_⟩
    · refine hall _ (mem_reads.2 ⟨_, mem_yuyvToI420.2 (.inl ⟨r, hr, x, hx, .inr rfl⟩), ?_⟩)
      rw [← Nat.add_assoc]
      exact List.mem_cons_self
    · refine hall _ (mem_reads.2 ⟨_, mem_yuyvToI420.2 (.inr ⟨r, hr, x, hx, .inr rfl⟩), ?_⟩)
      refine List.mem_cons_of_mem _ (List.mem_singleton.2 ?_)
      rw [Nat.mul_assoc]
      omega
  · rintro ⟨hluma, hchroma⟩ a ha
    obtain ⟨s, hs, ha⟩ := mem_reads.1 ha
    rcases mem_yuyvToI420.1 hs with ⟨r, hr, x, hx, rfl | rfl⟩ | ⟨r, hr, x, hx, hs⟩
    · rw [List.mem_singleton.1 ha]
      have := hluma r hr x hx
      omega
    · rw [List.mem_singleton.1 ha]
      have := hluma r hr x hx
      omega
    · have hlast := hchroma r hr x hx
      rw [← Nat.mul_assoc] at hlast
      -- All four bytes lie before the last one of the pair of rows.
      rcases hs with rfl | rfl
      · rcases List.mem_cons.1 ha with rfl | ha
        · omega
        · rw [List.mem_singleton.1 ha]
          omega
      · rcases List.mem_cons.1 ha with rfl | ha
        · omega
        · rw [List.mem_singleton.1 ha]
          omega

/-- The same for the planes. -/
theorem forall_reads_i420Copy {stride dstY dstU dstV width height size : ℕ} :
    (∀ a ∈ reads (i420Copy 0 stride (0 + stride * height) (0 + stride * height + stride / 2 * (height / 2))
      dstY dstU dstV width height), a < size) ↔ planarBytes stride width height ≤ size := by
  rw [planarBytes, max_le_iff, rowsEnd_le_iff, rowsEnd_le_iff]
  constructor
  · intro hall
    refine ⟨fun r hr x hx ↦ ?_, fun r hr x hx ↦ ?_⟩
    · have := hall _ (mem_reads.2 ⟨_, mem_i420Copy.2 (.inl ⟨r, hr, x, hx, rfl⟩), List.mem_cons_self⟩)
      omega
    · have := hall _ (mem_reads.2 ⟨_, mem_i420Copy.2 (.inr (.inr ⟨r, hr, x, hx, rfl⟩)),
        List.mem_cons_self⟩)
      omega
  · rintro ⟨hluma, hchroma⟩ a ha
    obtain ⟨s, hs, ha⟩ := mem_reads.1 ha
    rcases mem_i420Copy.1 hs with ⟨r, hr, x, hx, rfl⟩ | ⟨r, hr, x, hx, rfl⟩ | ⟨r, hr, x, hx, rfl⟩
    · rw [List.mem_singleton.1 ha]
      have := hluma r hr x hx
      omega
    · rw [List.mem_singleton.1 ha]
      have := hchroma r hr x hx
      omega
    · rw [List.mem_singleton.1 ha]
      have := hchroma r hr x hx
      omega

/-- The index of a packed pixel wraps around in rows of `2 ^ 31` pixels and more, so that the pixels behind
the first `2 ^ 31` read what those read. -/
theorem forall_reads_visionGrayFromYuyv {srcStride : UInt32} {dst : GrayFrame}
    {stores : List (Store UInt8)} (h : visionGrayFromYuyv srcStride dst = some stores) {size : ℕ} :
    (∀ a ∈ reads stores, a < size) ↔
      rowsEnd dst.height.toNat (min dst.width.toNat (2 ^ 31)) srcStride.toNat 2 0 ≤ size := by
  rw [rowsEnd_le_iff]
  constructor
  · intro hall r hr x hx
    have hread := hall _ (mem_reads.2 ⟨_, (mem_visionGrayFromYuyv h).2 ⟨r, hr, x, by omega, rfl⟩,
      List.mem_cons_self⟩)
    omega
  · intro hall a ha
    obtain ⟨s, hs, ha⟩ := mem_reads.1 ha
    obtain ⟨r, hr, x, hx, rfl⟩ := (mem_visionGrayFromYuyv h).1 hs
    rw [List.mem_singleton.1 ha]
    have := hall r hr (x % 2 ^ 31) (by omega)
    omega

/-! ### Reading and depending -/

/-- The value changes when a byte it is made of goes from 0 to 255 and none goes down. -/
def Sensitive (s : Store UInt8) : Prop :=
  ∀ src src' : ℕ → UInt8, (∀ k, src k ≤ src' k) → ∀ a ∈ s.reads, src a = 0 → src' a = 255 →
    s.value src ≠ s.value src'

theorem sensitive_byte (addr a : ℕ) : Sensitive (.byte addr a) := by
  intro src src' _ b hb hzero hfull
  obtain rfl := List.mem_singleton.1 hb
  show src b ≠ src' b
  rw [hzero, hfull]
  decide

theorem sensitive_pair (addr a b : ℕ) : Sensitive (.pair roundedAverage addr a b) := by
  intro src src' hle c hc hzero hfull heq
  have heq : roundedAverage (src a) (src b) = roundedAverage (src' a) (src' b) := heq
  have heq := congrArg UInt8.toNat heq
  rw [toNat_roundedAverage, toNat_roundedAverage] at heq
  have hzero : (src c).toNat = 0 := congrArg _ hzero
  have hfull : (src' c).toNat = 255 := congrArg _ hfull
  have hlea : (src a).toNat ≤ (src' a).toNat := hle a
  have hleb : (src b).toNat ≤ (src' b).toNat := hle b
  rcases List.mem_cons.1 hc with rfl | hc
  · omega
  · obtain rfl := List.mem_singleton.1 hc
    omega

/-- A buffer that begins with `data`: behind it comes what the buffer held before, and then other buffers. -/
def overlay (data : List UInt8) (capacity : ℕ) (old rest : ℕ → UInt8) : ℕ → UInt8 :=
  fun k ↦ if k < data.length then data.getD k 0 else if k < capacity then old k else rest k

variable {data : List UInt8} {capacity : ℕ} {stores : List (Store UInt8)}

/-- **Not depending on what the buffer held is not reading it.** -/
theorem output_iff (rest : ℕ → UInt8) (hle : data.length ≤ capacity)
    (haddr : ∃ f : ℕ → Store UInt8, ∀ s ∈ stores, s = f s.addr) (hsensitive : ∀ s ∈ stores, Sensitive s) :
    ((∀ old old' m, run (overlay data capacity old rest) stores m =
        run (overlay data capacity old' rest) stores m) ∧ ∀ a ∈ reads stores, a < capacity) ↔
      ∀ a ∈ reads stores, a < data.length := by
  constructor
  · rintro ⟨hsame, hlt⟩ a ha
    by_contra hbehind
    obtain ⟨f, hf⟩ := haddr
    obtain ⟨s, hs, has⟩ := mem_reads.1 ha
    -- The byte was left over, and it shows where it is assigned.
    have hdiffer := hsensitive s hs (overlay data capacity (fun _ ↦ 0) rest)
      (overlay data capacity (fun _ ↦ 255) rest) (fun k ↦ ?_) a has
      (by rw [overlay, if_neg hbehind, if_pos (hlt a ha)])
      (by rw [overlay, if_neg hbehind, if_pos (hlt a ha)])
    · refine hdiffer ?_
      rw [← run_addr (m := fun _ ↦ 0) hf hs, hsame (fun _ ↦ 0) (fun _ ↦ 255), run_addr hf hs]
    · rw [overlay, overlay]
      split_ifs
      · exact UInt8.le_refl _
      · exact UInt8.zero_le
      · exact UInt8.le_refl _
  · intro hvalid
    refine ⟨fun old old' m ↦ run_congr fun a ha ↦ ?_, fun a ha ↦ Nat.lt_of_lt_of_le (hvalid a ha) hle⟩
    rw [overlay, overlay, if_pos (hvalid a ha), if_pos (hvalid a ha)]

/-! ### The conversions of the consumers -/

/-- Each byte of the gray frame comes from one luma byte. -/
theorem eq_grayStore {srcStride : UInt32} {dst : GrayFrame}
    (h : visionGrayFromYuyv srcStride dst = some stores) (hstride : dst.stride = dst.width) {s : Store UInt8}
    (hs : s ∈ stores) : s = .byte s.addr
      (s.addr / dst.width.toNat * srcStride.toNat + 2 * (s.addr % dst.width.toNat) % 2 ^ 32) := by
  obtain ⟨y, -, x, hx, rfl⟩ := (mem_visionGrayFromYuyv h).1 hs
  show _ = Store.byte (y * dst.stride.toNat + x) ((y * dst.stride.toNat + x) / dst.width.toNat *
    srcStride.toNat + 2 * ((y * dst.stride.toNat + x) % dst.width.toNat) % 2 ^ 32)
  rw [hstride, row_div hx, row_mod hx]

/-- No conversion assigns an address in two ways, and none loses a byte it reads. -/
theorem stores_of_convert {consumer : Consumer} {frame : Frame} (h : consumer.convert frame = some stores) :
    (∃ f : ℕ → Store UInt8, ∀ s ∈ stores, s = f s.addr) ∧ ∀ s ∈ stores, Sensitive s := by
  cases consumer with
  | encodeWorker width height =>
    rw [Consumer.convert] at h
    split_ifs at h
    obtain rfl := Option.some.inj h
    by_cases hformat : frame.format = v4l2PixFmtYuyv
    · rw [encoderThreadConvert, if_pos hformat]
      refine ⟨⟨_, fun s hs ↦ eq_yuyvStore hs⟩, fun s hs ↦ ?_⟩
      rcases mem_yuyvToI420.1 hs with ⟨_, _, _, _, rfl | rfl⟩ | ⟨_, _, _, _, rfl | rfl⟩
      · exact sensitive_byte _ _
      · exact sensitive_byte _ _
      · exact sensitive_pair _ _ _
      · exact sensitive_pair _ _ _
    · rw [encoderThreadConvert, if_neg hformat]
      refine ⟨⟨_, fun s hs ↦ eq_i420Store hs⟩, fun s hs ↦ ?_⟩
      rcases mem_i420Copy.1 hs with ⟨_, _, _, _, rfl⟩ | ⟨_, _, _, _, rfl⟩ | ⟨_, _, _, _, rfl⟩
      · exact sensitive_byte _ _
      · exact sensitive_byte _ _
      · exact sensitive_byte _ _
  | visionWorker width height =>
    rw [Consumer.convert, copyGray] at h
    split_ifs at h
    · refine ⟨⟨fun a ↦ .byte a (a / width.toNat * frame.stride.toNat + 2 * (a % width.toNat) % 2 ^ 32),
        fun s hs ↦ eq_grayStore h rfl hs⟩, fun s hs ↦ ?_⟩
      obtain ⟨_, _, _, _, rfl⟩ := (mem_visionGrayFromYuyv h).1 hs
      exact sensitive_byte _ _
    · obtain rfl := Option.some.inj h
      refine ⟨⟨fun a ↦ .byte a (a / width.toNat * frame.stride.toNat + a % width.toNat),
        fun s hs ↦ eq_lumaStore hs⟩, fun s hs ↦ ?_⟩
      obtain ⟨_, _, _, _, rfl⟩ := mem_lumaRows.1 hs
      exact sensitive_byte _ _

section Published

variable {info : FrameInfo} {data : ℕ} {sequence timestampUs : UInt64} {poolIndex refcount : ℤ}

/-- The encode worker drops a frame of another size, and reads any other as its format says. -/
theorem forall_indices_encodeWorker (width height : UInt32) (hsize : info.data.length ≠ 0) :
    (∀ a ∈ (Consumer.encodeWorker width height).indices ⟨info.width, info.height, info.format, info.stride,
      info.data.length, sequence, timestampUs, data, poolIndex, refcount⟩, a < info.data.length) ↔
      (Consumer.encodeWorker width height).bytesNeeded info ≤ info.data.length := by
  rw [Consumer.indices, Consumer.convert, Consumer.bytesNeeded]
  dsimp only
  by_cases hother : info.width ≠ width ∨ info.height ≠ height
  · rw [if_pos hother, if_pos (hother.elim .inl fun h ↦ .inr (.inl h))]
    exact iff_of_true (fun a ha ↦ absurd ha List.not_mem_nil) (Nat.zero_le _)
  · obtain ⟨hwidth, hheight⟩ := not_or.1 hother
    obtain rfl := not_not.1 hwidth
    obtain rfl := not_not.1 hheight
    rw [if_neg hother, if_neg (not_or.2 ⟨hwidth, not_or.2 ⟨hheight, hsize⟩⟩)]
    by_cases hformat : info.format = v4l2PixFmtYuyv
    · rw [encoderThreadConvert, if_pos hformat, if_pos hformat]
      exact forall_reads_yuyvToI420
    · rw [encoderThreadConvert, if_neg hformat, if_neg hformat]
      exact forall_reads_i420Copy

/-- The vision worker accepts a planar frame only with all of its luma rows. -/
theorem forall_indices_visionWorker (width height : UInt32) :
    (∀ a ∈ (Consumer.visionWorker width height).indices ⟨info.width, info.height, info.format, info.stride,
      info.data.length, sequence, timestampUs, data, poolIndex, refcount⟩, a < info.data.length) ↔
      (Consumer.visionWorker width height).bytesNeeded info ≤ info.data.length := by
  rw [Consumer.indices, Consumer.convert, Consumer.bytesNeeded, copyGray]
  dsimp only
  by_cases hformat : info.format = v4l2PixFmtYuyv
  · rw [if_pos hformat]
    have hconverted : (∃ stores, visionGrayFromYuyv info.stride ⟨width, height, width, []⟩ = some stores) ↔
        info.format = v4l2PixFmtYuyv ∧ width ≠ 0 ∧ height ≠ 0 ∧ width * 2 ≤ info.stride ∧
          width &&& 1 = 0 := by
      rw [exists_visionGrayFromYuyv_iff, and_iff_right hformat, ← UInt32.pos_iff_ne_zero,
        ← UInt32.pos_iff_ne_zero]
      constructor
      · rintro ⟨⟨hwidth, hheight, -⟩, hrest⟩
        exact ⟨hwidth, hheight, hrest⟩
      · rintro ⟨hwidth, hheight, hrest⟩
        exact ⟨⟨hwidth, hheight, UInt32.le_refl width⟩, hrest⟩
    rcases hgray : visionGrayFromYuyv info.stride ⟨width, height, width, []⟩ with - | stores
    · rw [if_neg]
      · exact iff_of_true (fun a ha ↦ absurd ha List.not_mem_nil) (Nat.zero_le _)
      · intro h
        obtain ⟨stores, hstores⟩ := hconverted.2 h
        exact Option.some_ne_none stores (hstores.symm.trans hgray)
    · rw [if_pos (hconverted.1 ⟨stores, hgray⟩)]
      exact forall_reads_visionGrayFromYuyv hgray
  · have hpacked : ¬ (info.format = v4l2PixFmtYuyv ∧ width ≠ 0 ∧ height ≠ 0 ∧ width * 2 ≤ info.stride ∧
        width &&& 1 = 0) := fun h ↦ hformat h.1
    rw [if_neg hformat, if_neg hpacked]
    refine iff_of_true (fun a ha ↦ ?_) (Nat.zero_le _)
    split_ifs at ha with hplanar hshort
    · exact absurd ha List.not_mem_nil
    · obtain ⟨hstride, hsize⟩ := not_or.1 hshort
      have hstride : width.toNat ≤ info.stride.toNat := UInt32.not_lt.1 hstride
      obtain ⟨s, hs, ha⟩ := mem_reads.1 ha
      obtain ⟨y, hy, x, hx, rfl⟩ := mem_lumaRows.1 hs
      rw [List.mem_singleton.1 ha]
      exact Nat.lt_of_lt_of_le (row_lt hy (Nat.lt_of_lt_of_le hx hstride)) (Nat.not_lt.1 hsize)
    · exact absurd ha List.not_mem_nil

/-- **How far a consumer reads**, for a frame as it was published. -/
theorem forall_indices_iff (consumer : Consumer) (hsize : info.data.length ≠ 0) :
    (∀ a ∈ consumer.indices ⟨info.width, info.height, info.format, info.stride, info.data.length,
      sequence, timestampUs, data, poolIndex, refcount⟩, a < info.data.length) ↔
      consumer.bytesNeeded info ≤ info.data.length := by
  cases consumer with
  | encodeWorker width height => exact forall_indices_encodeWorker width height hsize
  | visionWorker width height => exact forall_indices_visionWorker width height

end Published

/-! ### Publishing -/

/-- What the buffers hold plays no part in which of them is acquired. -/
theorem framePoolAcquire_backing {pool pool' : FramePool} {i : ℕ} (h : framePoolAcquire pool = .frame i pool')
    (backing : ℕ → UInt8) :
    framePoolAcquire { pool with backing := backing } = .frame i { pool' with backing := backing } := by
  obtain ⟨hpos, htop, rfl⟩ := framePoolAcquire_eq_frame_iff.1 h
  exact framePoolAcquire_eq_frame_iff.2 ⟨hpos, htop, rfl⟩

variable {hub begun : FrameHub} {info : FrameInfo} {i : ℕ}

/-- What a publish that succeeds leaves for the consumers, whatever the buffer held before. -/
theorem frameHubPublish_recycled (hpublish : frameHubPublish hub info = some begun)
    (hfilled : begun.publisher = .filled i) :
    info.data.length ≠ 0 ∧ ∃ pool, framePoolAcquire hub.pool = .frame i pool ∧
      begun = { hub with pool := fillFrame pool i info, publisher := .filled i } ∧
      ∀ old, frameHubPublish (hub.recycled i old) info =
        some { hub with
          pool := fillFrame { pool with
            backing := copy hub.pool.backing (i * hub.pool.capacity) old hub.pool.capacity } i info
          publisher := .filled i } := by
  obtain ⟨hidle, ⟨rfl, -⟩ | ⟨hsize, j, pool, hacq, rfl⟩⟩ := frameHubPublish_cases hpublish
  · rw [hidle] at hfilled
    cases hfilled
  · obtain rfl := Publisher.filled.inj hfilled
    refine ⟨hsize, pool, hacq, rfl, fun old ↦ ?_⟩
    have hrecycled : (hub.recycled j old).publisher = .idle := hidle
    exact frameHubPublish_of_frame hrecycled hsize (framePoolAcquire_backing hacq _)

/-- The frame as it is published. -/
def publishedFrame (pool : FramePool) (i : ℕ) (info : FrameInfo) : Frame :=
  ⟨info.width, info.height, info.format, info.stride, info.data.length, info.sequence, info.timestampUs,
    (pool.frames i).data, (pool.frames i).poolIndex, (pool.frames i).refcount⟩

theorem frames_fillFrame (pool : FramePool) (i : ℕ) (info : FrameInfo) :
    (fillFrame pool i info).frames i = publishedFrame pool i info :=
  setFrame_frames_self _ _ _

/-- The bytes from `frame->data` on, after a publish to buffer `i` over the bytes `old`. -/
def FrameHub.publishedBytes (hub : FrameHub) (i : ℕ) (data : List UInt8) (old : ℕ → UInt8) : ℕ → UInt8 :=
  overlay data hub.pool.capacity old fun k ↦ hub.pool.backing (i * hub.pool.capacity + k)

/-- What a consumer makes of a frame that was published over the bytes `old`. -/
theorem output_fillFrame (consumer : Consumer) {pool : FramePool}
    (hdata : (pool.frames i).data = i * hub.pool.capacity) (old m : ℕ → UInt8) :
    consumer.output (fillFrame { pool with
        backing := copy hub.pool.backing (i * hub.pool.capacity) old hub.pool.capacity } i info) i m =
      (consumer.convert (publishedFrame pool i info)).map fun stores ↦
        run (hub.publishedBytes i info.data old) stores m := by
  have hbytes : (fun k ↦ (fillFrame { pool with
      backing := copy hub.pool.backing (i * hub.pool.capacity) old hub.pool.capacity } i info).backing
        (i * hub.pool.capacity + k)) = hub.publishedBytes i info.data old := by
    funext k
    rw [backing_fillFrame, hdata, FrameHub.publishedBytes, overlay]
    dsimp only
    split_ifs with hk hk'
    · exact copy_add_of_lt hk _ _ _
    · rw [copy_of_notMem (.inr (by omega)), copy_add_of_lt hk']
    · rw [copy_of_notMem (.inr (by omega)), copy_of_notMem (.inr (by omega))]
  have hpointer : (publishedFrame pool i info).data = i * hub.pool.capacity := hdata
  have hframe : (fillFrame { pool with
      backing := copy hub.pool.backing (i * hub.pool.capacity) old hub.pool.capacity } i info).frames i =
        publishedFrame pool i info := frames_fillFrame _ _ _
  rw [Consumer.output, hframe, hpointer, hbytes]

/-- Copying a buffer onto itself changes nothing. -/
theorem copy_self (backing : ℕ → UInt8) (dst size : ℕ) :
    copy backing dst (fun k ↦ backing (dst + k)) size = backing := by
  funext a
  rw [copy]
  split_ifs with ha
  · rw [Nat.add_sub_cancel' ha.1]
  · rfl

/-- The two runs of `UsesValidBytes`, without the hub. -/
theorem usesValidBytes_iff_publishedBytes {pool : FramePool}
    (hpublish : frameHubPublish hub info = some begun) (hfilled : begun.publisher = .filled i)
    (hacq : framePoolAcquire hub.pool = .frame i pool) (consumer : Consumer) :
    UsesValidBytes consumer hub info ↔
      (∀ old old' m,
        ((consumer.convert (publishedFrame pool i info)).map fun stores ↦
          run (hub.publishedBytes i info.data old) stores m) =
        (consumer.convert (publishedFrame pool i info)).map fun stores ↦
          run (hub.publishedBytes i info.data old') stores m) ∧
      ∀ a ∈ consumer.indices (publishedFrame pool i info), a < hub.pool.capacity := by
  obtain ⟨-, pool', hacq', hbegun, hrecycled⟩ := frameHubPublish_recycled hpublish hfilled
  obtain ⟨-, rfl⟩ := Acquired.frame.inj (hacq'.symm.trans hacq)
  have hdata := data_framePoolAcquire hacq
  -- The run that is given is the one over what the buffer held.
  have hbacking : pool'.backing = hub.pool.backing := congrArg Prod.fst (bytes_framePoolAcquire hacq)
  have hpool : begun.pool = fillFrame { pool' with
      backing := copy hub.pool.backing (i * hub.pool.capacity)
        (fun k ↦ hub.pool.backing (i * hub.pool.capacity + k)) hub.pool.capacity } i info := by
    rw [hbegun, copy_self, ← hbacking]
  have hframe : begun.pool.frames i = publishedFrame pool' i info := by
    rw [hpool]
    exact frames_fillFrame _ _ _
  constructor
  · intro h
    refine ⟨fun old old' m ↦ ?_, fun a ha ↦ h.lt_capacity i begun hpublish hfilled a (hframe ▸ ha)⟩
    rw [← output_fillFrame consumer hdata, ← output_fillFrame consumer hdata]
    exact (h.output_eq i begun hpublish hfilled old _ (hrecycled old) m).trans
      (h.output_eq i begun hpublish hfilled old' _ (hrecycled old') m).symm
  · rintro ⟨hsame, hlt⟩
    refine ⟨fun j other hother hj old begun' hbegun' m ↦ ?_, fun j other hother hj a ha ↦ ?_⟩
    · obtain rfl := Option.some.inj (hpublish.symm.trans hother)
      obtain rfl := Publisher.filled.inj (hfilled.symm.trans hj)
      obtain rfl := Option.some.inj ((hrecycled old).symm.trans hbegun')
      rw [hpool, output_fillFrame consumer hdata, output_fillFrame consumer hdata]
      exact hsame old _ m
    · obtain rfl := Option.some.inj (hpublish.symm.trans hother)
      obtain rfl := Publisher.filled.inj (hfilled.symm.trans hj)
      exact hlt a (hframe ▸ ha)

/-- A consumer uses the valid bytes exactly if it reads no others. -/
theorem usesValidBytes_iff_indices {pool : FramePool} (hpublish : frameHubPublish hub info = some begun)
    (hfilled : begun.publisher = .filled i) (hacq : framePoolAcquire hub.pool = .frame i pool)
    (consumer : Consumer) (hle : info.data.length ≤ hub.pool.capacity) :
    UsesValidBytes consumer hub info ↔
      ∀ a ∈ consumer.indices (publishedFrame pool i info), a < info.data.length := by
  rw [usesValidBytes_iff_publishedBytes hpublish hfilled hacq, Consumer.indices]
  rcases hconvert : consumer.convert (publishedFrame pool i info) with - | stores
  · exact iff_of_true ⟨fun _ _ _ ↦ rfl, fun a ha ↦ absurd ha List.not_mem_nil⟩
      fun a ha ↦ absurd ha List.not_mem_nil
  · obtain ⟨haddr, hsensitive⟩ := stores_of_convert hconvert
    refine Iff.trans (and_congr_left' ?_) (output_iff
      (fun k ↦ hub.pool.backing (i * hub.pool.capacity + k)) hle haddr hsensitive)
    exact ⟨fun h old old' m ↦ Option.some.inj (h old old' m), fun h old old' m ↦ congrArg some (h old old' m)⟩

/-- **The bytes a consumer uses are those of the publish exactly if the size covers what it reads.** -/
theorem usesValidBytes_iff (consumer : Consumer) (hpublish : frameHubPublish hub info = some begun)
    (hfilled : begun.publisher = .filled i) (hle : info.data.length ≤ hub.pool.capacity) :
    UsesValidBytes consumer hub info ↔ consumer.bytesNeeded info ≤ info.data.length := by
  obtain ⟨hsize, pool, hacq, -⟩ := frameHubPublish_recycled hpublish hfilled
  rw [usesValidBytes_iff_indices hpublish hfilled hacq consumer hle]
  exact forall_indices_iff consumer hsize

/-- A YUYV frame of two rows of two pixels, of which the driver has delivered `data`. -/
def packedInfo (data : List UInt8) : FrameInfo :=
  ⟨data, 2, 2, v4l2PixFmtYuyv, 4, 0, 0⟩

/-- A new hub publishes it in its only buffer. -/
theorem exists_publish_packedInfo (data : List UInt8)
    (hdata : (packedInfo data).data.length ≠ 0) :
    ∃ hub begun, frameHubCreate 8 1 = some hub ∧ frameHubPublish hub (packedInfo data) = some begun ∧
      begun.publisher = .filled 0 ∧ hub.pool.capacity = 8 := by
  obtain ⟨hub, hcreate, hidle, hcapacity, pool, hacq⟩ : ∃ hub, frameHubCreate 8 1 = some hub ∧
      hub.publisher = .idle ∧ hub.pool.capacity = 8 ∧ ∃ pool, framePoolAcquire hub.pool = .frame 0 pool :=
    ⟨_, rfl, rfl, rfl, _, rfl⟩
  refine ⟨hub, { hub with pool := fillFrame pool 0 (packedInfo data), publisher := .filled 0 }, hcreate, ?_,
    rfl, hcapacity⟩
  rw [frameHubPublish, if_neg (not_not.2 hidle), if_neg hdata, hacq]

theorem usesValidBytes_iff_packedInfo : ∃ hub begun, frameHubCreate 8 1 = some hub ∧
    frameHubPublish hub (packedInfo (List.replicate 8 16)) = some begun ∧ begun.publisher = .filled 0 ∧
    UsesValidBytes (.encodeWorker 2 2) hub (packedInfo (List.replicate 8 16)) ∧
    UsesValidBytes (.visionWorker 2 2) hub (packedInfo (List.replicate 8 16)) := by
  obtain ⟨hub, begun, hcreate, hpublish, hfilled, hcapacity⟩ :=
    exists_publish_packedInfo (List.replicate 8 16) (by decide)
  have hle : (packedInfo (List.replicate 8 16)).data.length ≤ hub.pool.capacity := by
    rw [hcapacity]
    decide
  exact ⟨hub, begun, hcreate, hpublish, hfilled,
    (usesValidBytes_iff (.encodeWorker 2 2) hpublish hfilled hle).2 (by decide),
    (usesValidBytes_iff (.visionWorker 2 2) hpublish hfilled hle).2 (by decide)⟩

/-- Of a frame of one byte, both workers make the pixels of an earlier one. -/
theorem not_usesValidBytes : ∃ hub begun, frameHubCreate 8 1 = some hub ∧
    frameHubPublish hub (packedInfo [16]) = some begun ∧ begun.publisher = .filled 0 ∧
    ¬ UsesValidBytes (.encodeWorker 2 2) hub (packedInfo [16]) ∧
    ¬ UsesValidBytes (.visionWorker 2 2) hub (packedInfo [16]) := by
  obtain ⟨hub, begun, hcreate, hpublish, hfilled, hcapacity⟩ := exists_publish_packedInfo [16] (by decide)
  obtain ⟨hsize, pool, hacq, -⟩ := frameHubPublish_recycled hpublish hfilled
  have hle : (packedInfo [16]).data.length ≤ hub.pool.capacity := by
    rw [hcapacity]
    decide
  have hshort : ∀ consumer : Consumer, ¬ consumer.bytesNeeded (packedInfo [16]) ≤ 1 →
      ¬ UsesValidBytes consumer hub (packedInfo [16]) := fun consumer hneeded huses ↦
    hneeded ((forall_indices_iff consumer hsize).1
      ((usesValidBytes_iff_indices hpublish hfilled hacq consumer hle).1 huses))
  exact ⟨hub, begun, hcreate, hpublish, hfilled, hshort _ (by decide), hshort _ (by decide)⟩

end Camstream
