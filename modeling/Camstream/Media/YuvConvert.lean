import Camstream.Lib.Memory
import Camstream.Media.FramePool

/-!
# Conversion to I420

`src/media/yuv_convert.c`, and the step of the encode worker that calls it. The loops are lists of
assignments from the bytes of the frame to the scratch buffer of the worker; addresses are offsets from
`frame->data` and from `worker->i420`.

The planar path computes where the chroma planes begin from the stride of the frame, and `i420_copy` then
walks their rows with the width. So the law of the chroma planes fails as soon as a second chroma row lies
somewhere else: `planesLaw_iff`.
-/

namespace Camstream

open Memory

/-- `V4L2_PIX_FMT_YUYV` -/
def v4l2PixFmtYuyv : UInt32 := 0x56595559

/-- `V4L2_PIX_FMT_YUV420` -/
def v4l2PixFmtYuv420 : UInt32 := 0x32315559

/-- `(uint8_t) ((a + b + 1) >> 1)` -/
def roundedAverage (a b : UInt8) : UInt8 :=
  UInt8.ofNat ((a.toNat + b.toNat + 1) / 2)

/-- An average does not leave the byte. -/
theorem toNat_roundedAverage (a b : UInt8) : (roundedAverage a b).toNat = (a.toNat + b.toNat + 1) / 2 := by
  have ha := a.toNat_lt
  have hb := b.toNat_lt
  rw [roundedAverage]
  exact UInt8.toNat_ofNat_of_lt (show _ < 2 ^ 8 by omega)

/-- `yuyv_to_i420`, for a source that begins at offset `0`. -/
def yuyvToI420 (srcStride dstY dstU dstV width height : ℕ) : List (Store UInt8) :=
  let chromaW := width / 2
  let chromaH := height / 2
  let luma := (List.range height).flatMap fun row ↦ (List.range (width / 2)).flatMap fun x ↦
    let input := row * srcStride + 4 * x
    let out := dstY + row * width + 2 * x
    [Store.byte out input, Store.byte (out + 1) (input + 2)]
  let chroma := (List.range chromaH).flatMap fun crow ↦ (List.range chromaW).flatMap fun x ↦
    let row0 := crow * 2 * srcStride + 4 * x
    let row1 := crow * 2 * srcStride + srcStride + 4 * x
    [Store.pair roundedAverage (dstU + crow * chromaW + x) (row0 + 1) (row1 + 1),
      Store.pair roundedAverage (dstV + crow * chromaW + x) (row0 + 3) (row1 + 3)]
  luma ++ chroma

/-- `i420_copy` -/
def i420Copy (srcY srcYStride srcU srcV dstY dstU dstV width height : ℕ) : List (Store UInt8) :=
  let chromaW := width / 2
  let chromaH := height / 2
  let luma := (List.range height).flatMap fun row ↦
    copyStores (dstY + row * width) (srcY + row * srcYStride) width
  let chroma := (List.range chromaH).flatMap fun crow ↦
    copyStores (dstU + crow * chromaW) (srcU + crow * chromaW) chromaW ++
      copyStores (dstV + crow * chromaW) (srcV + crow * chromaW) chromaW
  luma ++ chroma

/-- "Convert to planar I420 in the scratch buffer": the step of `encoder_thread`, for a frame whose width
and height are those of the worker. -/
def encoderThreadConvert (frame : Frame) : List (Store UInt8) :=
  let width := frame.width.toNat
  let height := frame.height.toNat
  let planeY := 0
  let planeU := planeY + width * height
  let planeV := planeU + width * height / 4
  if frame.format = v4l2PixFmtYuyv then
    let stride := if frame.stride ≠ 0 then frame.stride else frame.width * 2
    yuyvToI420 stride.toNat planeY planeU planeV width height
  else
    let yStride := if frame.stride ≠ 0 then frame.stride else frame.width
    let srcY := 0
    let srcU := srcY + yStride.toNat * height
    let srcV := srcU + yStride.toNat / 2 * (height / 2)
    i420Copy srcY yStride.toNat srcU srcV planeY planeU planeV width height

/-! ### The assignments -/

/-- The rows of the three planes. -/
theorem mem_i420Copy {srcY srcYStride srcU srcV dstY dstU dstV width height : ℕ} {s : Store UInt8} :
    s ∈ i420Copy srcY srcYStride srcU srcV dstY dstU dstV width height ↔
      (∃ row < height, ∃ x < width,
        s = .byte (dstY + row * width + x) (srcY + row * srcYStride + x)) ∨
      (∃ row < height / 2, ∃ x < width / 2,
        s = .byte (dstU + row * (width / 2) + x) (srcU + row * (width / 2) + x)) ∨
      ∃ row < height / 2, ∃ x < width / 2,
        s = .byte (dstV + row * (width / 2) + x) (srcV + row * (width / 2) + x) := by
  simp only [i420Copy, List.mem_append, List.mem_flatMap, List.mem_range, mem_copyStores]
  refine or_congr Iff.rfl ?_
  constructor
  · rintro ⟨row, hrow, ⟨x, hx, rfl⟩ | ⟨x, hx, rfl⟩⟩
    · exact .inl ⟨row, hrow, x, hx, rfl⟩
    · exact .inr ⟨row, hrow, x, hx, rfl⟩
  · rintro (⟨row, hrow, x, hx, rfl⟩ | ⟨row, hrow, x, hx, rfl⟩)
    · exact ⟨row, hrow, .inl ⟨x, hx, rfl⟩⟩
    · exact ⟨row, hrow, .inr ⟨x, hx, rfl⟩⟩

/-- A macropixel at a time: its luma, and in every second row its chroma. -/
theorem mem_yuyvToI420 {srcStride dstY dstU dstV width height : ℕ} {s : Store UInt8} :
    s ∈ yuyvToI420 srcStride dstY dstU dstV width height ↔
      (∃ row < height, ∃ x < width / 2,
        s = .byte (dstY + row * width + 2 * x) (row * srcStride + 4 * x) ∨
          s = .byte (dstY + row * width + 2 * x + 1) (row * srcStride + 4 * x + 2)) ∨
      ∃ row < height / 2, ∃ x < width / 2,
        s = .pair roundedAverage (dstU + row * (width / 2) + x)
            (row * 2 * srcStride + 4 * x + 1) (row * 2 * srcStride + srcStride + 4 * x + 1) ∨
          s = .pair roundedAverage (dstV + row * (width / 2) + x)
            (row * 2 * srcStride + 4 * x + 3) (row * 2 * srcStride + srcStride + 4 * x + 3) := by
  simp only [yuyvToI420, List.mem_append, List.mem_flatMap, List.mem_range, List.mem_cons,
    List.not_mem_nil, or_false]

/-! ### Where the planes are -/

/-- A chroma plane has room for its rows. -/
theorem chroma_lt {width height row x : ℕ} (hrow : row < height / 2) (hx : x < width / 2) :
    row * (width / 2) + x < width * height / 4 :=
  lt_of_lt_of_le (row_lt hrow hx) (Nat.div_mul_div_le width 2 height 2)

/-- What is assigned to each address of the scratch buffer by a planar copy. -/
def i420Store (srcY srcYStride srcU srcV width height a : ℕ) : Store UInt8 :=
  if a < width * height then .byte a (srcY + a / width * srcYStride + a % width)
  else if a < width * height + width * height / 4 then .byte a (srcU + (a - width * height))
  else .byte a (srcV + (a - (width * height + width * height / 4)))

/-- Every byte of the planes is assigned once, from one place. -/
theorem eq_i420Store {srcY srcYStride srcU srcV width height : ℕ} {s : Store UInt8}
    (hs : s ∈ i420Copy srcY srcYStride srcU srcV 0 (0 + width * height)
      (0 + width * height + width * height / 4) width height) :
    s = i420Store srcY srcYStride srcU srcV width height s.addr := by
  simp only [Nat.zero_add] at hs
  rcases mem_i420Copy.1 hs with
    ⟨row, hrow, x, hx, rfl⟩ | ⟨row, hrow, x, hx, rfl⟩ | ⟨row, hrow, x, hx, rfl⟩
  · rw [Nat.zero_add]
    show _ = i420Store srcY srcYStride srcU srcV width height (row * width + x)
    rw [i420Store, if_pos (row_lt hrow hx), row_div hx, row_mod hx]
  · have hlt := chroma_lt hrow hx
    show _ = i420Store srcY srcYStride srcU srcV width height
      (width * height + row * (width / 2) + x)
    rw [i420Store, if_neg (by omega), if_pos (by omega)]
    congr 1
    omega
  · show _ = i420Store srcY srcYStride srcU srcV width height
      (width * height + width * height / 4 + row * (width / 2) + x)
    rw [i420Store, if_neg (by omega), if_neg (by omega)]
    congr 1
    omega

/-- What is assigned to each address of the scratch buffer by a conversion from YUYV. -/
def yuyvStore (srcStride width height a : ℕ) : Store UInt8 :=
  if a < width * height then .byte a (a / width * srcStride + 2 * (a % width))
  else if a < width * height + width * height / 4 then
    let row := (a - width * height) / (width / 2)
    let x := (a - width * height) % (width / 2)
    .pair roundedAverage a (row * 2 * srcStride + 4 * x + 1)
      (row * 2 * srcStride + srcStride + 4 * x + 1)
  else
    let row := (a - (width * height + width * height / 4)) / (width / 2)
    let x := (a - (width * height + width * height / 4)) % (width / 2)
    .pair roundedAverage a (row * 2 * srcStride + 4 * x + 3)
      (row * 2 * srcStride + srcStride + 4 * x + 3)

/-- So it is when macropixels are unpacked. -/
theorem eq_yuyvStore {srcStride width height : ℕ} {s : Store UInt8}
    (hs : s ∈ yuyvToI420 srcStride 0 (0 + width * height) (0 + width * height + width * height / 4)
      width height) : s = yuyvStore srcStride width height s.addr := by
  simp only [Nat.zero_add] at hs
  -- Row and column come back from the address by division, in each of the three planes.
  rcases mem_yuyvToI420.1 hs with
    ⟨row, hrow, x, hx, rfl | rfl⟩ | ⟨row, hrow, x, hx, rfl | rfl⟩
  · have hx' : 2 * x < width := by omega
    rw [Nat.zero_add]
    show _ = yuyvStore srcStride width height (row * width + 2 * x)
    rw [yuyvStore, if_pos (row_lt hrow hx'), row_div hx', row_mod hx']
    congr 1
    omega
  · have hx' : 2 * x + 1 < width := by omega
    rw [Nat.zero_add]
    show _ = yuyvStore srcStride width height (row * width + (2 * x + 1))
    rw [yuyvStore, if_pos (row_lt hrow hx'), row_div hx', row_mod hx']
    congr 1
    omega
  · have hlt := chroma_lt hrow hx
    show _ = yuyvStore srcStride width height (width * height + row * (width / 2) + x)
    rw [yuyvStore, if_neg (by omega), if_pos (by omega), Nat.add_assoc, Nat.add_sub_cancel_left,
      row_div hx, row_mod hx]
  · show _ = yuyvStore srcStride width height
      (width * height + width * height / 4 + row * (width / 2) + x)
    rw [yuyvStore, if_neg (by omega), if_neg (by omega), Nat.add_assoc (_ + _), Nat.add_sub_cancel_left,
      row_div hx, row_mod hx]

/-! ### The planar path -/

/-- The planes in the scratch buffer are those of a frame with rows of `frame.stride` bytes. -/
structure PlanesLaw (frame : Frame) (src i420 : ℕ → UInt8) : Prop where
  luma : ∀ r < frame.height.toNat, ∀ c < frame.width.toNat,
    i420 (r * frame.width.toNat + c) = src (r * frame.stride.toNat + c)
  chromaU : ∀ r < frame.height.toNat / 2, ∀ c < frame.width.toNat / 2,
    i420 (frame.width.toNat * frame.height.toNat + r * (frame.width.toNat / 2) + c) =
      src (frame.stride.toNat * frame.height.toNat + r * (frame.stride.toNat / 2) + c)
  chromaV : ∀ r < frame.height.toNat / 2, ∀ c < frame.width.toNat / 2,
    i420 (frame.width.toNat * frame.height.toNat + frame.width.toNat * frame.height.toNat / 4 +
        r * (frame.width.toNat / 2) + c) =
      src (frame.stride.toNat * frame.height.toNat +
        frame.stride.toNat / 2 * (frame.height.toNat / 2) + r * (frame.stride.toNat / 2) + c)

/-- What a planar copy leaves in the scratch buffer. -/
theorem run_i420Copy (src m : ℕ → UInt8) (srcY srcYStride srcU srcV width height : ℕ) :
    let i420 := run src (i420Copy srcY srcYStride srcU srcV 0 (0 + width * height)
      (0 + width * height + width * height / 4) width height) m
    (∀ r < height, ∀ c < width, i420 (r * width + c) = src (srcY + r * srcYStride + c)) ∧
      ∀ r < height / 2, ∀ c < width / 2,
        i420 (width * height + r * (width / 2) + c) = src (srcU + r * (width / 2) + c) ∧
        i420 (width * height + width * height / 4 + r * (width / 2) + c) =
          src (srcV + r * (width / 2) + c) := by
  intro i420
  have hrun : ∀ s ∈ i420Copy srcY srcYStride srcU srcV 0 (0 + width * height)
      (0 + width * height + width * height / 4) width height, i420 s.addr = s.value src :=
    fun s hs ↦ run_addr (f := i420Store srcY srcYStride srcU srcV width height)
      (fun _ ht ↦ eq_i420Store ht) hs
  refine ⟨fun r hr c hc ↦ ?_, fun r hr c hc ↦ ⟨?_, ?_⟩⟩
  · have h := hrun _ (mem_i420Copy.2 (.inl ⟨r, hr, c, hc, rfl⟩))
    rw [Nat.zero_add] at h
    exact h
  · have h := hrun _ (mem_i420Copy.2 (.inr (.inl ⟨r, hr, c, hc, rfl⟩)))
    rw [Nat.zero_add] at h
    exact h
  · have h := hrun _ (mem_i420Copy.2 (.inr (.inr ⟨r, hr, c, hc, rfl⟩)))
    rw [Nat.zero_add] at h
    exact h

/-- A planar frame is copied, its stride dropped. -/
theorem encoderThreadConvert_planar {frame : Frame} (hformat : frame.format ≠ v4l2PixFmtYuyv)
    (hle : frame.width ≤ frame.stride) :
    encoderThreadConvert frame =
      i420Copy 0 frame.stride.toNat (0 + frame.stride.toNat * frame.height.toNat)
        (0 + frame.stride.toNat * frame.height.toNat +
          frame.stride.toNat / 2 * (frame.height.toNat / 2))
        0 (0 + frame.width.toNat * frame.height.toNat)
        (0 + frame.width.toNat * frame.height.toNat + frame.width.toNat * frame.height.toNat / 4)
        frame.width.toNat frame.height.toNat := by
  -- A frame without a stride that is no narrower than its width has no width either.
  have hstride : (if frame.stride ≠ 0 then frame.stride else frame.width) = frame.stride := by
    split_ifs with hzero
    · rfl
    · rw [not_not.1 hzero] at hle ⊢
      exact UInt32.le_antisymm hle (UInt32.zero_le)
  rw [encoderThreadConvert, if_neg hformat, hstride]

/-- **The planes are right for every content of the frame exactly if the second chroma row, where there is
one, lies where the width says.** -/
theorem planesLaw_iff {frame : Frame} (hformat : frame.format ≠ v4l2PixFmtYuyv)
    (hwidth : frame.width.toNat % 2 = 0) (hheight : frame.height.toNat % 2 = 0)
    (hstride : frame.stride.toNat % 2 = 0) (hle : frame.width ≤ frame.stride) :
    (∀ src m, PlanesLaw frame src (run src (encoderThreadConvert frame) m)) ↔
      frame.stride = frame.width ∨ frame.height ≤ 2 ∨ frame.width = 0 := by
  rw [encoderThreadConvert_planar hformat hle]
  constructor
  · intro hlaw
    by_contra hnot
    obtain ⟨hne, hnot⟩ := not_or.1 hnot
    obtain ⟨htall, hzero⟩ := not_or.1 hnot
    have hne : frame.stride.toNat ≠ frame.width.toNat := fun h ↦ hne (UInt32.toNat_inj.1 h)
    have htall : 2 < frame.height.toNat := Nat.not_le.1 htall
    have hzero : frame.width.toNat ≠ 0 := fun h ↦ hzero (UInt32.toNat_inj.1 h)
    -- The first byte of the second U row, and no other, is marked.
    let src : ℕ → UInt8 := fun a ↦
      if a = frame.stride.toNat * frame.height.toNat + 1 * (frame.stride.toNat / 2) + 0 then 1 else 0
    have hmarked := (hlaw src src).chromaU 1 (by omega) 0 (by omega)
    rw [((run_i420Copy _ _ _ _ _ _ _ _).2 1 (by omega) 0 (by omega)).1] at hmarked
    have hsource : src (frame.stride.toNat * frame.height.toNat + 1 * (frame.stride.toNat / 2) + 0) = 1 :=
      if_pos rfl
    have hread : src (0 + frame.stride.toNat * frame.height.toNat + 1 * (frame.width.toNat / 2) + 0) = 0 :=
      if_neg (by omega)
    rw [hsource, hread] at hmarked
    exact absurd hmarked (by decide)
  · intro hcond src m
    have hcond : frame.stride.toNat = frame.width.toNat ∨ frame.height.toNat / 2 ≤ 1 ∨
        frame.width.toNat / 2 = 0 := by
      rcases hcond with h | h | h
      · exact .inl (congrArg _ h)
      · have h : frame.height.toNat ≤ 2 := h
        exact .inr (.inl (by omega))
      · rw [h]
        exact .inr (.inr rfl)
    obtain ⟨hluma, hchroma⟩ := run_i420Copy src m 0 frame.stride.toNat
      (0 + frame.stride.toNat * frame.height.toNat)
      (0 + frame.stride.toNat * frame.height.toNat +
        frame.stride.toNat / 2 * (frame.height.toNat / 2)) frame.width.toNat frame.height.toNat
    have hrow : ∀ r < frame.height.toNat / 2, ∀ c < frame.width.toNat / 2,
        r * (frame.width.toNat / 2) = r * (frame.stride.toNat / 2) := by
      intro r hr c hc
      rcases hcond with h | h | h
      · rw [h]
      · obtain rfl : r = 0 := by omega
        rw [Nat.zero_mul, Nat.zero_mul]
      · omega
    refine ⟨fun r hr c hc ↦ ?_, fun r hr c hc ↦ ?_, fun r hr c hc ↦ ?_⟩
    · rw [hluma r hr c hc, Nat.zero_add]
    · rw [(hchroma r hr c hc).1, Nat.zero_add, hrow r hr c hc]
    · rw [(hchroma r hr c hc).2, Nat.zero_add, hrow r hr c hc]

/-- A YU12 frame of four rows of two pixels. -/
def paddedFrame (stride : UInt32) : Frame := ⟨2, 4, v4l2PixFmtYuv420, stride, 64, 0, 40, 0, 0, 1⟩

theorem planesLaw_iff_sample : PlanesLaw (paddedFrame 2) (fun a ↦ UInt8.ofNat a)
    (run (fun a ↦ UInt8.ofNat a) (encoderThreadConvert (paddedFrame 2)) fun _ ↦ 0) :=
  (planesLaw_iff (by decide) (by decide) (by decide) (by decide) (by decide)).2 (.inl rfl) _ _

/-- With rows of four bytes, the second U row is taken from the middle of the first. -/
theorem not_planesLaw : ¬ ∀ src m,
    PlanesLaw (paddedFrame 4) src (run src (encoderThreadConvert (paddedFrame 4)) m) := by
  intro hlaw
  exact absurd ((hlaw (fun a ↦ UInt8.ofNat a) fun _ ↦ 0).chromaU 1 (by decide) 0 (by decide)) (by decide)

end Camstream
