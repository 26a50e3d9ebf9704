import Camstream.Media.YuvConvert
import Camstream.Vision.SearchReads

/-!
# The vision worker

`src/vision/vision_worker.c`: `copy_gray` and the loop of the thread, for one frame taken from its mailbox.
Writing the mosaic to files is left out.

`visionThreadStep_of_shows` says once what a frame does that shows an image: it becomes the previous frame,
the origin moves by the offset that the search has found, and the frame is accumulated there.
-/

namespace Camstream

open Memory Run

/-- `V4L2_PIX_FMT_YUV420M` -/
def v4l2PixFmtYuv420m : UInt32 := 0x32314d59

/-- `copy_gray`: `-1`, or the assignments from `frame->data` to `out`. -/
def copyGray (frame : Frame) (width height : UInt32) : Option (List (Store UInt8)) :=
  if frame.format = v4l2PixFmtYuyv then visionGrayFromYuyv frame.stride ⟨width, height, width, []⟩
  else if frame.format = v4l2PixFmtYuv420 ∨ frame.format = v4l2PixFmtYuv420m then
    if frame.stride < width ∨ frame.size < frame.stride.toNat * height.toNat then none
    else some <| (List.range height.toNat).flatMap fun y ↦
      copyStores (y * width.toNat) (y * frame.stride.toNat) width.toNat
  else none

/-- `struct VisionWorker`, with the locals of its thread. -/
structure VisionWorker where
  width : UInt32
  height : UInt32
  processed : UInt64
  previousData : ℕ → UInt8
  currentData : ℕ → UInt8
  mosaic : VisionMosaic
  havePrevious : Bool
  originX : ℤ
  originY : ℤ

/-- `vision_worker_create`, with memory left, and the beginning of `vision_thread`. Nothing is known of what
the buffers hold. -/
def visionWorkerCreate (width height : UInt32) (previousData currentData : ℕ → UInt8) :
    Option VisionWorker :=
  if width = 0 ∨ height = 0 then none
  else (visionMosaicCreate (width * 3) (height * 3)).map fun mosaic ↦
    ⟨width, height, 0, previousData, currentData, mosaic, false, asInt width.toNat, asInt height.toNat⟩

namespace VisionWorker

/-- A frame over one of the buffers of `width * height` bytes. -/
def gray (w : VisionWorker) (data : ℕ → UInt8) : GrayFrame :=
  ⟨w.width, w.height, w.width, (List.range (w.width.toNat * w.height.toNat)).map data⟩

/-- `vision_mosaic_add(w->mosaic, &current, origin_x, origin_y)`; its result is not looked at. -/
def addCurrent (w : VisionWorker) : Option (VisionWorker × List Sample) :=
  (visionMosaicAdd w.mosaic (w.gray w.currentData) w.originX w.originY).map fun
    | some s => ({ w with mosaic := s.1 }, s.2)
    | none => (w, [])

/-- The branches on `have_previous`. -/
def place (w : VisionWorker) : Option (VisionWorker × List Sample) :=
  if w.havePrevious then
    (visionEstimateOffset (w.gray w.previousData) (w.gray w.currentData) 32 32).bind fun
      | some best =>
        { w with
          originX := asInt (w.originX + best.2.1)
          originY := asInt (w.originY + best.2.2) }.addCurrent
      | none => some (w, [])
  else w.addCurrent.map fun s ↦ ({ s.1 with havePrevious := true }, s.2)

end VisionWorker

/-- The body of the loop of `vision_thread` for a frame, where `data` are the bytes from `frame->data` on. It
returns the samples that were accumulated. -/
def visionThreadStep (w : VisionWorker) (frame : Frame) (data : ℕ → UInt8) :
    Option (VisionWorker × List Sample) :=
  match copyGray frame w.width w.height with
  | none => some (w, [])
  | some stores =>
    let w := { w with currentData := run data stores w.currentData }
    w.place.map fun (w, samples) ↦
      ({ w with
          previousData := copy w.previousData 0 w.currentData (w.width.toNat * w.height.toNat)
          processed := w.processed + 1 }, samples)

/-! ### The luma plane -/

/-- The rows of the luma plane. -/
theorem mem_lumaRows {width height stride : ℕ} {s : Store UInt8} :
    s ∈ ((List.range height).flatMap fun y ↦ copyStores (y * width) (y * stride) width) ↔
      ∃ y < height, ∃ x < width, s = .byte (y * width + x) (y * stride + x) := by
  simp only [List.mem_flatMap, List.mem_range, mem_copyStores]

/-- An address of the plane is assigned in one way. -/
theorem eq_lumaStore {width height stride : ℕ} {s : Store UInt8}
    (hs : s ∈ (List.range height).flatMap fun y ↦ copyStores (y * width) (y * stride) width) :
    s = .byte s.addr (s.addr / width * stride + s.addr % width) := by
  obtain ⟨y, -, x, hx, rfl⟩ := mem_lumaRows.1 hs
  show _ = Store.byte (y * width + x) ((y * width + x) / width * stride + (y * width + x) % width)
  rw [row_div hx, row_mod hx]

/-- A planar frame gives its luma plane. -/
theorem copyGray_planar {frame : Frame} {width height : UInt32}
    (hformat : frame.format = v4l2PixFmtYuv420 ∨ frame.format = v4l2PixFmtYuv420m)
    (hstride : width ≤ frame.stride) (hsize : frame.stride.toNat * height.toNat ≤ frame.size) :
    copyGray frame width height = some ((List.range height.toNat).flatMap fun y ↦
      copyStores (y * width.toNat) (y * frame.stride.toNat) width.toNat) := by
  have hother : frame.format ≠ v4l2PixFmtYuyv := by
    rcases hformat with h | h <;> rw [h] <;> decide
  rw [copyGray, if_neg hother, if_pos hformat, if_neg]
  rintro (h | h)
  · exact absurd hstride (UInt32.not_le.2 h)
  · exact absurd hsize (Nat.not_le.2 h)

/-- What `copy_gray` makes of a planar frame. -/
theorem run_lumaRows {width height stride : ℕ} (data m : ℕ → UInt8) {x y : ℕ} (hy : y < height)
    (hx : x < width) :
    run data ((List.range height).flatMap fun y ↦ copyStores (y * width) (y * stride) width) m
      (y * width + x) = data (y * stride + x) := by
  exact run_addr (f := fun a ↦ .byte a (a / width * stride + a % width)) (fun s hs ↦ eq_lumaStore hs)
    (mem_lumaRows.2 ⟨y, hy, x, hx, rfl⟩)

/-! ### Frames that show an image -/

/-- **On frames smaller than its window the search leaves them.** -/
theorem visionEstimateOffset_of_small {width height : UInt32} (hwidth : 0 < width) (hheight : 0 < height)
    (hsmall : width.toNat < 32 ∨ height.toNat < 32) (image image' : ℤ → ℤ → UInt8) :
    visionEstimateOffset (imageFrame width height image) (imageFrame width height image') 32 32 = none := by
  have hfits : ¬ WindowFits width height 32 32 := by
    rintro ⟨-, hdx, hdy⟩
    omega
  exact visionEstimateOffset_imageFrame_eq_none hwidth hheight (by decide) (by decide) hfits image image'

/-- A buffer that holds an image is a frame of it. -/
theorem gray_eq_imageFrame {w : VisionWorker} {data : ℕ → UInt8} {image : ℤ → ℤ → UInt8}
    (h : ∀ y < w.height.toNat, ∀ x < w.width.toNat, data (y * w.width.toNat + x) = image x y) :
    w.gray data = imageFrame w.width w.height image := by
  rw [VisionWorker.gray, imageFrame]
  congr 1
  refine List.map_congr_left fun k hk ↦ ?_
  have hk : k < w.width.toNat * w.height.toNat := List.mem_range.1 hk
  have hpos : 0 < w.width.toNat := Nat.pos_of_mul_pos_right (Nat.zero_lt_of_lt hk)
  have hpixel := h (k / w.width.toNat) (Nat.div_lt_of_lt_mul hk) (k % w.width.toNat) (Nat.mod_lt k hpos)
  rwa [Nat.mul_comm, Nat.div_add_mod] at hpixel

/-- What `memcpy` has copied is the same frame. -/
theorem gray_copy (w : VisionWorker) (m data : ℕ → UInt8) :
    w.gray (copy m 0 data (w.width.toNat * w.height.toNat)) = w.gray data := by
  rw [VisionWorker.gray, VisionWorker.gray]
  congr 1
  refine List.map_congr_left fun k hk ↦ ?_
  have hcopied := copy_add_of_lt (List.mem_range.1 hk) m 0 data
  rwa [Nat.zero_add] at hcopied

/-- The origin after a frame whose contents have moved by `d`. -/
def VisionWorker.nextOrigin (w : VisionWorker) (d : ℤ × ℤ) : ℤ × ℤ :=
  if w.havePrevious then (asInt (w.originX + d.1), asInt (w.originY + d.2)) else (w.originX, w.originY)

/-- What has become of a worker and its samples after a frame that shows an image. -/
structure VisionWorker.Took (w : VisionWorker) (image : ℤ → ℤ → UInt8) (origin : ℤ × ℤ)
    (s : VisionWorker × List Sample) : Prop where
  width_eq : s.1.width = w.width
  height_eq : s.1.height = w.height
  havePrevious : s.1.havePrevious = true
  origin_eq : (s.1.originX, s.1.originY) = origin
  previous_eq : s.1.gray s.1.previousData = imageFrame w.width w.height image
  accumulated : Accumulated origin.1 origin.2 w.mosaic (pixels 0 w.width.toNat 0 w.height.toNat)
    (s.1.mosaic, s.2)

variable {w : VisionWorker} {image : ℤ → ℤ → UInt8}

/-- The frame at hand can always be added. -/
theorem exists_addCurrent (hwidth : 0 < w.width) (hheight : 0 < w.height)
    (hcurrent : w.gray w.currentData = imageFrame w.width w.height image) :
    ∃ mosaic samples, w.addCurrent = some ({ w with mosaic := mosaic }, samples) ∧
      Accumulated w.originX w.originY w.mosaic (pixels 0 w.width.toNat 0 w.height.toNat)
        (mosaic, samples) := by
  obtain ⟨s, hs, hacc⟩ := exists_visionMosaicAdd (shows_imageFrame hwidth hheight image) w.mosaic
    w.originX w.originY
  refine ⟨s.1, s.2, ?_, hacc⟩
  rw [VisionWorker.addCurrent, hcurrent, hs]
  rfl

/-- A frame is placed as soon as its displacement is known. -/
theorem exists_place {d : ℤ × ℤ} (hwidth : 0 < w.width) (hheight : 0 < w.height)
    (hcurrent : w.gray w.currentData = imageFrame w.width w.height image)
    (hestimate : w.havePrevious = true → ∃ e, visionEstimateOffset (w.gray w.previousData)
      (imageFrame w.width w.height image) 32 32 = some (some (e, d))) :
    ∃ mosaic samples,
      w.place = some ({ w with
        mosaic := mosaic
        havePrevious := true
        originX := (w.nextOrigin d).1
        originY := (w.nextOrigin d).2 }, samples) ∧
      Accumulated (w.nextOrigin d).1 (w.nextOrigin d).2 w.mosaic
        (pixels 0 w.width.toNat 0 w.height.toNat) (mosaic, samples) := by
  rw [VisionWorker.place, VisionWorker.nextOrigin]
  by_cases hprevious : w.havePrevious = true
  · obtain ⟨e, he⟩ := hestimate hprevious
    rw [if_pos hprevious, if_pos hprevious, hcurrent, he]
    -- Only the origin has changed when the frame is added.
    obtain ⟨mosaic, samples, hadd, hacc⟩ := exists_addCurrent
      (w := { w with originX := asInt (w.originX + d.1), originY := asInt (w.originY + d.2) })
      hwidth hheight hcurrent
    refine ⟨mosaic, samples, hadd.trans ?_, hacc⟩
    rw [← hprevious]
  · rw [if_neg hprevious, if_neg hprevious]
    obtain ⟨mosaic, samples, hadd, hacc⟩ := exists_addCurrent hwidth hheight hcurrent
    rw [hadd]
    exact ⟨mosaic, samples, rfl, hacc⟩

/-- **A frame of an image** is accumulated where the search says, provided that the search has a result. -/
theorem visionThreadStep_of_shows {frame : Frame} {data : ℕ → UInt8} {d : ℤ × ℤ}
    (hwidth : 0 < w.width) (hheight : 0 < w.height)
    {stores : List (Store UInt8)} (hcopy : copyGray frame w.width w.height = some stores)
    (hshows : ∀ m, ∀ y < w.height.toNat, ∀ x < w.width.toNat,
      run data stores m (y * w.width.toNat + x) = image x y)
    (hestimate : w.havePrevious = true → ∃ e, visionEstimateOffset (w.gray w.previousData)
      (imageFrame w.width w.height image) 32 32 = some (some (e, d))) :
    ∃ s, visionThreadStep w frame data = some s ∧ w.Took image (w.nextOrigin d) s := by
  have hcurrent : ({ w with currentData := run data stores w.currentData } : VisionWorker).gray
      (run data stores w.currentData) = imageFrame w.width w.height image :=
    gray_eq_imageFrame fun y hy x hx ↦ hshows w.currentData y hy x hx
  obtain ⟨mosaic, samples, hplace, hacc⟩ := exists_place
    (w := { w with currentData := run data stores w.currentData }) hwidth hheight hcurrent hestimate
  rw [visionThreadStep, hcopy]
  dsimp only
  rw [hplace]
  exact ⟨_, rfl, rfl, rfl, rfl, rfl, (gray_copy w _ _).trans hcurrent, hacc⟩

end Camstream
