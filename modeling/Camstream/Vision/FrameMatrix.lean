import Camstream.Lib.Argmin
import Camstream.Lib.Memory
import Mathlib.Algebra.Group.Int.Defs
import Mathlib.Algebra.Group.Nat.Defs
import Mathlib.Data.List.Nodup

/-!
# Frames as matrices

`src/vision/frame_matrix.c`: conversion to gray, the search for a displacement, and the mosaic. The data of
a `GrayFrame` is the allocation that its pointer points to, and `none` is a read outside of it, so that a
search that leaves the frames has no result instead of some result.

`visionMosaicAdd` returns the samples it has accumulated along with the mosaic: which pixel went to which
cell. `mosaicCell_inj` says that one call gives no two pixels to one cell.
-/

namespace Camstream

open Memory Run Argmin

/-- What an `int` holds; sums wrap around. -/
@[irreducible] def asInt (z : ℤ) : ℤ :=
  z.bmod (2 ^ 32)

/-- `GrayFrame` -/
structure GrayFrame where
  width : UInt32
  height : UInt32
  stride : UInt32
  data : List UInt8
  deriving DecidableEq, Repr

/-- `valid_frame`, for pointers that are not `NULL`. -/
def validFrame (f : GrayFrame) : Prop :=
  0 < f.width ∧ 0 < f.height ∧ f.width ≤ f.stride

instance (f : GrayFrame) : Decidable (validFrame f) :=
  inferInstanceAs (Decidable (_ ∧ _ ∧ _))

/-- `(f->data + (size_t) y * f->stride)[x]` -/
def GrayFrame.read (f : GrayFrame) (y : ℕ) (x : ℤ) : Option UInt8 :=
  let a : ℤ := ↑(y * f.stride.toNat) + x
  if a < 0 then none else f.data[a.toNat]?

/-- The pixels of a rectangle, row by row. -/
def pixels (x0 x1 y0 y1 : ℕ) : List (ℕ × ℕ) :=
  (List.range' y0 (y1 - y0)).flatMap fun y ↦ (List.range' x0 (x1 - x0)).map fun x ↦ (x, y)

/-- `vision_gray_from_yuyv`: `-1`, or the assignments to `dst->data`. -/
def visionGrayFromYuyv (srcStride : UInt32) (dst : GrayFrame) : Option (List (Store UInt8)) :=
  if ¬ validFrame dst ∨ srcStride < dst.width * 2 ∨ dst.width &&& 1 ≠ 0 then none
  else some <| (List.range dst.height.toNat).flatMap fun y ↦
    (List.range (dst.width.toNat / 2)).flatMap fun k ↦
      let x := UInt32.ofNat (2 * k)
      let row := y * srcStride.toNat
      let out := y * dst.stride.toNat
      [Store.byte (out + x.toNat) (row + (x * 2).toNat),
        Store.byte (out + (x + 1).toNat) (row + (x * 2 + 2).toNat)]

/-! ### The search -/

/-- `x0`, or `y0`: where the overlap of two frames displaced by `d` begins. -/
def overlapStart (d : ℤ) : UInt32 :=
  if d < 0 then UInt32.ofInt (-d) else 0

/-- `x1`, or `y1`: where it ends. -/
def overlapEnd (size : UInt32) (d : ℤ) : UInt32 :=
  if 0 < d then size - UInt32.ofInt d else size

/-- The absolute difference of a pixel of `previous` and its match in `current`. -/
def absoluteDifference (previous current : GrayFrame) (dx dy : ℤ) (p : ℕ × ℕ) : Option UInt64 :=
  let bx := asInt (asInt p.1 + dx)
  match previous.read p.2 p.1, current.read (UInt32.ofNat p.2 + UInt32.ofInt dy).toNat bx with
  | some a, some b => some (UInt64.ofNat ((a.toNat : ℤ) - b.toNat).natAbs)
  | _, _ => none

/-- `error += (uint64_t) (d < 0 ? -d : d)` -/
def addDifference (previous current : GrayFrame) (d : ℤ × ℤ) (error : UInt64) (p : ℕ × ℕ) :
    Option UInt64 :=
  (absoluteDifference previous current d.1 d.2 p).map (error + ·)

/-- The error of a displacement; `some none` is `continue`. -/
def offsetError (previous current : GrayFrame) (d : ℤ × ℤ) : Option (Option UInt64) :=
  let x0 := overlapStart d.1
  let x1 := overlapEnd previous.width d.1
  let y0 := overlapStart d.2
  let y1 := overlapEnd previous.height d.2
  if x1 ≤ x0 ∨ y1 ≤ y0 ∨ x1 - x0 < previous.width / 4 ∨ y1 - y0 < previous.height / 4 then some none
  else
    (exec (addDifference previous current d) 0 (pixels x0.toNat x1.toNat y0.toNat y1.toNat)).map some

/-- `for (int d = -max; d <= max; d++)` -/
def searchRange (max : ℤ) : List ℤ :=
  (List.range (2 * max + 1).toNat).map fun k : ℕ ↦ -max + k

/-- The displacements `(dx, dy)` in the order of the search. -/
def searchWindow (maxDx maxDy : ℤ) : List (ℤ × ℤ) :=
  (searchRange maxDy).flatMap fun dy ↦ (searchRange maxDx).map fun dx ↦ (dx, dy)

/-- `vision_estimate_offset`: `-1`, or the offset with its error. A loop up to `INT_MAX` runs into
the overflow of its counter. -/
def visionEstimateOffset (previous current : GrayFrame) (maxDx maxDy : ℤ) :
    Option (Option (UInt64 × ℤ × ℤ)) :=
  if ¬ validFrame previous ∨ ¬ validFrame current ∨ previous.width ≠ current.width ∨
      previous.height ≠ current.height ∨ maxDx < 0 ∨ maxDy < 0 then some none
  else if maxDx = 2 ^ 31 - 1 ∨ maxDy = 2 ^ 31 - 1 then none
  else
    (exec (scanStep (offsetError previous current)) (0xFFFFFFFFFFFFFFFF, 0, 0)
      (searchWindow maxDx maxDy)).map fun best ↦
        if best.1 = 0xFFFFFFFFFFFFFFFF then none else some best

/-! ### The mosaic -/

/-- `struct VisionMosaic` -/
structure VisionMosaic where
  width : UInt32
  height : UInt32
  sum : ℕ → UInt64
  count : ℕ → UInt32

/-- `vision_mosaic_create`, with memory left. -/
def visionMosaicCreate (width height : UInt32) : Option VisionMosaic :=
  if width = 0 ∨ height = 0 ∨ (2 ^ 64 - 1) / height.toNat < width.toNat then none
  else some ⟨width, height, fun _ ↦ 0, fun _ ↦ 0⟩

/-- The index `i` of the cell for a pixel of a frame at `(ox, oy)`, unless the pixel is clipped. -/
def mosaicCell (width height : UInt32) (ox oy : ℤ) (p : ℕ × ℕ) : Option ℕ :=
  let gy := asInt (oy + asInt p.2)
  let gx := asInt (ox + asInt p.1)
  if gy < 0 ∨ asInt height.toNat ≤ gy ∨ gx < 0 ∨ asInt width.toNat ≤ gx then none
  else some (gy.toNat * width.toNat + gx.toNat)

/-- A pixel `(x, y)` of a frame, and the cell it was accumulated into. -/
structure Sample where
  cell : ℕ
  pixel : ℕ × ℕ
  deriving DecidableEq, Repr

/-- `m->sum[i] += v; m->count[i]++` -/
def VisionMosaic.accumulate (m : VisionMosaic) (i : ℕ) (v : UInt8) : VisionMosaic :=
  { m with
    sum := Function.update m.sum i (m.sum i + v.toUInt64)
    count := Function.update m.count i (m.count i + 1) }

/-- The body of the loops of `vision_mosaic_add`. -/
def addPixel (f : GrayFrame) (ox oy : ℤ) (s : VisionMosaic × List Sample) (p : ℕ × ℕ) :
    Option (VisionMosaic × List Sample) :=
  match mosaicCell s.1.width s.1.height ox oy p with
  | none => some s
  | some i =>
    if s.1.count i ≠ 0xFFFFFFFF then
      (f.read p.2 p.1).map fun v ↦ (s.1.accumulate i v, s.2 ++ [⟨i, p⟩])
    else some s

/-- `vision_mosaic_add`: `-1`, or the mosaic and what was accumulated. -/
def visionMosaicAdd (m : VisionMosaic) (f : GrayFrame) (ox oy : ℤ) :
    Option (Option (VisionMosaic × List Sample)) :=
  if ¬ validFrame f then some none
  else (exec (addPixel f ox oy) (m, []) (pixels 0 f.width.toNat 0 f.height.toNat)).map some

/-- `mosaic_value`: what the exports write for a cell. -/
def mosaicValue (m : VisionMosaic) (i : ℕ) : UInt8 :=
  if m.count i = 0 then 0 else (m.sum i / (m.count i).toUInt64).toUInt8

/-! ### Arithmetic of `int` -/

/-- A conversion to `int` keeps the low 32 bits. -/
theorem asInt_emod (z : ℤ) : asInt z % 4294967296 = z % 4294967296 := by
  rw [asInt]
  exact Int.bmod_emod

theorem asInt_asInt (z : ℤ) : asInt (asInt z) = asInt z := by
  rw [asInt, asInt]
  exact Int.bmod_bmod

/-- A number that is an `int` is kept. -/
theorem asInt_eq {z : ℤ} (hlo : -2 ^ 31 ≤ z) (hhi : z < 2 ^ 31) : asInt z = z := by
  rw [asInt, Int.bmod_def]
  split_ifs <;> omega

/-! ### Rectangles -/

theorem mem_pixels {x0 x1 y0 y1 : ℕ} {p : ℕ × ℕ} :
    p ∈ pixels x0 x1 y0 y1 ↔ (x0 ≤ p.1 ∧ p.1 < x1) ∧ y0 ≤ p.2 ∧ p.2 < y1 := by
  simp only [pixels, List.mem_flatMap, List.mem_map, List.mem_range'_1]
  constructor
  · rintro ⟨y, hy, x, hx, rfl⟩
    omega
  · rintro ⟨hx, hy⟩
    exact ⟨p.2, by omega, p.1, by omega, rfl⟩

/-- No pixel is visited twice. -/
theorem nodup_pixels (x0 x1 y0 y1 : ℕ) : (pixels x0 x1 y0 y1).Nodup := by
  refine List.nodup_flatMap.2 ⟨fun y _ ↦ ?_, ?_⟩
  · exact List.Nodup.map (fun x x' h ↦ (Prod.mk.inj h).1) List.nodup_range'
  · refine List.Pairwise.imp ?_ List.nodup_range'
    intro y y' hne
    simp only [Function.onFun, List.disjoint_left, List.mem_map]
    rintro - ⟨x, -, rfl⟩ ⟨x', -, h⟩
    exact hne (Prod.mk.inj h).2.symm

/-! ### The luma of a packed frame -/

/-- When the conversion accepts its frames. -/
theorem exists_visionGrayFromYuyv_iff {srcStride : UInt32} {dst : GrayFrame} :
    (∃ stores, visionGrayFromYuyv srcStride dst = some stores) ↔
      validFrame dst ∧ dst.width * 2 ≤ srcStride ∧ dst.width &&& 1 = 0 := by
  rw [visionGrayFromYuyv]
  split_ifs with hreject
  · refine iff_of_false (fun h ↦ h.elim fun _ hstores ↦ hstores) ?_
    rintro ⟨hvalid, hstride, heven⟩
    rcases hreject with h | h | h
    · exact h hvalid
    · exact UInt32.not_lt.2 hstride h
    · exact h heven
  · obtain ⟨hvalid, hreject⟩ := not_or.1 hreject
    obtain ⟨hstride, heven⟩ := not_or.1 hreject
    exact iff_of_true ⟨_, rfl⟩ ⟨not_not.1 hvalid, UInt32.not_lt.1 hstride, not_not.1 heven⟩

/-- Each pixel of a row is made of every other byte, as far as a 32-bit index reaches. -/
theorem mem_visionGrayFromYuyv {srcStride : UInt32} {dst : GrayFrame} {stores : List (Store UInt8)}
    (h : visionGrayFromYuyv srcStride dst = some stores) {s : Store UInt8} :
    s ∈ stores ↔ ∃ y < dst.height.toNat, ∃ x < dst.width.toNat,
      s = .byte (y * dst.stride.toNat + x) (y * srcStride.toNat + 2 * x % 2 ^ 32) := by
  obtain ⟨-, -, hand⟩ := exists_visionGrayFromYuyv_iff.1 ⟨stores, h⟩
  rw [visionGrayFromYuyv] at h
  split_ifs at h
  obtain rfl := Option.some.inj h
  have hlt := dst.width.toNat_lt
  have heven : dst.width.toNat % 2 = 0 := by
    have hand := congrArg UInt32.toNat hand
    rw [UInt32.toNat_and] at hand
    rwa [← Nat.and_one_is_mod]
  -- The loop goes by pairs. The column is computed exactly, and the offset modulo 2^32.
  have hpair : ∀ k < dst.width.toNat / 2, (UInt32.ofNat (2 * k)).toNat = 2 * k ∧
      (UInt32.ofNat (2 * k) + 1).toNat = 2 * k + 1 ∧
      (UInt32.ofNat (2 * k) * 2).toNat = 2 * (2 * k) % 2 ^ 32 ∧
      (UInt32.ofNat (2 * k) * 2 + 2).toNat = 2 * (2 * k + 1) % 2 ^ 32 := by
    intro k hk
    have hx : (UInt32.ofNat (2 * k)).toNat = 2 * k := UInt32.toNat_ofNat_of_lt (show 2 * k < 2 ^ 32 by omega)
    have h1 : (1 : UInt32).toNat = 1 := rfl
    have h2 : (2 : UInt32).toNat = 2 := rfl
    refine ⟨hx, ?_, ?_, ?_⟩
    · rw [UInt32.toNat_add, hx, h1]
      omega
    · rw [UInt32.toNat_mul, hx, h2, Nat.mul_comm]
    · rw [UInt32.toNat_add, UInt32.toNat_mul, hx, h2]
      omega
  simp only [List.mem_flatMap, List.mem_range, List.mem_cons, List.not_mem_nil, or_false]
  refine exists_congr fun y ↦ and_congr_right fun hy ↦ ?_
  constructor
  · rintro ⟨k, hk, rfl | rfl⟩
    · obtain ⟨hx, -, hread, -⟩ := hpair k hk
      exact ⟨2 * k, by omega, by rw [hx, hread]⟩
    · obtain ⟨-, hx, -, hread⟩ := hpair k hk
      exact ⟨2 * k + 1, by omega, by rw [hx, hread]⟩
  · rintro ⟨x, hx, rfl⟩
    obtain ⟨hx0, hx1, hread0, hread1⟩ := hpair (x / 2) (by omega)
    refine ⟨x / 2, by omega, ?_⟩
    rcases Nat.mod_two_eq_zero_or_one x with hmod | hmod
    · have hk : 2 * (x / 2) = x := by omega
      rw [hx0, hread0, hk]
      exact .inl rfl
    · have hk : 2 * (x / 2) + 1 = x := by omega
      rw [hx1, hread1, hk]
      exact .inr rfl

/-! ### What the search reads -/

/-- The pixels of a frame are there and show an image. -/
structure GrayFrame.Shows (f : GrayFrame) (image : ℤ → ℤ → UInt8) : Prop where
  valid : validFrame f
  read : ∀ y < f.height.toNat, ∀ x < f.width.toNat, f.read y x = some (image x y)

theorem GrayFrame.read_natCast (f : GrayFrame) (y x : ℕ) :
    f.read y x = f.data[y * f.stride.toNat + x]? := by
  have ha : (↑(y * f.stride.toNat) + ↑x : ℤ) = ((y * f.stride.toNat + x : ℕ) : ℤ) :=
    (Int.natCast_add _ _).symm
  show (if (↑(y * f.stride.toNat) + ↑x : ℤ) < 0 then none
    else f.data[(↑(y * f.stride.toNat) + ↑x : ℤ).toNat]?) = _
  rw [ha, if_neg (Int.not_lt.2 (Int.natCast_nonneg _)), Int.toNat_natCast]

/-- A frame of an image, row after row. -/
def imageFrame (width height : UInt32) (image : ℤ → ℤ → UInt8) : GrayFrame :=
  ⟨width, height, width, (List.range (width.toNat * height.toNat)).map fun k ↦
    image ↑(k % width.toNat) ↑(k / width.toNat)⟩

/-- A frame without padding shows its image. -/
theorem shows_imageFrame {width height : UInt32} (hwidth : 0 < width) (hheight : 0 < height)
    (image : ℤ → ℤ → UInt8) : (imageFrame width height image).Shows image := by
  refine ⟨⟨hwidth, hheight, UInt32.le_refl _⟩, fun y hy x hx ↦ ?_⟩
  have hy : y < height.toNat := hy
  have hx : x < width.toNat := hx
  rw [GrayFrame.read_natCast, imageFrame, List.getElem?_map, List.getElem?_range (row_lt hy hx),
    Option.map_some, row_div hx, row_mod hx]

theorem read_imageFrame_of_le {width height : UInt32} {image : ℤ → ℤ → UInt8} {x y : ℕ}
    (h : width.toNat * height.toNat ≤ y * width.toNat + x) :
    (imageFrame width height image).read y x = none := by
  rw [GrayFrame.read_natCast]
  refine List.getElem?_eq_none ?_
  rwa [imageFrame, List.length_map, List.length_range]

theorem toNat_ofInt {z : ℤ} (hlo : 0 ≤ z) (hhi : z < 2 ^ 32) : (UInt32.ofInt z).toNat = z.toNat := by
  have hlt : z.toNat < 2 ^ 32 := by omega
  rw [UInt32.ofInt, Int.emod_eq_of_lt hlo hhi]
  exact UInt32.toNat_ofNat_of_lt hlt

/-- The first column that both frames have. -/
theorem toNat_overlapStart {d : ℤ} (h : -d < 2 ^ 32) : (overlapStart d).toNat = (-d).toNat := by
  rw [overlapStart]
  split_ifs with hneg
  · exact toNat_ofInt (by omega) h
  · rw [Int.toNat_of_nonpos (by omega)]
    rfl

/-- The one behind the last. -/
theorem toNat_overlapEnd {size : UInt32} {d : ℤ} (h : d ≤ size.toNat) :
    (overlapEnd size d).toNat = size.toNat - d.toNat := by
  have hsize := size.toNat_lt
  rw [overlapEnd]
  split_ifs with hpos
  · have hd : (UInt32.ofInt d).toNat = d.toNat := toNat_ofInt (by omega) (by omega)
    rw [UInt32.toNat_sub_of_le _ _ (UInt32.le_iff_toNat_le.2 (by omega)), hd]
  · rw [Int.toNat_of_nonpos (by omega), Nat.sub_zero]

/-- The overlap along one axis is large enough for the search. -/
def Admissible (size : UInt32) (d : ℤ) : Prop :=
  overlapStart d < overlapEnd size d ∧ size / 4 ≤ overlapEnd size d - overlapStart d

/-- An overlap of a quarter of the size at least. -/
theorem admissible_iff {size : UInt32} {d : ℤ} : Admissible size d ↔
    (overlapStart d).toNat < (overlapEnd size d).toNat ∧
      size.toNat / 4 ≤ (overlapEnd size d).toNat - (overlapStart d).toNat := by
  rw [Admissible, UInt32.lt_iff_toNat_lt]
  refine and_congr_right fun h ↦ ?_
  have hle : overlapStart d ≤ overlapEnd size d := UInt32.le_iff_toNat_le.2 (Nat.le_of_lt h)
  have h4 : (4 : UInt32).toNat = 4 := rfl
  rw [UInt32.le_iff_toNat_le, UInt32.toNat_div, UInt32.toNat_sub_of_le _ _ hle, h4]

/-- The pixels of the previous frame that are compared, for a displacement `d`. -/
def overlap (previous : GrayFrame) (d : ℤ × ℤ) : List (ℕ × ℕ) :=
  pixels (overlapStart d.1).toNat (overlapEnd previous.width d.1).toNat (overlapStart d.2).toNat
    (overlapEnd previous.height d.2).toNat

/-- What the search passes over. -/
theorem skips_iff {width height : UInt32} {d : ℤ × ℤ} :
    (overlapEnd width d.1 ≤ overlapStart d.1 ∨ overlapEnd height d.2 ≤ overlapStart d.2 ∨
      overlapEnd width d.1 - overlapStart d.1 < width / 4 ∨
        overlapEnd height d.2 - overlapStart d.2 < height / 4) ↔
      ¬ (Admissible width d.1 ∧ Admissible height d.2) := by
  simp only [Admissible, not_and_or, UInt32.not_lt, UInt32.not_le, or_assoc]
  exact or_congr_right or_left_comm

/-- **What the search does with a displacement**: it passes it over, or adds up differences. -/
theorem offsetError_cases (previous current : GrayFrame) (d : ℤ × ℤ) :
    ¬ (Admissible previous.width d.1 ∧ Admissible previous.height d.2) ∧
        offsetError previous current d = some none ∨
      (Admissible previous.width d.1 ∧ Admissible previous.height d.2) ∧
        offsetError previous current d =
          (exec (addDifference previous current d) 0 (overlap previous d)).map some := by
  rw [offsetError]
  split_ifs with hskip
  · exact .inl ⟨skips_iff.1 hskip, rfl⟩
  · exact .inr ⟨not_not.1 (mt skips_iff.2 hskip), rfl⟩

variable {previous current : GrayFrame} {image image' : ℤ → ℤ → UInt8}

/-- The column of the current frame that a column is compared with. -/
theorem asInt_add_eq {x size : ℕ} {d : ℤ} (hsize : size ≤ 2 ^ 31) (hx : x < size)
    (hd : 0 ≤ x + d ∧ x + d < size) : asInt (asInt x + d) = x + d := by
  rw [asInt_eq (z := x) (by omega) (by omega), asInt_eq (by omega) (by omega)]

/-- The row that a row is compared with: the sum of unsigned numbers is the sum. -/
theorem toNat_add_ofInt {y : ℕ} {size : UInt32} {d : ℤ} (hy : y < size.toNat)
    (hd : 0 ≤ y + d ∧ y + d < size.toNat) :
    (UInt32.ofNat y + UInt32.ofInt d).toNat = (y + d).toNat := by
  have hlt := size.toNat_lt
  have hnat : UInt32.ofNat y = UInt32.ofInt y := by
    rw [UInt32.ofInt, Int.emod_eq_of_lt (by omega) (by omega), Int.toNat_natCast]
  rw [hnat, ← UInt32.ofInt_add]
  exact toNat_ofInt hd.1 (by omega)

/-- A search that goes no further than the frames compares pixels of the one with pixels of the other. -/
theorem absoluteDifference_eq (hp : previous.Shows image) (hc : current.Shows image')
    (hwidth : previous.width = current.width) (hheight : previous.height = current.height)
    (hsmall : previous.width.toNat ≤ 2 ^ 31) {dx dy : ℤ} {p : ℕ × ℕ}
    (hx : p.1 < previous.width.toNat) (hy : p.2 < previous.height.toNat)
    (hdx : 0 ≤ p.1 + dx ∧ p.1 + dx < previous.width.toNat)
    (hdy : 0 ≤ p.2 + dy ∧ p.2 + dy < previous.height.toNat) :
    absoluteDifference previous current dx dy p =
      some (UInt64.ofNat ((image p.1 p.2).toNat - (image' (p.1 + dx) (p.2 + dy)).toNat : ℤ).natAbs) := by
  have hbx : asInt (asInt p.1 + dx) = ((p.1 + dx).toNat : ℕ) :=
    (asInt_add_eq hsmall hx hdx).trans (Int.toNat_of_nonneg hdx.1).symm
  rw [absoluteDifference, hbx, toNat_add_ofInt hy hdy, hp.read p.2 hy p.1 hx,
    hc.read _ (by rw [← hheight]; omega) _ (by rw [← hwidth]; omega), Int.toNat_of_nonneg hdx.1,
    Int.toNat_of_nonneg hdy.1]

/-- **The overlap along one axis** is where both pixels are in the frame. -/
theorem mem_overlap {size : UInt32} {d : ℤ} (hd : d.natAbs ≤ size.toNat) {x : ℕ} :
    (overlapStart d).toNat ≤ x ∧ x < (overlapEnd size d).toNat ↔
      x < size.toNat ∧ 0 ≤ x + d ∧ x + d < size.toNat := by
  have hsize := size.toNat_lt
  rw [toNat_overlapStart (by omega), toNat_overlapEnd (by omega)]
  omega

section Shows

variable (hp : previous.Shows image) (hc : current.Shows image')
  (hwidth : previous.width = current.width) (hheight : previous.height = current.height)
  (hsmall : previous.width.toNat ≤ 2 ^ 31) {d : ℤ × ℤ} (hdx : d.1.natAbs ≤ previous.width.toNat)
  (hdy : d.2.natAbs ≤ previous.height.toNat)

include hp hc hwidth hheight hsmall hdx hdy

theorem absoluteDifference_of_mem {p : ℕ × ℕ} (hmem : p ∈ overlap previous d) :
    absoluteDifference previous current d.1 d.2 p =
      some (UInt64.ofNat
        ((image p.1 p.2).toNat - (image' (p.1 + d.1) (p.2 + d.2)).toNat : ℤ).natAbs) := by
  obtain ⟨hx, hy⟩ := mem_pixels.1 hmem
  obtain ⟨hx, hbx⟩ := (mem_overlap hdx).1 hx
  obtain ⟨hy, hby⟩ := (mem_overlap hdy).1 hy
  exact absoluteDifference_eq hp hc hwidth hheight hsmall hx hy hbx hby

/-- No displacement within the size of the frames makes the search read outside of them. -/
theorem exists_offsetError : ∃ e, offsetError previous current d = some e := by
  rcases offsetError_cases previous current d with ⟨-, hskip⟩ | ⟨-, hsum⟩
  · exact ⟨none, hskip⟩
  · have hstep : ∀ p ∈ overlap previous d, ∀ error,
        ∃ error', addDifference previous current d error p = some error' := by
      intro p hmem error
      rw [addDifference, absoluteDifference_of_mem hp hc hwidth hheight hsmall hdx hdy hmem]
      exact ⟨_, rfl⟩
    obtain ⟨e, he⟩ := exists_exec hstep 0
    refine ⟨some e, ?_⟩
    rw [hsum, he]
    rfl

/-- Where the one image is the other displaced, there is no error. -/
theorem offsetError_eq_zero (hmatch : ∀ x y, image x y = image' (x + d.1) (y + d.2)) {e : UInt64}
    (he : offsetError previous current d = some (some e)) : e = 0 := by
  rcases offsetError_cases previous current d with ⟨-, hskip⟩ | ⟨-, hsum⟩
  · exact absurd (Option.some.inj (hskip.symm.trans he)) (Option.some_ne_none e).symm
  · obtain ⟨e', he', hsome⟩ := Option.map_eq_some_iff.1 (hsum.symm.trans he)
    obtain rfl := Option.some.inj hsome
    refine exec_invariant_mem (P := fun error ↦ error = 0) (fun error p error' hmem hzero hstep ↦ ?_)
      rfl he'
    rw [addDifference, absoluteDifference_of_mem hp hc hwidth hheight hsmall hdx hdy hmem, ← hmatch,
      Int.sub_self, hzero] at hstep
    exact (Option.some.inj hstep).symm

end Shows

/-- A displacement that is passed over has too small an overlap. -/
theorem not_admissible_of_offsetError {d : ℤ × ℤ} (h : offsetError previous current d = some none) :
    ¬ (Admissible previous.width d.1 ∧ Admissible previous.height d.2) := by
  rcases offsetError_cases previous current d with ⟨hnot, -⟩ | ⟨-, hsum⟩
  · exact hnot
  · obtain ⟨e, -, he⟩ := Option.map_eq_some_iff.1 (hsum.symm.trans h)
    exact absurd he (Option.some_ne_none e)

/-- A displacement with an error has an overlap that is large enough. -/
theorem admissible_of_offsetError {d : ℤ × ℤ} {e : UInt64}
    (h : offsetError previous current d = some (some e)) :
    Admissible previous.width d.1 ∧ Admissible previous.height d.2 := by
  rcases offsetError_cases previous current d with ⟨-, hskip⟩ | ⟨hadmissible, -⟩
  · exact absurd (Option.some.inj (hskip.symm.trans h)) (Option.some_ne_none e).symm
  · exact hadmissible

/-- A read outside of a frame leaves the search without a result. -/
theorem offsetError_eq_none {d : ℤ × ℤ}
    (hadmissible : Admissible previous.width d.1 ∧ Admissible previous.height d.2) {p : ℕ × ℕ}
    (hmem : p ∈ overlap previous d) (hread : absoluteDifference previous current d.1 d.2 p = none) :
    offsetError previous current d = none := by
  rcases offsetError_cases previous current d with ⟨hnot, -⟩ | ⟨-, hsum⟩
  · exact absurd hadmissible hnot
  · rw [hsum, exec_eq_none hmem]
    · rfl
    · intro error
      rw [addDifference, hread]
      rfl

/-! ### What the search finds -/

theorem mem_searchRange {max d : ℤ} : d ∈ searchRange max ↔ -max ≤ d ∧ d ≤ max := by
  simp only [searchRange, List.mem_map, List.mem_range]
  constructor
  · rintro ⟨k, hk, rfl⟩
    omega
  · intro hd
    exact ⟨(d + max).toNat, by omega, by omega⟩

/-- The window is a rectangle around no displacement. -/
theorem mem_searchWindow {maxDx maxDy : ℤ} {d : ℤ × ℤ} :
    d ∈ searchWindow maxDx maxDy ↔ (-maxDx ≤ d.1 ∧ d.1 ≤ maxDx) ∧ -maxDy ≤ d.2 ∧ d.2 ≤ maxDy := by
  simp only [searchWindow, List.mem_flatMap, List.mem_map, mem_searchRange]
  constructor
  · rintro ⟨dy, hdy, dx, hdx, rfl⟩
    exact ⟨hdx, hdy⟩
  · rintro ⟨hdx, hdy⟩
    exact ⟨d.2, hdy, d.1, hdx, rfl⟩

/-- The checks at the beginning of the search. -/
theorem visionEstimateOffset_of_valid {maxDx maxDy : ℤ} (hp : validFrame previous) (hc : validFrame current)
    (hwidth : previous.width = current.width) (hheight : previous.height = current.height)
    (hdx : 0 ≤ maxDx) (hdy : 0 ≤ maxDy) :
    visionEstimateOffset previous current maxDx maxDy =
      if maxDx = 2 ^ 31 - 1 ∨ maxDy = 2 ^ 31 - 1 then none
      else (exec (scanStep (offsetError previous current)) (0xFFFFFFFFFFFFFFFF, 0, 0)
        (searchWindow maxDx maxDy)).map fun best ↦
          if best.1 = 0xFFFFFFFFFFFFFFFF then none else some best := by
  rw [visionEstimateOffset, if_neg]
  rintro (h | h | h | h | h | h)
  · exact h hp
  · exact h hc
  · exact h hwidth
  · exact h hheight
  · exact absurd hdx (Int.not_le.2 h)
  · exact absurd hdy (Int.not_le.2 h)

/-- A loop up to the largest `int` does not end. -/
theorem visionEstimateOffset_eq_none {maxDx maxDy : ℤ} (hp : validFrame previous) (hc : validFrame current)
    (hwidth : previous.width = current.width) (hheight : previous.height = current.height)
    (hdx : 0 ≤ maxDx) (hdy : 0 ≤ maxDy) (hmax : maxDx = 2 ^ 31 - 1 ∨ maxDy = 2 ^ 31 - 1) :
    visionEstimateOffset previous current maxDx maxDy = none := by
  rw [visionEstimateOffset_of_valid hp hc hwidth hheight hdx hdy, if_pos hmax]

/-- An offset that is found was in the window, and was not passed over. -/
theorem offset_of_visionEstimateOffset {maxDx maxDy : ℤ} {best : UInt64 × ℤ × ℤ}
    (h : visionEstimateOffset previous current maxDx maxDy = some (some best)) :
    best.2 ∈ searchWindow maxDx maxDy ∧ offsetError previous current best.2 = some (some best.1) := by
  rw [visionEstimateOffset] at h
  split_ifs at h
  · exact absurd (Option.some.inj h) (Option.some_ne_none best).symm
  · obtain ⟨found, hfound, hbest⟩ := Option.map_eq_some_iff.1 h
    split_ifs at hbest with hmax
    obtain rfl := Option.some.inj hbest
    rcases found_of_scan hfound with ⟨rfl, -⟩ | ⟨before, after, hl, hcost, -⟩
    · exact absurd rfl hmax
    · rw [hl]
      exact ⟨List.mem_append_right _ List.mem_cons_self, hcost⟩

/-! ### Cells -/

/-- Two columns of a frame never fall on one column of the mosaic. -/
theorem eq_of_asInt_add {o : ℤ} {x x' : ℕ} (hx : x < 2 ^ 32) (hx' : x' < 2 ^ 32)
    (h : asInt (o + asInt x) = asInt (o + asInt x')) : x = x' := by
  have hsum := asInt_emod (o + asInt x)
  have hsum' := asInt_emod (o + asInt x')
  have hmod := asInt_emod x
  have hmod' := asInt_emod x'
  rw [h] at hsum
  generalize asInt (o + asInt x') = a at hsum hsum'
  generalize asInt x = b at hsum hmod
  generalize asInt x' = c at hsum' hmod'
  omega

/-- **Two pixels of one frame never share a cell.** -/
theorem mosaicCell_inj {width height : UInt32} {ox oy : ℤ} {p q : ℕ × ℕ} {i : ℕ}
    (hp : p.1 < 2 ^ 32 ∧ p.2 < 2 ^ 32) (hq : q.1 < 2 ^ 32 ∧ q.2 < 2 ^ 32)
    (hpi : mosaicCell width height ox oy p = some i) (hqi : mosaicCell width height ox oy q = some i) :
    p = q := by
  rw [mosaicCell] at hpi hqi
  split_ifs at hpi with hclip
  split_ifs at hqi with hclip'
  obtain ⟨hpy, hclip⟩ := not_or.1 hclip
  obtain ⟨-, hclip⟩ := not_or.1 hclip
  obtain ⟨hpx, hpw⟩ := not_or.1 hclip
  obtain ⟨hqy, hclip'⟩ := not_or.1 hclip'
  obtain ⟨-, hclip'⟩ := not_or.1 hclip'
  obtain ⟨hqx, hqw⟩ := not_or.1 hclip'
  -- The width of the canvas is positive as an `int`, so it is the width.
  have hwidth : asInt width.toNat = width.toNat := by
    have hlt := width.toNat_lt
    rw [asInt, Int.bmod_def] at hpw ⊢
    split_ifs at hpw ⊢ <;> omega
  rw [hwidth] at hpw hqw
  have hpx' : (asInt (ox + asInt p.1)).toNat < width.toNat := by omega
  have hqx' : (asInt (ox + asInt q.1)).toNat < width.toNat := by omega
  have hi := (Option.some.inj hpi).trans (Option.some.inj hqi).symm
  have hrow := congrArg (· / width.toNat) hi
  have hcol := congrArg (· % width.toNat) hi
  simp only [row_div (w := width.toNat) hpx', row_div (w := width.toNat) hqx'] at hrow
  simp only [row_mod (w := width.toNat) hpx', row_mod (w := width.toNat) hqx'] at hcol
  have hy : p.2 = q.2 := eq_of_asInt_add (o := oy) hp.2 hq.2 (by omega)
  have hx : p.1 = q.1 := eq_of_asInt_add (o := ox) hp.1 hq.1 (by omega)
  exact Prod.ext hx hy

/-- Inside a canvas of fewer than `2 ^ 31` rows and columns nothing wraps around. -/
theorem mosaicCell_eq {width height : UInt32} {ox oy : ℤ} {p : ℕ × ℕ} (hwidth : width.toNat < 2 ^ 31)
    (hheight : height.toNat < 2 ^ 31) (hox : 0 ≤ ox) (hoy : 0 ≤ oy) (hx : ox + p.1 < width.toNat)
    (hy : oy + p.2 < height.toNat) :
    mosaicCell width height ox oy p = some ((oy + p.2).toNat * width.toNat + (ox + p.1).toNat) := by
  rw [mosaicCell, asInt_eq (z := p.2) (by omega) (by omega), asInt_eq (z := p.1) (by omega) (by omega),
    asInt_eq (z := oy + p.2) (by omega) (by omega), asInt_eq (z := ox + p.1) (by omega) (by omega),
    asInt_eq (z := height.toNat) (by omega) (by omega),
    asInt_eq (z := width.toNat) (by omega) (by omega), if_neg (by omega)]

/-- **A frame placed by the displacement of its contents** shares a cell with the frame before: for a pixel of
the one and a pixel of the other that show points twice the displacement apart. -/
theorem exists_shared_cell {width height : UInt32} {w h : ℕ} (hwidth : width.toNat = 3 * w)
    (hheight : height.toNat = 3 * h) (hint : 3 * w < 2 ^ 31 ∧ 3 * h < 2 ^ 31) {dx dy : ℤ}
    (hdx : dx.natAbs < w) (hdy : dy.natAbs < h) :
    ∃ p ∈ pixels 0 w 0 h, ∃ q ∈ pixels 0 w 0 h, ∃ i,
      mosaicCell width height w h p = some i ∧
        mosaicCell width height (w + dx) (h + dy) q = some i ∧
          (p.1 - q.1 : ℤ) = dx ∧ (p.2 - q.2 : ℤ) = dy := by
  have hp : (dx.toNat, dy.toNat) ∈ pixels 0 w 0 h := mem_pixels.2 (by dsimp only; omega)
  have hq : ((-dx).toNat, (-dy).toNat) ∈ pixels 0 w 0 h := mem_pixels.2 (by dsimp only; omega)
  have hx : (w + dx.toNat : ℤ) = w + dx + (-dx).toNat := by omega
  have hy : (h + dy.toNat : ℤ) = h + dy + (-dy).toNat := by omega
  have hltx : (w + dx.toNat : ℤ) < width.toNat := by omega
  have hlty : (h + dy.toNat : ℤ) < height.toNat := by omega
  refine ⟨_, hp, _, hq, (h + dy.toNat : ℤ).toNat * width.toNat + (w + dx.toNat : ℤ).toNat, ?_, ?_, ?_, ?_⟩
  · exact mosaicCell_eq (by omega) (by omega) (Int.natCast_nonneg w) (Int.natCast_nonneg h) hltx hlty
  · rw [hx, hy]
    exact mosaicCell_eq (by omega) (by omega) (by omega) (by omega) (hx ▸ hltx) (hy ▸ hlty)
  · dsimp only
    omega
  · dsimp only
    omega

/-! ### What is accumulated -/

variable {f : GrayFrame} {ox oy : ℤ}

/-- **What one pixel does to the mosaic**: nothing, if it is clipped or its cell is full, or one sample. -/
theorem addPixel_cases {s s' : VisionMosaic × List Sample} {p : ℕ × ℕ}
    (h : addPixel f ox oy s p = some s') :
    (s' = s ∧ ∀ i, mosaicCell s.1.width s.1.height ox oy p = some i → s.1.count i = 0xFFFFFFFF) ∨
      ∃ i v, mosaicCell s.1.width s.1.height ox oy p = some i ∧ s.1.count i ≠ 0xFFFFFFFF ∧
        f.read p.2 p.1 = some v ∧ s' = (s.1.accumulate i v, s.2 ++ [⟨i, p⟩]) := by
  rw [addPixel] at h
  rcases hcell : mosaicCell s.1.width s.1.height ox oy p with - | i
  · rw [hcell] at h
    exact .inl ⟨(Option.some.inj h).symm, fun i hi ↦ absurd hi.symm (Option.some_ne_none i)⟩
  · rw [hcell] at h
    dsimp only at h
    split_ifs at h with hfull
    · obtain ⟨v, hv, rfl⟩ := Option.map_eq_some_iff.1 h
      exact .inr ⟨i, v, rfl, hfull, hv, rfl⟩
    · refine .inl ⟨(Option.some.inj h).symm, fun j hj ↦ ?_⟩
      rw [← Option.some.inj hj]
      exact not_not.1 hfull

/-- The pixels of a list that go to one cell. -/
def hits (width height : UInt32) (ox oy : ℤ) (ps : List (ℕ × ℕ)) (i : ℕ) : ℕ :=
  ps.countP fun p ↦ mosaicCell width height ox oy p = some i

/-- What is true of a mosaic and its log after the pixels `ps`. -/
structure Accumulated (ox oy : ℤ) (m : VisionMosaic) (ps : List (ℕ × ℕ))
    (s : VisionMosaic × List Sample) : Prop where
  width_eq : s.1.width = m.width
  height_eq : s.1.height = m.height
  /-- A sample is a pixel that belongs to its cell. -/
  sample : ∀ t ∈ s.2, t.pixel ∈ ps ∧ mosaicCell m.width m.height ox oy t.pixel = some t.cell
  count_le : ∀ i, (s.1.count i).toNat ≤ (m.count i).toNat + hits m.width m.height ox oy ps i
  /-- A pixel whose cell has room is a sample. -/
  mem : ∀ p ∈ ps, ∀ i, mosaicCell m.width m.height ox oy p = some i →
    (m.count i).toNat + hits m.width m.height ox oy ps i < 2 ^ 32 - 1 → ⟨i, p⟩ ∈ s.2

/-- One pixel more. -/
theorem accumulated_snoc {m : VisionMosaic} {ps : List (ℕ × ℕ)} {p : ℕ × ℕ}
    {s s' : VisionMosaic × List Sample} (hs : Accumulated ox oy m ps s)
    (h : addPixel f ox oy s p = some s') : Accumulated ox oy m (ps ++ [p]) s' := by
  have hhits : ∀ i, hits m.width m.height ox oy (ps ++ [p]) i = hits m.width m.height ox oy ps i +
      if mosaicCell m.width m.height ox oy p = some i then 1 else 0 := by
    intro i
    simp only [hits, List.countP_append, List.countP_singleton, decide_eq_true_eq]
  have hgrow : ∀ i, hits m.width m.height ox oy ps i ≤ hits m.width m.height ox oy (ps ++ [p]) i :=
    fun i ↦ hhits i ▸ Nat.le_add_right _ _
  have hcases := addPixel_cases h
  rw [hs.width_eq, hs.height_eq] at hcases
  rcases hcases with ⟨rfl, hfull⟩ | ⟨i, v, hcell, hroom, -, rfl⟩
  · refine ⟨hs.width_eq, hs.height_eq, fun t ht ↦ ?_, fun i ↦ ?_, fun q hq i hi hlt ↦ ?_⟩
    · exact ⟨List.mem_append_left _ (hs.sample t ht).1, (hs.sample t ht).2⟩
    · exact Nat.le_trans (hs.count_le i) (Nat.add_le_add_left (hgrow i) _)
    · rcases List.mem_append.1 hq with hq | hq
      · exact hs.mem q hq i hi (Nat.lt_of_le_of_lt (Nat.add_le_add_left (hgrow i) _) hlt)
      · -- Its cell would be full, which the count does not allow.
        rw [List.mem_singleton.1 hq] at hi
        have hcount := hs.count_le i
        have hgrow := hgrow i
        rw [hfull i hi] at hcount
        exact absurd hcount (Nat.not_le.2 (Nat.lt_of_le_of_lt (Nat.add_le_add_left hgrow _) hlt))
  · refine ⟨hs.width_eq, hs.height_eq, fun t ht ↦ ?_, fun j ↦ ?_, fun q hq j hj hlt ↦ ?_⟩
    · rcases List.mem_append.1 ht with ht | ht
      · exact ⟨List.mem_append_left _ (hs.sample t ht).1, (hs.sample t ht).2⟩
      · rw [List.mem_singleton.1 ht]
        exact ⟨List.mem_append_right _ List.mem_cons_self, hcell⟩
    · show (Function.update s.1.count i (s.1.count i + 1) j).toNat ≤ _
      have hcount := hs.count_le j
      rw [hhits]
      rcases eq_or_ne j i with rfl | hne
      · rw [Function.update_self, if_pos hcell, UInt32.toNat_add]
        have hle := Nat.mod_le ((s.1.count j).toNat + UInt32.toNat 1) (2 ^ 32)
        exact Nat.le_trans hle (Nat.add_le_add_right hcount 1)
      · rw [Function.update_of_ne hne]
        exact Nat.le_trans hcount (Nat.add_le_add_left (Nat.le_add_right _ _) _)
    · rcases List.mem_append.1 hq with hq | hq
      · exact List.mem_append_left _
          (hs.mem q hq j hj (Nat.lt_of_le_of_lt (Nat.add_le_add_left (hgrow j) _) hlt))
      · rw [List.mem_singleton.1 hq] at hj ⊢
        rw [hcell] at hj
        rw [Option.some.inj hj]
        exact List.mem_append_right _ List.mem_cons_self

/-- By induction on the pixels. -/
theorem accumulated_of_exec {m : VisionMosaic} {ps : List (ℕ × ℕ)} {s : VisionMosaic × List Sample}
    (h : exec (addPixel f ox oy) (m, []) ps = some s) : Accumulated ox oy m ps s := by
  induction ps using List.reverseRecOn generalizing s with
  | nil =>
    obtain rfl := Option.some.inj h
    exact ⟨rfl, rfl, fun t ht ↦ absurd ht List.not_mem_nil, fun i ↦ Nat.le_refl _,
      fun p hp ↦ absurd hp List.not_mem_nil⟩
  | append_singleton ps p ih =>
    obtain ⟨t, ht, hstep⟩ := exists_of_exec_snoc h
    exact accumulated_snoc (ih ht) hstep

theorem lt_of_mem_pixels {w h : UInt32} {p : ℕ × ℕ} (hp : p ∈ pixels 0 w.toNat 0 h.toNat) :
    p.1 < 2 ^ 32 ∧ p.2 < 2 ^ 32 := by
  obtain ⟨⟨-, hx⟩, -, hy⟩ := mem_pixels.1 hp
  exact ⟨Nat.lt_trans hx w.toNat_lt, Nat.lt_trans hy h.toNat_lt⟩

/-- A frame hits a cell at most once. -/
theorem hits_le_one {width height w h : UInt32} (i : ℕ) :
    hits width height ox oy (pixels 0 w.toNat 0 h.toNat) i ≤ 1 := by
  rw [hits, List.countP_eq_length_filter]
  refine Nat.le_of_not_lt fun htwo ↦ ?_
  have hnodup := (nodup_pixels 0 w.toNat 0 h.toNat).filter fun p ↦
    decide (mosaicCell width height ox oy p = some i)
  rcases hfilter : (pixels 0 w.toNat 0 h.toNat).filter
      (fun p ↦ decide (mosaicCell width height ox oy p = some i)) with - | ⟨p, - | ⟨q, rest⟩⟩
  · rw [hfilter] at htwo
    exact absurd htwo (by decide)
  · rw [hfilter] at htwo
    exact absurd htwo (by decide : ¬ 1 < 1)
  · rw [hfilter] at hnodup
    have hp := List.mem_filter.1 (hfilter ▸ List.mem_cons_self : p ∈ List.filter _ _)
    have hq := List.mem_filter.1
      (hfilter ▸ List.mem_cons_of_mem _ List.mem_cons_self : q ∈ List.filter _ _)
    refine (List.nodup_cons.1 hnodup).1 ?_
    rw [mosaicCell_inj (lt_of_mem_pixels hp.1) (lt_of_mem_pixels hq.1)
      (of_decide_eq_true hp.2) (of_decide_eq_true hq.2)]
    exact List.mem_cons_self

/-- **A frame that is there is accumulated.** -/
theorem exists_visionMosaicAdd {image : ℤ → ℤ → UInt8} (hf : f.Shows image) (m : VisionMosaic) (ox oy : ℤ) :
    ∃ s, visionMosaicAdd m f ox oy = some (some s) ∧
      Accumulated ox oy m (pixels 0 f.width.toNat 0 f.height.toNat) s := by
  have hstep : ∀ p ∈ pixels 0 f.width.toNat 0 f.height.toNat, ∀ s : VisionMosaic × List Sample,
      ∃ s', addPixel f ox oy s p = some s' := by
    intro p hp s
    obtain ⟨⟨-, hx⟩, -, hy⟩ := mem_pixels.1 hp
    rw [addPixel]
    rcases mosaicCell s.1.width s.1.height ox oy p with - | i
    · exact ⟨s, rfl⟩
    · dsimp only
      split_ifs
      · rw [hf.read p.2 hy p.1 hx]
        exact ⟨_, rfl⟩
      · exact ⟨s, rfl⟩
  obtain ⟨s, hs⟩ := exists_exec hstep (m, [])
  refine ⟨s, ?_, accumulated_of_exec hs⟩
  rw [visionMosaicAdd, if_neg (not_not.2 hf.valid), hs]
  rfl

end Camstream
