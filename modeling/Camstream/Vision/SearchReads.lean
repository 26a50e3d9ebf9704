import Camstream.Vision.FrameMatrix

/-!
# What the search reads

The pixels that `vision_estimate_offset` loads from the two frames. A window that is no larger than the frames
keeps it inside of them; one column or row more, and the end of the overlap wraps around to almost `2 ^ 32`.
`exists_read_outside` finds the pixel that is outside, for every window that is too large.

`visionEstimateOffset_congr` says that nothing else is read: frames that agree on these pixels have the same
result.
-/

namespace Camstream

open Argmin Memory Run

/-- The pixels `(x, y)` of the previous and of the current frame that are read for a displacement. -/
def offsetReads (width height : UInt32) (d : ℤ × ℤ) : List ((ℤ × ℤ) × (ℤ × ℤ)) :=
  let x0 := overlapStart d.1
  let x1 := overlapEnd width d.1
  let y0 := overlapStart d.2
  let y1 := overlapEnd height d.2
  if x1 ≤ x0 ∨ y1 ≤ y0 ∨ x1 - x0 < width / 4 ∨ y1 - y0 < height / 4 then []
  else (pixels x0.toNat x1.toNat y0.toNat y1.toNat).map fun p ↦
    ((↑p.1, ↑p.2), (asInt (asInt p.1 + d.1), ↑(UInt32.ofNat p.2 + UInt32.ofInt d.2).toNat))

/-- A pixel of a frame. -/
def Inside (width height : UInt32) (q : ℤ × ℤ) : Prop :=
  (0 ≤ q.1 ∧ q.1 < width.toNat) ∧ 0 ≤ q.2 ∧ q.2 < height.toNat

/-- The search comes to an end, and all that it reads are pixels of the frames. -/
def ReadsInside (previous current : GrayFrame) (maxDx maxDy : ℤ) : Prop :=
  (∃ result, visionEstimateOffset previous current maxDx maxDy = some result) ∧
    ∀ d ∈ searchWindow maxDx maxDy, ∀ q ∈ offsetReads previous.width previous.height d,
      Inside previous.width previous.height q.1 ∧ Inside current.width current.height q.2

/-- The window fits the frames, and their columns fit an `int`. -/
def WindowFits (width height : UInt32) (maxDx maxDy : ℤ) : Prop :=
  width.toNat ≤ 2 ^ 31 ∧ maxDx ≤ width.toNat ∧ maxDy ≤ height.toNat

/-- The two pixels that are compared at one place of the overlap. -/
theorem mem_offsetReads {f : GrayFrame} {d : ℤ × ℤ} {q : (ℤ × ℤ) × (ℤ × ℤ)} :
    q ∈ offsetReads f.width f.height d ↔
      (Admissible f.width d.1 ∧ Admissible f.height d.2) ∧ ∃ p ∈ overlap f d,
        q = ((↑p.1, ↑p.2), (asInt (asInt p.1 + d.1), ↑(UInt32.ofNat p.2 + UInt32.ofInt d.2).toNat)) := by
  rw [offsetReads]
  split_ifs with hskip
  · exact iff_of_false List.not_mem_nil fun h ↦ skips_iff.1 hskip h.1
  · have hadmissible := not_not.1 (mt skips_iff.2 hskip)
    rw [List.mem_map]
    constructor
    · rintro ⟨p, hp, rfl⟩
      exact ⟨hadmissible, p, hp, rfl⟩
    · rintro ⟨-, p, hp, rfl⟩
      exact ⟨p, hp, rfl⟩

variable {previous current : GrayFrame} {image image' : ℤ → ℤ → UInt8} {maxDx maxDy : ℤ}

/-! ### Nothing else is read -/

/-- Two pairs of frames have the same bytes at the pixels that are read. -/
def AgreeOn (previous current : GrayFrame) (data data' : List UInt8) (qs : List ((ℤ × ℤ) × (ℤ × ℤ))) : Prop :=
  ∀ q ∈ qs, previous.read q.1.2.toNat q.1.1 = { previous with data := data }.read q.1.2.toNat q.1.1 ∧
    current.read q.2.2.toNat q.2.1 = { current with data := data' }.read q.2.2.toNat q.2.1

/-- The error depends on nothing but the pixels that are read. -/
theorem offsetError_congr {data data' : List UInt8} {d : ℤ × ℤ}
    (h : AgreeOn previous current data data' (offsetReads previous.width previous.height d)) :
    offsetError previous current d =
      offsetError { previous with data := data } { current with data := data' } d := by
  rcases offsetError_cases previous current d with ⟨hnot, hskip⟩ | ⟨hadmissible, hsum⟩
  · rcases offsetError_cases { previous with data := data } { current with data := data' } d with
      ⟨-, hskip'⟩ | ⟨hadmissible, -⟩
    · rw [hskip, hskip']
    · exact absurd hadmissible hnot
  · rcases offsetError_cases { previous with data := data } { current with data := data' } d with
      ⟨hnot, -⟩ | ⟨-, hsum'⟩
    · exact absurd hadmissible hnot
    · rw [hsum, hsum']
      refine congrArg (Option.map some) (exec_congr (fun p hp error ↦ ?_) 0)
      obtain ⟨hprevious, hcurrent⟩ := h _ (mem_offsetReads.2 ⟨hadmissible, p, hp, rfl⟩)
      have hprevious : previous.read p.2 p.1 = { previous with data := data }.read p.2 p.1 := hprevious
      have hcurrent : current.read (UInt32.ofNat p.2 + UInt32.ofInt d.2).toNat (asInt (asInt p.1 + d.1)) =
          { current with data := data' }.read (UInt32.ofNat p.2 + UInt32.ofInt d.2).toNat
            (asInt (asInt p.1 + d.1)) := hcurrent
      rw [addDifference, addDifference, absoluteDifference, absoluteDifference, hprevious, hcurrent]

/-- **The result is made of the pixels that are read.** -/
theorem visionEstimateOffset_congr {data data' : List UInt8}
    (h : ∀ d ∈ searchWindow maxDx maxDy,
      AgreeOn previous current data data' (offsetReads previous.width previous.height d)) :
    visionEstimateOffset previous current maxDx maxDy =
      visionEstimateOffset { previous with data := data } { current with data := data' } maxDx maxDy := by
  have hscan : exec (scanStep (offsetError previous current)) (0xFFFFFFFFFFFFFFFF, 0, 0)
      (searchWindow maxDx maxDy) =
        exec (scanStep (offsetError { previous with data := data } { current with data := data' }))
          (0xFFFFFFFFFFFFFFFF, 0, 0) (searchWindow maxDx maxDy) :=
    exec_congr (fun d hd best ↦ by rw [scanStep, scanStep, offsetError_congr (h d hd)]) _
  rw [visionEstimateOffset, visionEstimateOffset, hscan]
  rfl

/-! ### A window that fits -/

section Fits

variable (hp : previous.Shows image) (hc : current.Shows image')
  (hwidth : previous.width = current.width) (hheight : previous.height = current.height)
  (hfits : WindowFits previous.width previous.height maxDx maxDy)

include hp hc hwidth hheight hfits

/-- The search ends unless its bound is the greatest `int`. -/
theorem exists_visionEstimateOffset (hdx : 0 ≤ maxDx) (hdy : 0 ≤ maxDy) (hmaxDx : maxDx ≠ 2 ^ 31 - 1)
    (hmaxDy : maxDy ≠ 2 ^ 31 - 1) :
    ∃ result, visionEstimateOffset previous current maxDx maxDy = some result := by
  obtain ⟨hsmall, hx, hy⟩ := hfits
  have hcosts : ∀ d ∈ searchWindow maxDx maxDy, ∃ e, offsetError previous current d = some e := by
    intro d hd
    obtain ⟨hdx, hdy⟩ := mem_searchWindow.1 hd
    exact exists_offsetError hp hc hwidth hheight hsmall (by omega) (by omega)
  obtain ⟨best, hbest⟩ := exists_scan (0xFFFFFFFFFFFFFFFF, 0, 0) hcosts
  rw [visionEstimateOffset_of_valid hp.valid hc.valid hwidth hheight hdx hdy,
    if_neg (not_or.2 ⟨hmaxDx, hmaxDy⟩), hbest]
  exact ⟨_, rfl⟩

omit hp hc in
/-- Reads inside the window are inside both frames. -/
theorem inside_of_mem_offsetReads {d : ℤ × ℤ} (hd : d ∈ searchWindow maxDx maxDy) {q : (ℤ × ℤ) × (ℤ × ℤ)}
    (hq : q ∈ offsetReads previous.width previous.height d) :
    Inside previous.width previous.height q.1 ∧ Inside current.width current.height q.2 := by
  obtain ⟨hsmall, hx, hy⟩ := hfits
  obtain ⟨hdx, hdy⟩ := mem_searchWindow.1 hd
  obtain ⟨-, p, hmem, rfl⟩ := mem_offsetReads.1 hq
  obtain ⟨hmemx, hmemy⟩ := mem_pixels.1 hmem
  obtain ⟨hpx, hbx⟩ := (mem_overlap (by omega)).1 hmemx
  obtain ⟨hpy, hby⟩ := (mem_overlap (by omega)).1 hmemy
  refine ⟨⟨⟨Int.natCast_nonneg _, Int.ofNat_lt.2 hpx⟩, Int.natCast_nonneg _, Int.ofNat_lt.2 hpy⟩, ?_, ?_⟩
  · rw [← hwidth, asInt_add_eq hsmall hpx hbx]
    exact hbx
  · rw [← hheight, toNat_add_ofInt hpy hby, Int.toNat_of_nonneg hby.1]
    exact hby

end Fits

/-! ### A window that does not fit -/

/-- One step too far, and the end of the overlap wraps around. -/
theorem toNat_overlapEnd_succ {size : UInt32} (h : size.toNat + 1 < 2 ^ 31) :
    (overlapEnd size (size.toNat + 1)).toNat = 2 ^ 32 - 1 := by
  have hd : (UInt32.ofInt (size.toNat + 1)).toNat = size.toNat + 1 := by
    rw [toNat_ofInt (by omega) (by omega)]
    omega
  rw [overlapEnd, if_pos (by omega), UInt32.toNat_sub, hd]
  omega

theorem toNat_overlapStart_of_nonneg {d : ℤ} (h : 0 ≤ d) : (overlapStart d).toNat = 0 := by
  rw [toNat_overlapStart (by omega)]
  omega

theorem admissible_succ {size : UInt32} (h : size.toNat + 1 < 2 ^ 31) :
    Admissible size (size.toNat + 1) := by
  rw [admissible_iff, toNat_overlapStart_of_nonneg (by omega), toNat_overlapEnd_succ h]
  omega

theorem admissible_zero {size : UInt32} (h : 0 < size) : Admissible size 0 := by
  have h : 0 < size.toNat := h
  rw [admissible_iff, toNat_overlapStart (by decide), toNat_overlapEnd (by omega)]
  omega

/-- **Where the search leaves the frames**: behind the last column of the last row, below the last row, or in
front of the first column, where a column from `2 ^ 31` on is negative as an `int`. -/
theorem exists_read_outside {f : GrayFrame} (hf : validFrame f) (hdx : 0 ≤ maxDx ∧ maxDx < 2 ^ 31)
    (hdy : 0 ≤ maxDy ∧ maxDy < 2 ^ 31) (hfits : ¬ WindowFits f.width f.height maxDx maxDy) :
    ∃ d ∈ searchWindow maxDx maxDy, (Admissible f.width d.1 ∧ Admissible f.height d.2) ∧
      ∃ p ∈ overlap f d, (f.width.toNat ≤ p.1 ∧ p.2 = f.height.toNat - 1) ∨ f.height.toNat ≤ p.2 ∨
        asInt (asInt p.1 + d.1) < 0 ∧ UInt32.ofNat p.2 + UInt32.ofInt d.2 = 0 := by
  obtain ⟨hwidth, hheight, -⟩ := hf
  have hpos : 0 < f.width.toNat := hwidth
  have hpos' : 0 < f.height.toNat := hheight
  have hlt := f.width.toNat_lt
  -- A width that is no `int`, a column too far, or a row too far.
  rcases Nat.lt_or_ge (2 ^ 31) f.width.toNat with hlarge | hsmall
  · refine ⟨(0, 0), mem_searchWindow.2 (by dsimp only; omega), ⟨admissible_zero hwidth, admissible_zero hheight⟩,
      (2 ^ 31, 0), ?_, .inr (.inr ⟨?_, rfl⟩)⟩
    · rw [overlap, mem_pixels, mem_overlap (by omega), mem_overlap (by omega)]
      omega
    · have hcast : asInt (2 ^ 31 : ℕ) = -2 ^ 31 := by
        rw [asInt]
        rfl
      show asInt (asInt (2 ^ 31 : ℕ) + 0) < 0
      rw [hcast, asInt_eq (by decide) (by decide)]
      decide
  · rcases Int.lt_or_le f.width.toNat maxDx with hdx' | hdx'
    · refine ⟨(f.width.toNat + 1, 0), mem_searchWindow.2 (by dsimp only; omega),
        ⟨admissible_succ (by omega), admissible_zero hheight⟩, (2 ^ 32 - 2, f.height.toNat - 1), ?_,
        .inl ⟨by dsimp only; omega, rfl⟩⟩
      rw [overlap, mem_pixels, toNat_overlapStart_of_nonneg (by omega), toNat_overlapEnd_succ (by omega),
        mem_overlap (by omega)]
      omega
    · have hdy' : (f.height.toNat : ℤ) < maxDy := Int.lt_of_not_ge fun hle ↦ hfits ⟨hsmall, hdx', hle⟩
      refine ⟨(0, f.height.toNat + 1), mem_searchWindow.2 (by dsimp only; omega),
        ⟨admissible_zero hwidth, admissible_succ (by omega)⟩, (0, 2 ^ 32 - 2), ?_,
        .inr (.inl (by dsimp only; omega))⟩
      rw [overlap, mem_pixels, mem_overlap (by omega), toNat_overlapStart_of_nonneg (by omega),
        toNat_overlapEnd_succ (by omega)]
      omega

/-- On frames without padding the search then leaves the memory of the frames, too. -/
theorem visionEstimateOffset_imageFrame_eq_none {width height : UInt32} (hwidth : 0 < width)
    (hheight : 0 < height) (hdx : 0 ≤ maxDx ∧ maxDx < 2 ^ 31) (hdy : 0 ≤ maxDy ∧ maxDy < 2 ^ 31)
    (hfits : ¬ WindowFits width height maxDx maxDy) (image image' : ℤ → ℤ → UInt8) :
    visionEstimateOffset (imageFrame width height image) (imageFrame width height image') maxDx maxDy =
      none := by
  have hp := (shows_imageFrame hwidth hheight image).valid
  have hc := (shows_imageFrame hwidth hheight image').valid
  have hpos : 0 < height.toNat := hheight
  obtain ⟨d, hd, hadmissible, p, hmem, houtside⟩ := exists_read_outside hp hdx hdy hfits
  have hread : absoluteDifference (imageFrame width height image) (imageFrame width height image') d.1 d.2 p =
      none := by
    -- Behind the last row, past the end, or in front of the first column of row 0.
    rcases houtside with ⟨hcolumn, hrow⟩ | hrow | ⟨hcolumn, hrow⟩
    · rw [absoluteDifference, read_imageFrame_of_le]
      have hcolumn : width.toNat ≤ p.1 := hcolumn
      have hrow : p.2 = height.toNat - 1 := hrow
      obtain ⟨n, hn⟩ := Nat.exists_eq_succ_of_ne_zero (Nat.ne_of_gt hpos)
      rw [hrow, hn, Nat.succ_eq_add_one, Nat.add_sub_cancel, Nat.mul_add, Nat.mul_comm n, Nat.mul_one]
      omega
    · rw [absoluteDifference, read_imageFrame_of_le]
      rw [Nat.mul_comm]
      exact Nat.le_add_right_of_le (Nat.mul_le_mul_right _ hrow)
    · have hzero : (UInt32.ofNat p.2 + UInt32.ofInt d.2).toNat = 0 := congrArg UInt32.toNat hrow
      have hnone : (imageFrame width height image').read 0 (asInt (asInt p.1 + d.1)) = none := by
        rw [GrayFrame.read, Nat.zero_mul, if_pos (by omega)]
      rw [absoluteDifference, hzero, hnone]
      rcases (imageFrame width height image).read p.2 p.1 with - | a <;> rfl
  rw [visionEstimateOffset_of_valid hp hc rfl rfl hdx.1 hdy.1]
  split_ifs with hmax
  · rfl
  · rw [exec_eq_none hd, Option.map_none]
    intro best
    rw [scanStep, offsetError_eq_none hadmissible hmem hread]
    rfl

/-! ### Reads -/

/-- **The search reads only the frames**, and comes to an end, if and only if the window fits the frames, the
columns of the frames fit an `int`, and the counters stop before the largest `int`. -/
theorem readsInside_iff (hp : previous.Shows image) (hc : current.Shows image')
    (hwidth : previous.width = current.width) (hheight : previous.height = current.height)
    (hdx : 0 ≤ maxDx ∧ maxDx < 2 ^ 31) (hdy : 0 ≤ maxDy ∧ maxDy < 2 ^ 31) :
    ReadsInside previous current maxDx maxDy ↔
      WindowFits previous.width previous.height maxDx maxDy ∧ maxDx ≠ 2 ^ 31 - 1 ∧ maxDy ≠ 2 ^ 31 - 1 := by
  constructor
  · rintro ⟨⟨result, hresult⟩, hinside⟩
    have hcounters : ¬ (maxDx = 2 ^ 31 - 1 ∨ maxDy = 2 ^ 31 - 1) := fun hmax ↦ by
      rw [visionEstimateOffset_eq_none hp.valid hc.valid hwidth hheight hdx.1 hdy.1 hmax] at hresult
      exact absurd hresult.symm (Option.some_ne_none result)
    refine ⟨?_, not_or.1 hcounters⟩
    by_contra hfits
    obtain ⟨d, hd, hadmissible, p, hmem, houtside⟩ := exists_read_outside hp.valid hdx hdy hfits
    obtain ⟨⟨⟨-, hx⟩, -, hy⟩, ⟨hbx, -⟩, -⟩ := hinside d hd _ (mem_offsetReads.2 ⟨hadmissible, p, hmem, rfl⟩)
    rcases houtside with ⟨hcolumn, -⟩ | hrow | ⟨hcolumn, -⟩
    · exact absurd (Int.ofNat_lt.1 hx) (Nat.not_lt.2 hcolumn)
    · exact absurd (Int.ofNat_lt.1 hy) (Nat.not_lt.2 hrow)
    · exact absurd hbx (Int.not_le.2 hcolumn)
  · rintro ⟨hfits, hmaxDx, hmaxDy⟩
    exact ⟨exists_visionEstimateOffset hp hc hwidth hheight hfits hdx.1 hdy.1 hmaxDx hmaxDy,
      fun d hd q hq ↦ inside_of_mem_offsetReads hwidth hheight hfits hd hq⟩

/-- A window of 8 by 8 stays inside of frames of 16 by 16, and one of 32 by 32 does not. -/
theorem readsInside_iff_small :
    ReadsInside (imageFrame 16 16 fun _ _ ↦ 0) (imageFrame 16 16 fun _ _ ↦ 0) 8 8 ∧
      ¬ ReadsInside (imageFrame 16 16 fun _ _ ↦ 0) (imageFrame 16 16 fun _ _ ↦ 0) 32 32 := by
  have hshows := @shows_imageFrame 16 16 (by decide) (by decide) fun _ _ ↦ 0
  refine ⟨?_, fun hinside ↦ ?_⟩
  · exact (readsInside_iff hshows hshows rfl rfl ⟨by decide, by decide⟩ ⟨by decide, by decide⟩).2
      ⟨⟨by decide, by decide, by decide⟩, by decide, by decide⟩
  · obtain ⟨⟨-, hdx, -⟩, -⟩ := (readsInside_iff hshows hshows rfl rfl ⟨by decide, by decide⟩
      ⟨by decide, by decide⟩).1 hinside
    exact absurd hdx (by decide)

/-- The window of 32 by 32 leaves a frame of 16 by 16. -/
theorem not_readsInside : ¬ ∀ (previous current : GrayFrame) (image image' : ℤ → ℤ → UInt8)
    (maxDx maxDy : ℤ), previous.Shows image → current.Shows image' → previous.width = current.width →
    previous.height = current.height → 0 ≤ maxDx ∧ maxDx < 2 ^ 31 → 0 ≤ maxDy ∧ maxDy < 2 ^ 31 →
    ReadsInside previous current maxDx maxDy := by
  intro hall
  have hshows := @shows_imageFrame 16 16 (by decide) (by decide) fun _ _ ↦ 0
  obtain ⟨⟨result, hresult⟩, -⟩ := hall _ _ _ _ 32 32 hshows hshows rfl rfl ⟨by decide, by decide⟩
    ⟨by decide, by decide⟩
  rw [visionEstimateOffset_imageFrame_eq_none (by decide) (by decide) ⟨by decide, by decide⟩
    ⟨by decide, by decide⟩ fun hfits ↦ absurd hfits.2.1 (by decide)] at hresult
  exact absurd hresult.symm (Option.some_ne_none result)

end Camstream
