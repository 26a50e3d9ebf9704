import Camstream.Lib.Tally
import Camstream.Vision.FrameMatrix

/-!
# The averages in the mosaic

What a mosaic holds after any frames were added at any places: for every cell the samples that map onto it,
counted and summed up. A pixel maps onto the cell at its coordinates, as integers (`cellAt`). The code computes
with `int`, and `asInt` of a side of the canvas is negative from `2 ^ 31` on: `averagesExactly_iff` says that
this is the one thing that can go wrong.
-/

namespace Camstream

open Memory Run Tally

/-! ### What is expected -/

/-- A frame at a place: the pixels are in the allocation, and on coordinates that an `int` holds. -/
structure PlacedFrame where
  frame : GrayFrame
  ox : ℤ
  oy : ℤ
  valid : validFrame frame
  inMemory : (frame.height.toNat - 1) * frame.stride.toNat + frame.width.toNat ≤ frame.data.length
  inRangeX : -2 ^ 31 ≤ ox ∧ ox + frame.width.toNat ≤ 2 ^ 31
  inRangeY : -2 ^ 31 ≤ oy ∧ oy + frame.height.toNat ≤ 2 ^ 31

/-- The cell of a canvas at a point. -/
def cellAt (width height : UInt32) (x y : ℤ) : Option ℕ :=
  if 0 ≤ x ∧ x < width.toNat ∧ 0 ≤ y ∧ y < height.toNat then some (y.toNat * width.toNat + x.toNat) else none

/-- The sample a pixel is for the cell it maps onto. -/
def PlacedFrame.contribution (pf : PlacedFrame) (width height : UInt32) (p : ℕ × ℕ) : Option (ℕ × UInt8) :=
  (cellAt width height (pf.ox + p.1) (pf.oy + p.2)).bind fun i ↦ (pf.frame.read p.2 p.1).map fun v ↦ (i, v)

/-- The samples of a frame. -/
def PlacedFrame.contributions (pf : PlacedFrame) (width height : UInt32) : List (ℕ × UInt8) :=
  (pixels 0 pf.frame.width.toNat 0 pf.frame.height.toNat).filterMap (pf.contribution width height)

/-- The samples of all frames that map onto a cell. -/
def samplesAt (width height : UInt32) (frames : List PlacedFrame) (i : ℕ) : List UInt8 :=
  tally (frames.flatMap fun pf ↦ pf.contributions width height) i

/-- Every cell holds the average of its samples. -/
structure Averages (m : VisionMosaic) (samples : ℕ → List UInt8) : Prop where
  count : ∀ i, (m.count i).toNat = (samples i).length
  sum : ∀ i, (m.sum i).toNat = ((samples i).map UInt8.toNat).sum
  uncovered : ∀ i, samples i = [] → mosaicValue m i = 0
  value : ∀ i, (mosaicValue m i).toNat = ((samples i).map UInt8.toNat).sum / (samples i).length
  between : ∀ i lo hi, samples i ≠ [] → (∀ v ∈ samples i, lo ≤ v ∧ v ≤ hi) →
    lo ≤ mosaicValue m i ∧ mosaicValue m i ≤ hi

/-- Frames added one after another. -/
def addFrames (m : VisionMosaic) (frames : List PlacedFrame) : Option VisionMosaic :=
  exec (fun m pf ↦ (visionMosaicAdd m pf.frame pf.ox pf.oy).bind fun added ↦ added.map Prod.fst) m frames

/-- The frames give one mosaic, whatever their order, and it holds the averages. -/
def AveragesExactly (m : VisionMosaic) (frames : List PlacedFrame) : Prop :=
  ∃ m', (∀ order : List PlacedFrame, order.Perm frames → addFrames m order = some m') ∧
    m'.width = m.width ∧ m'.height = m.height ∧ Averages m' (samplesAt m.width m.height frames)

/-! ### What a cell holds -/

/-- The mosaic holds these samples. -/
structure Holds (width height : UInt32) (m : VisionMosaic) (cs : List (ℕ × UInt8)) : Prop where
  width_eq : m.width = width
  height_eq : m.height = height
  count : ∀ i, (m.count i).toNat = (tally cs i).length
  sum : ∀ i, (m.sum i).toNat = ((tally cs i).map UInt8.toNat).sum

variable {width height : UInt32} {m m' : VisionMosaic} {cs cs' : List (ℕ × UInt8)} {pf : PlacedFrame}

/-- Sums of fewer than `2 ^ 32` bytes do not overflow. -/
theorem sum_lt_of_length_lt {vs : List UInt8} (h : vs.length < 2 ^ 32) :
    (vs.map UInt8.toNat).sum < 2 ^ 40 := by
  have hle : (vs.map UInt8.toNat).sum ≤ (vs.map UInt8.toNat).length * 255 := sum_le_length_mul fun n hn ↦ by
    obtain ⟨v, -, rfl⟩ := List.mem_map.1 hn
    exact Nat.le_of_lt_succ v.toNat_lt
  rw [List.length_map] at hle
  omega

/-- **One sample more.** -/
theorem Holds.accumulate (h : Holds width height m cs) {i : ℕ} (hroom : (tally cs i).length + 1 < 2 ^ 32)
    (v : UInt8) : Holds width height (m.accumulate i v) (cs ++ [(i, v)]) := by
  have hsum : ((tally cs i).map UInt8.toNat).sum < 2 ^ 40 := sum_lt_of_length_lt (by omega)
  refine ⟨h.width_eq, h.height_eq, fun j ↦ ?_, fun j ↦ ?_⟩
  · show (Function.update m.count i (m.count i + 1) j).toNat = _
    rw [tally_append]
    rcases eq_or_ne j i with rfl | hne
    · rw [Function.update_self, tally_singleton_self, List.length_append, UInt32.toNat_add, h.count]
      exact Nat.mod_eq_of_lt hroom
    · rw [Function.update_of_ne hne, tally_singleton_of_ne hne.symm, List.append_nil, h.count]
  · show (Function.update m.sum i (m.sum i + v.toUInt64) j).toNat = _
    rw [tally_append]
    rcases eq_or_ne j i with rfl | hne
    · rw [Function.update_self, tally_singleton_self, List.map_append, List.sum_append, UInt64.toNat_add,
        h.sum, UInt8.toNat_toUInt64]
      have hv := v.toNat_lt
      exact Nat.mod_eq_of_lt (by omega)
    · rw [Function.update_of_ne hne, tally_singleton_of_ne hne.symm, List.append_nil, h.sum]

/-- Samples in another order make the same mosaic. -/
theorem Holds.eq_of_perm (h : Holds width height m cs) (h' : Holds width height m' cs') (hcs : cs.Perm cs') :
    m = m' := by
  have hcount : m.count = m'.count := funext fun i ↦ UInt32.toNat.inj <| by
    rw [h.count, h'.count, (tally_perm hcs i).length_eq]
  have hsum : m.sum = m'.sum := funext fun i ↦ UInt64.toNat.inj <| by
    rw [h.sum, h'.sum, ((tally_perm hcs i).map UInt8.toNat).sum_eq]
  have hwidth := h.width_eq.trans h'.width_eq.symm
  have hheight := h.height_eq.trans h'.height_eq.symm
  cases m
  cases m'
  subst hcount hsum hwidth hheight
  rfl

/-- **What is exported** of the samples that a cell holds. -/
theorem Holds.averages (h : Holds width height m cs) : Averages m (tally cs) := by
  have hlength (i : ℕ) : (tally cs i).length < 2 ^ 32 := h.count i ▸ (m.count i).toNat_lt
  have hempty (i : ℕ) : m.count i = 0 ↔ tally cs i = [] := by
    rw [← UInt32.toNat_inj, h.count]
    exact List.length_eq_zero_iff
  have hbyte (i : ℕ) : ∀ n ∈ (tally cs i).map UInt8.toNat, n ≤ 255 := by
    intro n hn
    obtain ⟨v, -, rfl⟩ := List.mem_map.1 hn
    exact Nat.le_of_lt_succ v.toNat_lt
  have hvalue (i : ℕ) : (mosaicValue m i).toNat =
      ((tally cs i).map UInt8.toNat).sum / (tally cs i).length := by
    rw [mosaicValue]
    split_ifs with hzero
    · rw [(hempty i).1 hzero]
      rfl
    · have hmean := mean_le (hbyte i)
      rw [List.length_map] at hmean
      rw [UInt64.toNat_toUInt8, UInt64.toNat_div, UInt32.toNat_toUInt64, h.sum, h.count]
      exact Nat.mod_eq_of_lt (Nat.lt_of_le_of_lt hmean (by decide))
  refine ⟨h.count, h.sum, fun i hi ↦ ?_, hvalue, fun i lo hi hne hbounds ↦ ?_⟩
  · rw [mosaicValue, if_pos ((hempty i).2 hi)]
  · have hne' : (tally cs i).map UInt8.toNat ≠ [] := List.map_eq_nil_iff.not.2 hne
    rw [UInt8.le_iff_toNat_le, UInt8.le_iff_toNat_le, hvalue, ← List.length_map UInt8.toNat]
    constructor
    · refine le_mean hne' fun n hn ↦ ?_
      obtain ⟨v, hv, rfl⟩ := List.mem_map.1 hn
      exact UInt8.le_iff_toNat_le.1 (hbounds v hv).1
    · refine mean_le fun n hn ↦ ?_
      obtain ⟨v, hv, rfl⟩ := List.mem_map.1 hn
      exact UInt8.le_iff_toNat_le.1 (hbounds v hv).2

/-- A fresh mosaic has no samples. -/
theorem holds_create (hcreate : visionMosaicCreate width height = some m) (h : ∀ i, tally cs i = []) :
    Holds width height m cs := by
  rw [visionMosaicCreate] at hcreate
  split_ifs at hcreate
  obtain rfl := Option.some.inj hcreate
  exact ⟨rfl, rfl, fun i ↦ by rw [h]; rfl, fun i ↦ by rw [h]; rfl⟩

/-! ### Where a pixel goes -/

/-- The sum of an `int` and a converted coordinate, when an `int` holds it. -/
theorem asInt_add_asInt {o x : ℤ} (hlo : -2 ^ 31 ≤ o + x) (hhi : o + x < 2 ^ 31) :
    asInt (o + asInt x) = o + x := by
  have h := asInt_eq hlo hhi
  rw [asInt] at h ⊢
  rw [asInt, Int.add_bmod_bmod]
  exact h

/-- The coordinates of a pixel. -/
theorem PlacedFrame.inRange (pf : PlacedFrame) {p : ℕ × ℕ}
    (hp : p ∈ pixels 0 pf.frame.width.toNat 0 pf.frame.height.toNat) :
    asInt (pf.ox + asInt p.1) = pf.ox + p.1 ∧ asInt (pf.oy + asInt p.2) = pf.oy + p.2 := by
  obtain ⟨⟨-, hx⟩, -, hy⟩ := mem_pixels.1 hp
  have hox := pf.inRangeX
  have hoy := pf.inRangeY
  exact ⟨asInt_add_asInt (by omega) (by omega), asInt_add_asInt (by omega) (by omega)⟩

/-- **On a canvas with sides that an `int` holds** a pixel goes to the cell at its coordinates. -/
theorem mosaicCell_eq_cellAt (hwidth : width.toNat < 2 ^ 31) (hheight : height.toNat < 2 ^ 31) {p : ℕ × ℕ}
    (hp : p ∈ pixels 0 pf.frame.width.toNat 0 pf.frame.height.toNat) :
    mosaicCell width height pf.ox pf.oy p = cellAt width height (pf.ox + p.1) (pf.oy + p.2) := by
  obtain ⟨hx, hy⟩ := pf.inRange hp
  rw [mosaicCell, cellAt, hx, hy, asInt_eq (z := width.toNat) (by omega) (by omega),
    asInt_eq (z := height.toNat) (by omega) (by omega)]
  split_ifs <;> first | rfl | omega

/-- **On a larger canvas** all pixels are clipped. -/
theorem mosaicCell_eq_none (hlarge : ¬ (width.toNat < 2 ^ 31 ∧ height.toNat < 2 ^ 31)) (ox oy : ℤ)
    (p : ℕ × ℕ) : mosaicCell width height ox oy p = none := by
  have hnegative {n : UInt32} (hn : 2 ^ 31 ≤ n.toNat) : asInt n.toNat < 0 := by
    have hlt := n.toNat_lt
    rw [asInt, Int.bmod_def]
    split_ifs <;> omega
  rw [mosaicCell]
  refine if_pos ?_
  rcases not_and_or.1 hlarge with h | h
  · have := hnegative (Nat.not_lt.1 h)
    omega
  · have := hnegative (Nat.not_lt.1 h)
    omega

/-- Every pixel of a placed frame can be read. -/
theorem PlacedFrame.exists_read (pf : PlacedFrame) {p : ℕ × ℕ}
    (hp : p ∈ pixels 0 pf.frame.width.toNat 0 pf.frame.height.toNat) :
    ∃ v, pf.frame.read p.2 p.1 = some v := by
  obtain ⟨⟨-, hx⟩, -, hy⟩ := mem_pixels.1 hp
  have hrow : p.2 * pf.frame.stride.toNat ≤ (pf.frame.height.toNat - 1) * pf.frame.stride.toNat :=
    Nat.mul_le_mul_right _ (by omega)
  have hmemory := pf.inMemory
  rw [GrayFrame.read_natCast]
  exact ⟨_, List.getElem?_eq_getElem (by omega)⟩

/-! ### Adding frames -/

/-- The pixels of a frame, one after another, as long as no cell is full. -/
theorem Holds.exists_exec_addPixel (hwidth : width.toNat < 2 ^ 31) (hheight : height.toNat < 2 ^ 31)
    (h : Holds width height m cs) {ps : List (ℕ × ℕ)}
    (hps : ∀ p ∈ ps, p ∈ pixels 0 pf.frame.width.toNat 0 pf.frame.height.toNat)
    (hroom : ∀ i, (tally (cs ++ ps.filterMap (pf.contribution width height)) i).length < 2 ^ 32 - 1)
    (log : List Sample) : ∃ s, exec (addPixel pf.frame pf.ox pf.oy) (m, log) ps = some s ∧
      Holds width height s.1 (cs ++ ps.filterMap (pf.contribution width height)) := by
  induction ps generalizing m cs log with
  | nil =>
    rw [List.filterMap_nil, List.append_nil]
    exact ⟨_, rfl, h⟩
  | cons p ps ih =>
    rw [List.forall_mem_cons] at hps
    have hcell := mosaicCell_eq_cellAt hwidth hheight hps.1
    rcases hat : cellAt width height (pf.ox + p.1) (pf.oy + p.2) with - | i
    · -- The pixel is clipped.
      have hnone : pf.contribution width height p = none := by
        rw [PlacedFrame.contribution, hat, Option.bind_none]
      rw [List.filterMap_cons_none hnone] at hroom ⊢
      obtain ⟨s, hs, hholds⟩ := ih h hps.2 hroom log
      refine ⟨s, exec_cons_of_step ?_ hs, hholds⟩
      rw [addPixel, h.width_eq, h.height_eq, hcell, hat]
    · obtain ⟨v, hv⟩ := pf.exists_read hps.1
      have hsome : pf.contribution width height p = some (i, v) := by
        rw [PlacedFrame.contribution, hat, hv]
        rfl
      rw [List.filterMap_cons_some hsome, List.append_cons] at hroom ⊢
      have hlength : (tally cs i).length + 1 < 2 ^ 32 - 1 := by
        refine Nat.lt_of_le_of_lt ?_ (hroom i)
        rw [tally_append, tally_append, tally_singleton_self, List.length_append, List.length_append]
        exact Nat.le_add_right _ _
      obtain ⟨s, hs, hholds⟩ := ih (h.accumulate (by omega) v) hps.2 hroom (log ++ [⟨i, p⟩])
      refine ⟨s, exec_cons_of_step ?_ hs, hholds⟩
      have hfree : m.count i ≠ 0xFFFFFFFF := by
        intro hfull
        have hcount := h.count i
        rw [hfull] at hcount
        have hfull' : UInt32.toNat 0xFFFFFFFF = 2 ^ 32 - 1 := by decide
        omega
      rw [addPixel, h.width_eq, h.height_eq, hcell, hat]
      dsimp only
      rw [if_pos hfree, hv, Option.map_some]

/-- **What any frames leave in the mosaic**: every sample in its cell. -/
theorem Holds.exists_addFrames (hwidth : width.toNat < 2 ^ 31) (hheight : height.toNat < 2 ^ 31)
    (h : Holds width height m cs) {frames : List PlacedFrame}
    (hroom : ∀ i, (tally (cs ++ frames.flatMap fun pf ↦ pf.contributions width height) i).length <
      2 ^ 32 - 1) :
    ∃ m', addFrames m frames = some m' ∧
      Holds width height m' (cs ++ frames.flatMap fun pf ↦ pf.contributions width height) := by
  induction frames generalizing m cs with
  | nil =>
    rw [List.flatMap_nil, List.append_nil]
    exact ⟨m, rfl, h⟩
  | cons pf frames ih =>
    rw [List.flatMap_cons, ← List.append_assoc] at hroom ⊢
    have hfirst : ∀ i, (tally (cs ++ pf.contributions width height) i).length < 2 ^ 32 - 1 := by
      intro i
      refine Nat.lt_of_le_of_lt ?_ (hroom i)
      rw [tally_append _ (frames.flatMap _), List.length_append]
      exact Nat.le_add_right _ _
    obtain ⟨s, hs, hholds⟩ := h.exists_exec_addPixel hwidth hheight (fun p hp ↦ hp) hfirst []
    obtain ⟨m', hm', hholds'⟩ := ih hholds hroom
    refine ⟨m', exec_cons_of_step ?_ hm', hholds'⟩
    rw [visionMosaicAdd, if_neg (not_not.2 pf.valid), hs]
    rfl

/-- On a canvas that is too large nothing is added. -/
theorem addFrames_of_large (hlarge : ¬ (m.width.toNat < 2 ^ 31 ∧ m.height.toNat < 2 ^ 31))
    (frames : List PlacedFrame) : addFrames m frames = some m := by
  induction frames with
  | nil => rfl
  | cons pf frames ih =>
    refine exec_cons_of_step ?_ ih
    have hpixels : ∀ ps, exec (addPixel pf.frame pf.ox pf.oy) (m, []) ps = some (m, []) := by
      intro ps
      induction ps with
      | nil => rfl
      | cons p ps ih =>
        refine exec_cons_of_step ?_ ih
        rw [addPixel, mosaicCell_eq_none hlarge]
    rw [visionMosaicAdd, if_neg (not_not.2 pf.valid), hpixels]
    rfl

/-- **When the averages in the mosaic are exact and do not depend on the order.** On every canvas whose sides
are at most `INT_MAX`; on a larger one, when no pixel maps onto it. -/
theorem averagesExactly_iff (hcreate : visionMosaicCreate width height = some m) (frames : List PlacedFrame)
    (hroom : ∀ i, (samplesAt width height frames i).length < 2 ^ 32 - 1) :
    AveragesExactly m frames ↔ width.toNat < 2 ^ 31 ∧ height.toNat < 2 ^ 31 ∨
      ∀ i, samplesAt width height frames i = [] := by
  have hempty : Holds width height m [] := holds_create hcreate fun _ ↦ rfl
  have hwidth := hempty.width_eq
  have hheight := hempty.height_eq
  by_cases hsmall : width.toNat < 2 ^ 31 ∧ height.toNat < 2 ^ 31
  · refine iff_of_true ?_ (.inl hsmall)
    obtain ⟨m', hm', hholds⟩ := hempty.exists_addFrames hsmall.1 hsmall.2 hroom
    refine ⟨m', fun order horder ↦ ?_, hholds.width_eq.trans hwidth.symm,
      hholds.height_eq.trans hheight.symm, ?_⟩
    · have hperm := horder.flatMap_right fun pf ↦ pf.contributions width height
      have hroom' : ∀ i, (tally ([] ++ order.flatMap fun pf ↦ pf.contributions width height) i).length <
          2 ^ 32 - 1 := by
        intro i
        rw [List.nil_append, (tally_perm hperm i).length_eq]
        exact hroom i
      obtain ⟨m'', hm'', hholds'⟩ := hempty.exists_addFrames hsmall.1 hsmall.2 hroom'
      rw [hm'', hholds'.eq_of_perm hholds hperm]
    · rw [hwidth, hheight]
      exact hholds.averages
  · rw [or_iff_right hsmall]
    rw [← hwidth, ← hheight] at hsmall
    constructor
    · rintro ⟨m', hm', -, -, haverages⟩ i
      -- Frames too large for an `int` are refused, so the mosaic stays as it was.
      have hkept : m = m' :=
        Option.some.inj ((addFrames_of_large hsmall frames).symm.trans (hm' frames (List.Perm.refl _)))
      have hcount := haverages.count i
      rw [← hkept, hempty.count, hwidth, hheight] at hcount
      exact List.length_eq_zero_iff.1 hcount.symm
    · intro hnone
      refine ⟨m, fun order _ ↦ addFrames_of_large hsmall order, rfl, rfl, ?_⟩
      rw [hwidth, hheight]
      exact (holds_create hcreate hnone).averages

/-- Two pixels in two rows of a longer allocation, one column to the left of the canvas. -/
def sampleLeft : PlacedFrame where
  frame := ⟨2, 2, 3, [9, 10, 0, 9, 20, 0]⟩
  ox := -1
  oy := 0
  valid := by decide
  inMemory := by decide
  inRangeX := by decide
  inRangeY := by decide

/-- One pixel in the corner of the canvas. -/
def sampleCorner : PlacedFrame where
  frame := ⟨1, 1, 1, [7]⟩
  ox := 0
  oy := 0
  valid := by decide
  inMemory := by decide
  inRangeX := by decide
  inRangeY := by decide

theorem averagesExactly_iff_sample : ∃ m, visionMosaicCreate 2 2 = some m ∧
    AveragesExactly m [sampleLeft, sampleCorner] ∧
    samplesAt 2 2 [sampleLeft, sampleCorner] 0 = [10, 7] ∧
    samplesAt 2 2 [sampleLeft, sampleCorner] 1 = [] := by
  have hcreate : visionMosaicCreate 2 2 = some ⟨2, 2, fun _ ↦ 0, fun _ ↦ 0⟩ := rfl
  refine ⟨_, hcreate, (averagesExactly_iff hcreate _ fun i ↦ ?_).2 (.inl ⟨by decide, by decide⟩),
    by decide, by decide⟩
  exact Nat.lt_of_le_of_lt (List.length_filterMap_le _ _) (by decide)

/-- **A canvas on which nothing is added.** -/
theorem not_averagesExactly_large : ∃ m, visionMosaicCreate 2147483648 1 = some m ∧
    (∀ i, (samplesAt 2147483648 1 [sampleCorner] i).length < 2 ^ 32 - 1) ∧
    samplesAt 2147483648 1 [sampleCorner] 0 = [7] ∧ ¬ AveragesExactly m [sampleCorner] := by
  have hsample : samplesAt 2147483648 1 [sampleCorner] 0 = [7] := by decide
  refine ⟨_, rfl, fun i ↦ ?_, hsample, ?_⟩
  · exact Nat.lt_of_le_of_lt (List.length_filterMap_le _ _) (by decide)
  · rintro ⟨m', hm', -, -, haverages⟩
    have hkept := (addFrames_of_large (by decide) [sampleCorner]).symm.trans (hm' _ (List.Perm.refl _))
    have hcount := haverages.count 0
    rw [← Option.some.inj hkept, hsample] at hcount
    exact absurd hcount (by decide)

end Camstream
