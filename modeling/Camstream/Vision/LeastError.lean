import Camstream.Lib.Displacement
import Camstream.Vision.SearchReads

/-!
# The least error

What `vision_estimate_offset` is for: among the displacements of a window that leave enough of the frames, the
one with the least mismatch, and the first such one in the order of the scan. `candidates` and `mismatch` say it
without the arithmetic of the code.

`offsetError_eq` is the link between the two: the error of a displacement is its mismatch modulo `2 ^ 64`.
`findsLeast_iff` then says when the search is right: its counters must not reach the largest `int`, and no sum
may wrap around to where it would win.
-/

namespace Camstream

open Argmin Displacement Run

/-! ### What is searched for -/

/-- The absolute difference of two pixels. -/
def absDiff (a b : UInt8) : ℕ :=
  ((a.toNat : ℤ) - b.toNat).natAbs

/-- A displacement leaves some of a row of `n` pixels, and at least a quarter. -/
def LargeOverlap (n : ℕ) (d : ℤ) : Prop :=
  (kept n d).Nonempty ∧ n / 4 ≤ (kept n d).card

instance (n : ℕ) (d : ℤ) : Decidable (LargeOverlap n d) :=
  inferInstanceAs (Decidable (_ ∧ _))

/-- The displacements of a window that are admissible. -/
@[irreducible] def candidates (w h : ℕ) (maxDx maxDy : ℤ) : Finset (ℤ × ℤ) :=
  (searchWindow maxDx maxDy).toFinset.filter fun d ↦ LargeOverlap w d.1 ∧ LargeOverlap h d.2

/-- The order of the scan: by `dy`, and then by `dx`. -/
def scanPlace (d : ℤ × ℤ) : ℤ ×ₗ ℤ :=
  toLex (d.2, d.1)

/-- `vision_estimate_offset` returns a displacement of least mismatch, and the first one of those; in particular
the displacement of the contents, if no other one has mismatch `0`. -/
def FindsLeast (previous current : GrayFrame) (image image' : ℤ → ℤ → UInt8) (maxDx maxDy : ℤ) : Prop :=
  let w := previous.width.toNat
  let h := previous.height.toNat
  let error := mismatch absDiff image image' w h
  ∃ best : UInt64 × ℤ × ℤ, visionEstimateOffset previous current maxDx maxDy = some (some best) ∧
    FirstLeast (candidates w h maxDx maxDy) error scanPlace best.2 ∧ best.1.toNat = error best.2 ∧
    ∀ d ∈ candidates w h maxDx maxDy,
      (∀ p ∈ keptPixels w h d, image p.1 p.2 = image' (p.1 + d.1) (p.2 + d.2)) →
        (∀ d' ∈ candidates w h maxDx maxDy, d' ≠ d → error d' ≠ 0) → best = (0, d)

/-- The first least mismatch fits 64 bits, below the value the scan starts with, and is still the first least
one when all of them are reduced to 64 bits. -/
def SumsFit (w h : ℕ) (image image' : ℤ → ℤ → UInt8) (maxDx maxDy : ℤ) : Prop :=
  ∀ d, FirstLeast (candidates w h maxDx maxDy) (mismatch absDiff image image' w h) scanPlace d →
    mismatch absDiff image image' w h d < 2 ^ 64 - 1 ∧
      FirstLeast (candidates w h maxDx maxDy) (fun d ↦ mismatch absDiff image image' w h d % 2 ^ 64)
        scanPlace d

theorem absDiff_eq_zero_iff (a b : UInt8) : absDiff a b = 0 ↔ a = b := by
  rw [absDiff, Int.natAbs_eq_zero, ← UInt8.toNat_inj]
  omega

/-- Two bytes differ by a byte. -/
theorem absDiff_le (a b : UInt8) : absDiff a b ≤ 255 := by
  have ha := a.toNat_lt
  have hb := b.toNat_lt
  rw [absDiff]
  omega

/-- By the length of the displacement. -/
theorem largeOverlap_iff {n : ℕ} {d : ℤ} :
    LargeOverlap n d ↔ d.natAbs < n ∧ n / 4 ≤ n - d.natAbs := by
  rw [LargeOverlap, ← Finset.card_pos, card_kept, Nat.sub_pos_iff_lt]

/-- The displacements that the search compares. -/
theorem mem_candidates {w h : ℕ} {maxDx maxDy : ℤ} {d : ℤ × ℤ} :
    d ∈ candidates w h maxDx maxDy ↔
      d ∈ searchWindow maxDx maxDy ∧ LargeOverlap w d.1 ∧ LargeOverlap h d.2 := by
  rw [candidates, Finset.mem_filter, List.mem_toFinset]

/-- No two displacements are tried at the same time. -/
theorem scanPlace_injective : Function.Injective scanPlace := by
  intro d d' h
  obtain ⟨hy, hx⟩ := Prod.mk.inj (toLex.injective h)
  exact Prod.ext hx hy

/-- No displacement at all is admissible. -/
theorem zero_mem_candidates {w h : ℕ} {maxDx maxDy : ℤ} (hw : 0 < w) (hh : 0 < h) (hdx : 0 ≤ maxDx)
    (hdy : 0 ≤ maxDy) : (0, 0) ∈ candidates w h maxDx maxDy := by
  have hlarge : ∀ {n : ℕ}, 0 < n → LargeOverlap n 0 := fun hn ↦ largeOverlap_iff.2 (by omega)
  exact mem_candidates.2 ⟨mem_searchWindow.2 (by dsimp only; omega), hlarge hw, hlarge hh⟩

/-- The sums of a frame of fewer than `2 ^ 56` pixels fit. -/
theorem sumsFit_of_lt {w h : ℕ} {maxDx maxDy : ℤ} (hsize : w * h < 2 ^ 56) (image image' : ℤ → ℤ → UInt8) :
    SumsFit w h image image' maxDx maxDy := by
  have hlt : ∀ d, mismatch absDiff image image' w h d < 2 ^ 64 - 1 := fun d ↦
    Nat.lt_of_le_of_lt (mismatch_le absDiff_le) (by omega)
  have hmod : ∀ d, mismatch absDiff image image' w h d % 2 ^ 64 = mismatch absDiff image image' w h d :=
    fun d ↦ Nat.mod_eq_of_lt (Nat.lt_of_lt_of_le (hlt d) (Nat.sub_le _ 1))
  intro d hd
  refine ⟨hlt d, ?_⟩
  rwa [funext hmod]

/-! ### The order of the scan -/

theorem pairwise_searchRange (max : ℤ) : (searchRange max).Pairwise (· < ·) := by
  rw [searchRange, List.pairwise_map]
  exact List.pairwise_lt_range.imp fun h ↦ by omega

/-- The window is tried in the order of `scanPlace`. -/
theorem pairwise_searchWindow (maxDx maxDy : ℤ) :
    (searchWindow maxDx maxDy).Pairwise fun d d' ↦ scanPlace d < scanPlace d' := by
  rw [searchWindow, List.pairwise_flatMap]
  constructor
  · intro dy hdy
    rw [List.pairwise_map]
    refine (pairwise_searchRange maxDx).imp fun h ↦ ?_
    exact Prod.Lex.toLex_lt_toLex.2 (.inr ⟨rfl, h⟩)
  · refine (pairwise_searchRange maxDy).imp fun h d hd d' hd' ↦ ?_
    obtain ⟨dx, -, rfl⟩ := List.mem_map.1 hd
    obtain ⟨dx', -, rfl⟩ := List.mem_map.1 hd'
    exact Prod.Lex.toLex_lt_toLex.2 (.inl h)

/-! ### The error of a displacement -/

/-- What the code checks of an overlap is that it is large. -/
theorem admissible_iff_largeOverlap {size : UInt32} {d : ℤ} (hd : d.natAbs ≤ size.toNat) :
    Admissible size d ↔ LargeOverlap size.toNat d := by
  have hlt := size.toNat_lt
  rw [admissible_iff, largeOverlap_iff, toNat_overlapStart (by omega), toNat_overlapEnd (by omega)]
  omega

/-- Adding up differences. -/
theorem exec_addDifference {previous current : GrayFrame} {d : ℤ × ℤ} {ps : List (ℕ × ℕ)} {n : ℕ × ℕ → ℕ}
    (hnodup : ps.Nodup)
    (h : ∀ p ∈ ps, absoluteDifference previous current d.1 d.2 p = some (UInt64.ofNat (n p))) (error : ℕ) :
    exec (addDifference previous current d) (UInt64.ofNat error) ps =
      some (UInt64.ofNat (error + ∑ p ∈ ps.toFinset, n p)) := by
  induction ps generalizing error with
  | nil => rfl
  | cons p ps ih =>
    obtain ⟨hp, hnodup⟩ := List.nodup_cons.1 hnodup
    rw [exec_cons, addDifference, h p List.mem_cons_self, Option.map_some, Option.bind_some,
      ← UInt64.ofNat_add, ih hnodup (fun q hq ↦ h q (List.mem_cons_of_mem _ hq)), List.toFinset_cons,
      Finset.sum_insert (mt List.mem_toFinset.1 hp), Nat.add_assoc]

variable {previous current : GrayFrame} {image image' : ℤ → ℤ → UInt8}

/-- The pixels of the loops are those that both frames have. -/
theorem toFinset_overlap {d : ℤ × ℤ} (hdx : d.1.natAbs ≤ previous.width.toNat)
    (hdy : d.2.natAbs ≤ previous.height.toNat) :
    (overlap previous d).toFinset = keptPixels previous.width.toNat previous.height.toNat d := by
  ext p
  rw [List.mem_toFinset, overlap, mem_pixels, mem_overlap hdx, mem_overlap hdy, mem_keptPixels, mem_kept,
    mem_kept]

section Shows

variable (hp : previous.Shows image) (hc : current.Shows image')
  (hwidth : previous.width = current.width) (hheight : previous.height = current.height)
  (hsmall : previous.width.toNat ≤ 2 ^ 31)

include hp hc hwidth hheight hsmall

/-- **The error of a displacement is its mismatch**, modulo `2 ^ 64`. -/
theorem offsetError_eq {d : ℤ × ℤ} (hdx : d.1.natAbs ≤ previous.width.toNat)
    (hdy : d.2.natAbs ≤ previous.height.toNat) :
    offsetError previous current d = some
      (if LargeOverlap previous.width.toNat d.1 ∧ LargeOverlap previous.height.toNat d.2 then
        some (UInt64.ofNat
          (mismatch absDiff image image' previous.width.toNat previous.height.toNat d))
      else none) := by
  have hadmissible := and_congr (admissible_iff_largeOverlap hdx) (admissible_iff_largeOverlap hdy)
  rcases offsetError_cases previous current d with ⟨hnot, hskip⟩ | ⟨hlarge, hsum⟩
  · rw [hskip, if_neg (hadmissible.not.1 hnot)]
  · rw [hsum, if_pos (hadmissible.1 hlarge)]
    have hdifference : ∀ p ∈ overlap previous d, absoluteDifference previous current d.1 d.2 p =
        some (UInt64.ofNat (absDiff (image p.1 p.2) (image' (p.1 + d.1) (p.2 + d.2)))) :=
      fun p hmem ↦ absoluteDifference_of_mem hp hc hwidth hheight hsmall hdx hdy hmem
    have hnodup : (overlap previous d).Nodup := nodup_pixels _ _ _ _
    have hrun := exec_addDifference hnodup hdifference 0
    rw [Nat.zero_add, toFinset_overlap hdx hdy] at hrun
    exact congrArg (Option.map some) hrun

/-- **What the search returns**: nothing, if no error is below its start, or the first least candidate. -/
theorem visionEstimateOffset_cases {maxDx maxDy : ℤ} (hdx : 0 ≤ maxDx ∧ maxDx ≤ previous.width.toNat)
    (hdy : 0 ≤ maxDy ∧ maxDy ≤ previous.height.toNat) (hmaxDx : maxDx ≠ 2 ^ 31 - 1)
    (hmaxDy : maxDy ≠ 2 ^ 31 - 1) :
    let w := previous.width.toNat
    let h := previous.height.toNat
    let error := fun d ↦ mismatch absDiff image image' w h d % 2 ^ 64
    (visionEstimateOffset previous current maxDx maxDy = some none ∧
        ∀ d ∈ candidates w h maxDx maxDy, 2 ^ 64 - 1 ≤ error d) ∨
      ∃ best : UInt64 × ℤ × ℤ, visionEstimateOffset previous current maxDx maxDy = some (some best) ∧
        FirstLeast (candidates w h maxDx maxDy) error scanPlace best.2 ∧ best.1.toNat = error best.2 ∧
        error best.2 < 2 ^ 64 - 1 := by
  intro w h error
  have herror : ∀ d ∈ searchWindow maxDx maxDy, offsetError previous current d = some
      (if LargeOverlap w d.1 ∧ LargeOverlap h d.2 then
        some (UInt64.ofNat (mismatch absDiff image image' w h d)) else none) := by
    intro d hd
    obtain ⟨hx, hy⟩ := mem_searchWindow.1 hd
    exact offsetError_eq hp hc hwidth hheight hsmall (by omega) (by omega)
  obtain ⟨best, hbest⟩ := exists_scan (0xFFFFFFFFFFFFFFFF, 0, 0) fun d hd ↦ ⟨_, herror d hd⟩
  have hresult : visionEstimateOffset previous current maxDx maxDy =
      some (if best.1 = 0xFFFFFFFFFFFFFFFF then none else some best) := by
    rw [visionEstimateOffset_of_valid hp.valid hc.valid hwidth hheight hdx.1 hdy.1,
      if_neg (not_or.2 ⟨hmaxDx, hmaxDy⟩), hbest, Option.map_some]
  -- In the window, the candidates have a cost and the others are passed over.
  have hcost : ∀ d ∈ candidates w h maxDx maxDy, offsetError previous current d =
      some (some (UInt64.ofNat (mismatch absDiff image image' w h d))) := fun d hd ↦ by
    rw [herror d (mem_candidates.1 hd).1, if_pos (mem_candidates.1 hd).2]
  have hskip : ∀ d ∈ searchWindow maxDx maxDy, d ∉ candidates w h maxDx maxDy →
      offsetError previous current d = some none := fun d hd hnot ↦ by
    rw [herror d hd, if_neg fun hlarge ↦ hnot (mem_candidates.2 ⟨hd, hlarge⟩)]
  have hfound := firstLeast_of_found (found_of_scan hbest) (pairwise_searchWindow maxDx maxDy)
    (fun d hd ↦ (mem_candidates.1 hd).1) hcost hskip
  have htoNat : ∀ d, (UInt64.ofNat (mismatch absDiff image image' w h d)).toNat = error d := fun d ↦ rfl
  rcases hfound with ⟨rfl, hall⟩ | ⟨hleast, hcost, hlt⟩
  · refine .inl ⟨hresult.trans (by rw [if_pos rfl]), fun d hd ↦ ?_⟩
    exact htoNat d ▸ UInt64.le_iff_toNat_le.1 (hall d hd)
  · have hlt : best.1.toNat < 2 ^ 64 - 1 := UInt64.lt_iff_toNat_lt.1 hlt
    have hbound : best.1.toNat = error best.2 := by rw [← hcost, htoNat]
    refine .inr ⟨best, hresult.trans ?_, ⟨hleast.mem, fun d hd ↦ ?_, fun d hd hplace ↦ ?_⟩, hbound,
      hbound ▸ hlt⟩
    · rw [if_neg]
      intro hmax
      rw [hmax] at hlt
      exact absurd hlt (Nat.lt_irrefl _)
    · exact UInt64.le_iff_toNat_le.1 (hleast.le d hd)
    · exact UInt64.lt_iff_toNat_lt.1 (hleast.lt_of_place d hd hplace)

/-- **When the search is right**: its counters stop before the largest `int`, and the sums fit. -/
theorem findsLeast_iff_of_le {maxDx maxDy : ℤ} (hdx : 0 ≤ maxDx ∧ maxDx ≤ previous.width.toNat)
    (hdy : 0 ≤ maxDy ∧ maxDy ≤ previous.height.toNat) :
    FindsLeast previous current image image' maxDx maxDy ↔
      (maxDx ≠ 2 ^ 31 - 1 ∧ maxDy ≠ 2 ^ 31 - 1) ∧
        SumsFit previous.width.toNat previous.height.toNat image image' maxDx maxDy := by
  have hcases := visionEstimateOffset_cases hp hc hwidth hheight hsmall hdx hdy
  constructor
  · rintro ⟨best, hbest, hleast, herror, -⟩
    have hcounters : ¬ (maxDx = 2 ^ 31 - 1 ∨ maxDy = 2 ^ 31 - 1) := fun hmax ↦ by
      rw [visionEstimateOffset_eq_none hp.valid hc.valid hwidth hheight hdx.1 hdy.1 hmax] at hbest
      exact absurd hbest.symm (Option.some_ne_none _)
    refine ⟨not_or.1 hcounters, fun d hd ↦ ?_⟩
    obtain rfl := hd.unique scanPlace_injective hleast
    rcases hcases (not_or.1 hcounters).1 (not_or.1 hcounters).2 with ⟨hnone, -⟩ | ⟨found, hfound, h⟩
    · exact absurd (Option.some.inj (hbest.symm.trans hnone)) (Option.some_ne_none best)
    · obtain rfl := Option.some.inj (Option.some.inj (hbest.symm.trans hfound))
      obtain ⟨hwrapped, hbound, hlt⟩ := h
      exact ⟨by rwa [← herror, hbound], hwrapped⟩
  · rintro ⟨⟨hmaxDx, hmaxDy⟩, hfit⟩
    have hzero : (0, 0) ∈ candidates previous.width.toNat previous.height.toNat maxDx maxDy :=
      zero_mem_candidates hp.valid.1 hp.valid.2.1 hdx.1 hdy.1
    obtain ⟨d, hd⟩ := exists_firstLeast ⟨_, hzero⟩
      (mismatch absDiff image image' previous.width.toNat previous.height.toNat) scanPlace
    obtain ⟨hlt, hwrapped⟩ := hfit d hd
    have hmod := Nat.mod_eq_of_lt (Nat.lt_of_lt_of_le hlt (Nat.sub_le (2 ^ 64) 1))
    rcases hcases hmaxDx hmaxDy with ⟨-, hall⟩ | ⟨best, hbest, hfound, hbound, -⟩
    · have hle := hall d hd.mem
      dsimp only at hle
      rw [hmod] at hle
      exact absurd hle (Nat.not_le.2 hlt)
    · obtain rfl := hwrapped.unique scanPlace_injective hfound
      replace hbound := hbound.trans hmod
      refine ⟨best, hbest, hd, hbound, fun d' hd' hmatch hother ↦ ?_⟩
      have hleast := (mismatch_eq_zero_iff absDiff_eq_zero_iff).2 hmatch
      -- Where nothing differs the sum is zero, so that it is found even if others come before.
      have hbest0 := Nat.le_zero.1 (hleast ▸ hd.le d' hd')
      have heq : best.2 = d' := by
        by_contra hne
        exact hother _ hd.mem hne hbest0
      exact Prod.ext (UInt64.toNat_inj.1 (hbound.trans hbest0)) heq

end Shows

/-- **The search finds the least error** in frames of equal size with sides below `2 ^ 31`, if and only if its
counters stop before the largest `int` and the sums fit. -/
theorem findsLeast_iff {previous current : GrayFrame} {image image' : ℤ → ℤ → UInt8} {maxDx maxDy : ℤ}
    (hp : previous.Shows image) (hc : current.Shows image') (hwidth : previous.width = current.width)
    (hheight : previous.height = current.height)
    (hsmall : previous.width.toNat < 2 ^ 31 ∧ previous.height.toNat < 2 ^ 31)
    (hdx : 0 ≤ maxDx ∧ maxDx ≤ previous.width.toNat)
    (hdy : 0 ≤ maxDy ∧ maxDy ≤ previous.height.toNat) :
    FindsLeast previous current image image' maxDx maxDy ↔
      (maxDx ≠ 2 ^ 31 - 1 ∧ maxDy ≠ 2 ^ 31 - 1) ∧
        SumsFit previous.width.toNat previous.height.toNat image image' maxDx maxDy :=
  findsLeast_iff_of_le hp hc hwidth hheight (Nat.le_of_lt hsmall.1) hdx hdy

/-- A frame of one bright pixel. -/
def spot (x0 y0 x y : ℤ) : UInt8 :=
  if x = x0 ∧ y = y0 then 255 else 0

theorem findsLeast_iff_spot : FindsLeast (imageFrame 32 24 (spot 8 7)) (imageFrame 32 24 (spot 11 9))
    (spot 8 7) (spot 11 9) 6 6 := by
  have hp := @shows_imageFrame 32 24 (by decide) (by decide) (spot 8 7)
  have hc := @shows_imageFrame 32 24 (by decide) (by decide) (spot 11 9)
  have hfit : SumsFit 32 24 (spot 8 7) (spot 11 9) 6 6 := sumsFit_of_lt (by decide) _ _
  exact (findsLeast_iff hp hc rfl rfl ⟨by decide, by decide⟩ ⟨by decide, by decide⟩
    ⟨by decide, by decide⟩).2 ⟨by decide, hfit⟩

/-- A window as wide as a frame of `2 ^ 31 - 1` columns takes the counter past the largest `int`. -/
theorem not_findsLeast : ¬ ∀ (previous current : GrayFrame) (image image' : ℤ → ℤ → UInt8)
    (maxDx maxDy : ℤ), previous.Shows image → current.Shows image' → previous.width = current.width →
    previous.height = current.height → previous.width.toNat < 2 ^ 31 ∧ previous.height.toNat < 2 ^ 31 →
    0 ≤ maxDx ∧ maxDx ≤ previous.width.toNat → 0 ≤ maxDy ∧ maxDy ≤ previous.height.toNat →
    FindsLeast previous current image image' maxDx maxDy := by
  intro hall
  have hshows := @shows_imageFrame 0x7fffffff 1 (by decide) (by decide) (spot 0 0)
  obtain ⟨best, hbest, -⟩ := hall _ _ _ _ (2 ^ 31 - 1) 0 hshows hshows rfl rfl
    ⟨by decide, by decide⟩ ⟨by decide, by decide⟩ ⟨by decide, by decide⟩
  rw [visionEstimateOffset_eq_none hshows.valid hshows.valid rfl rfl (by decide) (by decide)
    (.inl rfl)] at hbest
  exact absurd hbest.symm (Option.some_ne_none _)

end Camstream
