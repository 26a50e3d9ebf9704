import Camstream.Vision.LeastError
import Camstream.Vision.Registration

/-!
# A still scene

Two equal frames match where they are. They may match elsewhere too, and the scan begins at the top left corner
of its window: what it returns for a uniform or a periodic image is the first displacement that matches.

`estimatesZero_iff` says for which images the search stays at `(0, 0)`. A worker that sees such an image again
and again stays where it is (`keepsOrigin_iff`), and a worker that sees another one moves with every frame.
-/

namespace Camstream

open Argmin Displacement Run

/-- The search on two frames that are the same one finds no displacement and no error, wherever the frame is
in memory. -/
def EstimatesZero (width height : UInt32) (image : ℤ → ℤ → UInt8) (maxDx maxDy : ℤ) : Prop :=
  ∀ f : GrayFrame, f.width = width → f.height = height → f.Shows image →
    visionEstimateOffset f f maxDx maxDy = some (some (0, 0, 0))

/-- No admissible displacement before `(0, 0)` has the error `0`. -/
def NoEarlierMatch (w h : ℕ) (image : ℤ → ℤ → UInt8) (maxDx maxDy : ℤ) : Prop :=
  ∀ d ∈ candidates w h maxDx maxDy, scanPlace d < scanPlace (0, 0) →
    mismatch absDiff image image w h d % 2 ^ 64 ≠ 0

/-- The search stays inside of the frames, and does not match the image elsewhere before it comes to
`(0, 0)`. -/
def StaysPut (width height : UInt32) (image : ℤ → ℤ → UInt8) (maxDx maxDy : ℤ) : Prop :=
  (WindowFits width height maxDx maxDy ∧ maxDx ≠ 2 ^ 31 - 1 ∧ maxDy ≠ 2 ^ 31 - 1) ∧
    NoEarlierMatch width.toNat height.toNat image maxDx maxDy

/-! ### The search -/

variable {image : ℤ → ℤ → UInt8} {maxDx maxDy : ℤ}

/-- **The search on one frame twice**: it matches, at the first displacement with the error `0`. -/
theorem exists_visionEstimateOffset_self {f : GrayFrame} (hf : f.Shows image) (hdx : 0 ≤ maxDx)
    (hdy : 0 ≤ maxDy) (hfits : WindowFits f.width f.height maxDx maxDy) (hmaxDx : maxDx ≠ 2 ^ 31 - 1)
    (hmaxDy : maxDy ≠ 2 ^ 31 - 1) :
    ∃ d ∈ searchWindow maxDx maxDy, visionEstimateOffset f f maxDx maxDy = some (some (0, d)) ∧
      (d = (0, 0) ↔ NoEarlierMatch f.width.toNat f.height.toNat image maxDx maxDy) := by
  have hzero : mismatch absDiff image image f.width.toNat f.height.toNat (0, 0) % 2 ^ 64 = 0 := by
    rw [mismatch_self fun a ↦ (absDiff_eq_zero_iff a a).2 rfl]
    rfl
  have hmem : (0, 0) ∈ candidates f.width.toNat f.height.toNat maxDx maxDy :=
    zero_mem_candidates hf.valid.1 hf.valid.2.1 hdx hdy
  rcases visionEstimateOffset_cases hf hf rfl rfl hfits.1 ⟨hdx, hfits.2.1⟩ ⟨hdy, hfits.2.2⟩ hmaxDx hmaxDy with
    ⟨-, hall⟩ | ⟨best, hbest, hleast, hbound, -⟩
  · exact absurd ((hall (0, 0) hmem).trans_eq hzero) (by decide)
  · have herror := Nat.le_zero.1 ((hleast.le (0, 0) hmem).trans_eq hzero)
    have hbest0 : best = (0, best.2) := Prod.ext (UInt64.toNat_inj.1 (hbound.trans herror)) rfl
    refine ⟨best.2, (mem_candidates.1 hleast.mem).1, hbest.trans (by rw [← hbest0]), ?_, ?_⟩
    · intro hput d hd hplace hmatch
      exact Nat.not_lt_zero _ (Nat.lt_of_lt_of_eq (hleast.lt_of_place d hd (hput ▸ hplace)) hmatch)
    · intro hnone
      by_contra hne
      rcases lt_or_gt_of_ne (scanPlace_injective.ne hne) with hlt | hlt
      · exact hnone best.2 hleast.mem hlt herror
      · exact Nat.not_lt_zero _ (Nat.lt_of_lt_of_eq (hleast.lt_of_place (0, 0) hmem hlt) hzero)

/-- The search finds no displacement of an image against itself if and only if the image stays put. -/
theorem estimatesZero_iff {width height : UInt32} (hwidth : 0 < width) (hheight : 0 < height)
    (image : ℤ → ℤ → UInt8) (hdx : 0 ≤ maxDx ∧ maxDx < 2 ^ 31) (hdy : 0 ≤ maxDy ∧ maxDy < 2 ^ 31) :
    EstimatesZero width height image maxDx maxDy ↔ StaysPut width height image maxDx maxDy := by
  have hshows := shows_imageFrame hwidth hheight image
  constructor
  · intro hall
    have hresult := hall _ rfl rfl hshows
    have hfits : WindowFits width height maxDx maxDy := by
      by_contra hfits
      rw [visionEstimateOffset_imageFrame_eq_none hwidth hheight hdx hdy hfits] at hresult
      exact absurd hresult.symm (Option.some_ne_none _)
    have hcounters : ¬ (maxDx = 2 ^ 31 - 1 ∨ maxDy = 2 ^ 31 - 1) := fun hmax ↦ by
      rw [visionEstimateOffset_eq_none hshows.valid hshows.valid rfl rfl hdx.1 hdy.1 hmax] at hresult
      exact absurd hresult.symm (Option.some_ne_none _)
    obtain ⟨hmaxDx, hmaxDy⟩ := not_or.1 hcounters
    obtain ⟨d, -, hd, hput⟩ := exists_visionEstimateOffset_self hshows hdx.1 hdy.1 hfits hmaxDx hmaxDy
    obtain ⟨-, hzero⟩ := Prod.mk.inj (Option.some.inj (Option.some.inj (hd.symm.trans hresult)))
    exact ⟨⟨hfits, hmaxDx, hmaxDy⟩, hput.1 hzero⟩
  · rintro ⟨⟨hfits, hmaxDx, hmaxDy⟩, hnone⟩ f rfl rfl hf
    obtain ⟨d, -, hd, hput⟩ := exists_visionEstimateOffset_self hf hdx.1 hdy.1 hfits hmaxDx hmaxDy
    rw [hd, hput.2 hnone]

/-! ### The worker -/

/-- A worker for an image: the last frame that it has taken, if any, showed it. -/
structure VisionWorker.Watches (w : VisionWorker) (image : ℤ → ℤ → UInt8) : Prop where
  width_pos : 0 < w.width
  height_pos : 0 < w.height
  originX_eq : asInt w.originX = w.originX
  originY_eq : asInt w.originY = w.originY
  previous_eq : w.havePrevious = true → w.gray w.previousData = imageFrame w.width w.height image

/-- However often the thread takes the same frame, the origin stays where it is. -/
def KeepsOrigin (w : VisionWorker) (shot : Shot) : Prop :=
  ∀ n, ∃ s, visionThread w (List.replicate n shot) = some s ∧
    (s.1.originX, s.1.originY) = (w.originX, w.originY)

/-- A fresh worker has taken no frame yet. -/
theorem VisionWorker.Fresh.watches {w : VisionWorker} (h : w.Fresh) (image : ℤ → ℤ → UInt8) :
    w.Watches image := by
  obtain ⟨hx, hy⟩ := Prod.mk.inj h.asInt_origin
  refine ⟨h.width_pos, h.height_pos, hx, hy, fun hprevious ↦ ?_⟩
  rw [h.havePrevious] at hprevious
  exact absurd hprevious Bool.false_ne_true

variable {w : VisionWorker} {scene : ℤ → ℤ → UInt8} {shot : Shot} {s : VisionWorker × List (ℕ × ℤ × ℤ)}

/-- **What the same frame once more does**: it moves the origin by what the search finds in it. -/
theorem exists_step_of_watches {d : ℤ × ℤ} (hw : s.1.Watches (view scene shot.position))
    (hshows : shot.Shows scene s.1.width s.1.height)
    (he : s.1.havePrevious = true →
      visionEstimateOffset (imageFrame s.1.width s.1.height (view scene shot.position))
        (imageFrame s.1.width s.1.height (view scene shot.position)) 32 32 = some (some (0, d))) :
    ∃ s', visionThreadShot s shot = some s' ∧ s'.1.Watches (view scene shot.position) ∧
      s'.1.havePrevious = true ∧ (s'.1.width = s.1.width ∧ s'.1.height = s.1.height) ∧
      (s'.1.originX, s'.1.originY) = s.1.nextOrigin d := by
  obtain ⟨stores, hcopy, hrun⟩ := hshows
  obtain ⟨t, ht, htook⟩ := visionThreadStep_of_shows (d := d) hw.width_pos hw.height_pos hcopy hrun
    fun hprevious ↦ ⟨0, by rw [hw.previous_eq hprevious, he hprevious]⟩
  refine ⟨(t.1, s.2 ++ t.2.map fun sample ↦ (sample.cell, shot.point sample.pixel)), ?_, ?_,
    htook.havePrevious, ⟨htook.width_eq, htook.height_eq⟩, htook.origin_eq⟩
  · rw [visionThreadShot, ht]
    rfl
  · have hx : t.1.originX = (s.1.nextOrigin d).1 := congrArg Prod.fst htook.origin_eq
    have hy : t.1.originY = (s.1.nextOrigin d).2 := congrArg Prod.snd htook.origin_eq
    refine ⟨htook.width_eq ▸ hw.width_pos, htook.height_eq ▸ hw.height_pos, ?_, ?_, fun _ ↦ ?_⟩
    · rw [hx, VisionWorker.nextOrigin]
      split_ifs
      · exact asInt_asInt _
      · exact hw.originX_eq
    · rw [hy, VisionWorker.nextOrigin]
      split_ifs
      · exact asInt_asInt _
      · exact hw.originY_eq
    · rw [htook.previous_eq, htook.width_eq, htook.height_eq]

/-- A search without a result leaves the thread without a next state. -/
theorem step_eq_none_of_watches (hw : s.1.Watches (view scene shot.position))
    (hshows : shot.Shows scene s.1.width s.1.height) (hprevious : s.1.havePrevious = true)
    (he : visionEstimateOffset (imageFrame s.1.width s.1.height (view scene shot.position))
      (imageFrame s.1.width s.1.height (view scene shot.position)) 32 32 = none) :
    visionThreadShot s shot = none := by
  obtain ⟨stores, hcopy, hrun⟩ := hshows
  have hcurrent : s.1.gray (Memory.run shot.data stores s.1.currentData) =
      imageFrame s.1.width s.1.height (view scene shot.position) :=
    gray_eq_imageFrame fun y hy x hx ↦ hrun s.1.currentData y hy x hx
  have hplace : ({ s.1 with currentData := Memory.run shot.data stores s.1.currentData } :
      VisionWorker).place = none := by
    rw [VisionWorker.place, if_pos hprevious]
    show (visionEstimateOffset (s.1.gray s.1.previousData)
      (s.1.gray (Memory.run shot.data stores s.1.currentData)) 32 32).bind _ = none
    rw [hcurrent, hw.previous_eq hprevious, he]
    rfl
  rw [visionThreadShot, visionThreadStep, hcopy]
  dsimp only
  rw [hplace]
  rfl

/-- The run on one frame more. -/
theorem visionThread_replicate_succ {n : ℕ} {s' : VisionWorker × List (ℕ × ℤ × ℤ)}
    (hs : visionThread w (List.replicate n shot) = some s) (hstep : visionThreadShot s shot = some s') :
    visionThread w (List.replicate (n + 1) shot) = some s' := by
  rw [List.replicate_succ']
  exact exec_snoc hs hstep

/-- A shot that the search does not move leaves the origin where it is. -/
theorem keepsOrigin_of_zero (hw : w.Watches (view scene shot.position))
    (hshows : shot.Shows scene w.width w.height)
    (he : visionEstimateOffset (imageFrame w.width w.height (view scene shot.position))
      (imageFrame w.width w.height (view scene shot.position)) 32 32 = some (some (0, 0, 0))) :
    KeepsOrigin w shot := by
  have hrun : ∀ n, ∃ s, visionThread w (List.replicate n shot) = some s ∧
      s.1.Watches (view scene shot.position) ∧ (s.1.width = w.width ∧ s.1.height = w.height) ∧
        (s.1.originX, s.1.originY) = (w.originX, w.originY) := by
    intro n
    induction n with
    | zero => exact ⟨(w, []), rfl, hw, ⟨rfl, rfl⟩, rfl⟩
    | succ n ih =>
      obtain ⟨s, hs, hwatches, ⟨hwidth, hheight⟩, horigin⟩ := ih
      obtain ⟨s', hstep, hwatches', -, ⟨hwidth', hheight'⟩, horigin'⟩ := exists_step_of_watches hwatches
        (hwidth ▸ hheight ▸ hshows) fun _ ↦ by rw [hwidth, hheight, he]
      refine ⟨s', visionThread_replicate_succ hs hstep, hwatches',
        ⟨hwidth'.trans hwidth, hheight'.trans hheight⟩, horigin'.trans ?_⟩
      rw [VisionWorker.nextOrigin, Int.add_zero, Int.add_zero, hwatches.originX_eq, hwatches.originY_eq,
        ite_self, horigin]
  intro n
  obtain ⟨s, hs, -, -, horigin⟩ := hrun n
  exact ⟨s, hs, horigin⟩

/-- A number that is too small to wrap around changes the sum. -/
theorem eq_zero_of_asInt_add {o d : ℤ} (hd : -32 ≤ d ∧ d ≤ 32) (h : asInt (o + d) = o) : d = 0 := by
  have hmod := asInt_emod (o + d)
  rw [h] at hmod
  omega

/-- **When the origin stays where it is**, of a worker that sees the same frame again and again. -/
theorem keepsOrigin_iff (hw : w.Watches (view scene shot.position))
    (hshows : shot.Shows scene w.width w.height) :
    KeepsOrigin w shot ↔ StaysPut w.width w.height (view scene shot.position) 32 32 := by
  have hframe := shows_imageFrame hw.width_pos hw.height_pos (view scene shot.position)
  constructor
  · intro hkeeps
    -- Two frames are enough: the first one becomes the previous frame, the second one is compared with it.
    obtain ⟨s₁, hs₁, horigin₁⟩ := hkeeps 1
    obtain ⟨s₂, hs₂, horigin₂⟩ := hkeeps 2
    obtain ⟨t, ht, hstep₂⟩ := exists_of_exec_snoc (show exec _ _ ([shot] ++ [shot]) = _ from hs₂)
    obtain rfl := Option.some.inj (hs₁.symm.trans ht)
    obtain ⟨t, ht, hstep₁⟩ := exists_of_exec_snoc (show exec _ _ ([] ++ [shot]) = _ from hs₁)
    obtain rfl := Option.some.inj ht
    have hfits : WindowFits w.width w.height 32 32 := by
      by_contra hfits
      have hnone := visionEstimateOffset_imageFrame_eq_none hw.width_pos hw.height_pos (by decide) (by decide)
        hfits (view scene shot.position) (view scene shot.position)
      have hfirst : w.havePrevious = true → visionThreadShot (w, []) shot = none := fun hprevious ↦
        step_eq_none_of_watches (s := (w, [])) hw hshows hprevious hnone
      have hfresh : ¬ w.havePrevious = true := fun hprevious ↦ by
        rw [hfirst hprevious] at hstep₁
        exact absurd hstep₁.symm (Option.some_ne_none s₁)
      obtain ⟨s', hs', hwatches, hprevious, ⟨hwidth, hheight⟩, -⟩ := exists_step_of_watches (s := (w, []))
        (d := (0, 0)) hw hshows fun hprevious ↦ absurd hprevious hfresh
      obtain rfl := Option.some.inj (hstep₁.symm.trans hs')
      rw [step_eq_none_of_watches hwatches (hwidth ▸ hheight ▸ hshows) hprevious
        (by rw [hwidth, hheight, hnone])] at hstep₂
      exact absurd hstep₂.symm (Option.some_ne_none s₂)
    obtain ⟨d, hmem, hd, hput⟩ := exists_visionEstimateOffset_self hframe (by decide) (by decide) hfits
      (by decide) (by decide)
    obtain ⟨s', hs', hwatches, hprevious, ⟨hwidth, hheight⟩, -⟩ := exists_step_of_watches (s := (w, []))
      hw hshows fun _ ↦ hd
    obtain rfl := Option.some.inj (hstep₁.symm.trans hs')
    obtain ⟨s', hs', -, -, -, hnext⟩ := exists_step_of_watches hwatches (hwidth ▸ hheight ▸ hshows)
      fun _ ↦ by rw [hwidth, hheight, hd]
    obtain rfl := Option.some.inj (hstep₂.symm.trans hs')
    rw [VisionWorker.nextOrigin, if_pos hprevious, horigin₂, ← horigin₁] at hnext
    obtain ⟨hx, hy⟩ := Prod.mk.inj hnext
    obtain ⟨hdx, hdy⟩ := mem_searchWindow.1 hmem
    have hzero : d = (0, 0) :=
      Prod.ext (eq_zero_of_asInt_add hdx hx.symm) (eq_zero_of_asInt_add hdy hy.symm)
    exact ⟨⟨hfits, by decide, by decide⟩, hput.1 hzero⟩
  · rintro ⟨⟨hfits, hmaxDx, hmaxDy⟩, hnone⟩
    obtain ⟨d, -, hd, hput⟩ := exists_visionEstimateOffset_self hframe (by decide) (by decide) hfits hmaxDx
      hmaxDy
    rw [hput.2 hnone] at hd
    exact keepsOrigin_of_zero hw hshows hd

/-- **A still scene does not drift** if and only if the search stays inside of the frames and does not match the
image elsewhere before it comes to `(0, 0)`: for one search in any window, and for the runs of a worker with its
window of 32 by 32. -/
theorem stillScene_iff {width height : UInt32} (hwidth : 0 < width) (hheight : 0 < height)
    (image : ℤ → ℤ → UInt8) {maxDx maxDy : ℤ} (hdx : 0 ≤ maxDx ∧ maxDx < 2 ^ 31)
    (hdy : 0 ≤ maxDy ∧ maxDy < 2 ^ 31) :
    (EstimatesZero width height image maxDx maxDy ↔ StaysPut width height image maxDx maxDy) ∧
      ∀ (w : VisionWorker) (scene : ℤ → ℤ → UInt8) (shot : Shot), w.Watches (view scene shot.position) →
        shot.Shows scene w.width w.height →
          (KeepsOrigin w shot ↔ StaysPut w.width w.height (view scene shot.position) 32 32) :=
  ⟨estimatesZero_iff hwidth hheight image hdx hdy, fun _ _ _ ↦ keepsOrigin_iff⟩

/-- A uniform image matches itself at the corner of the window. -/
theorem not_staysPut_uniform {width height : UInt32} (hwidth : 64 ≤ width.toNat) (hheight : 64 ≤ height.toNat)
    (a : UInt8) : ¬ StaysPut width height (fun _ _ ↦ a) 32 32 := by
  rintro ⟨-, hnone⟩
  have hlarge : ∀ {n : ℕ}, 64 ≤ n → LargeOverlap n (-32) := fun hn ↦ by
    rw [largeOverlap_iff]
    omega
  have hcorner : (-32, -32) ∈ candidates width.toNat height.toNat 32 32 :=
    mem_candidates.2 ⟨mem_searchWindow.2 (by decide), hlarge hwidth, hlarge hheight⟩
  refine hnone _ hcorner (Prod.Lex.toLex_lt_toLex.2 (.inl (by decide))) ?_
  rw [(mismatch_eq_zero_iff absDiff_eq_zero_iff).2 fun _ _ ↦ rfl]
  rfl

/-- The curved surface matches itself nowhere else. -/
theorem staysPut_curved : StaysPut 64 64 curved 32 32 := by
  refine ⟨⟨⟨by decide, by decide, by decide⟩, by decide, by decide⟩, fun d hd hplace hmatch ↦ ?_⟩
  have hle : mismatch absDiff curved curved 64 64 d ≤ 64 * 64 * 255 := mismatch_le absDiff_le
  refine mismatch_curved_ne_zero hd (fun hzero ↦ ?_) ((Nat.mod_eq_of_lt ?_).symm.trans hmatch)
  · rw [hzero] at hplace
    exact lt_irrefl _ hplace
  · exact Nat.lt_of_le_of_lt hle (by decide)

/-- A surface that stays where it is, and one that drifts. -/
theorem stillScene_iff_uniform :
    (EstimatesZero 64 64 curved 32 32 ∧ KeepsOrigin squareWorker (planarShot curved (0, 0))) ∧
      ¬ EstimatesZero 64 64 (fun _ _ ↦ 0) 32 32 ∧
      ¬ KeepsOrigin squareWorker (planarShot (fun _ _ ↦ 0) (0, 0)) := by
  have hiff (image : ℤ → ℤ → UInt8) := @stillScene_iff 64 64 (by decide) (by decide) image 32 32
    ⟨by decide, by decide⟩ ⟨by decide, by decide⟩
  have hfresh := (fresh_of_visionWorkerCreate visionWorkerCreate_square).2.2
  have hworker (image : ℤ → ℤ → UInt8) :
      KeepsOrigin squareWorker (planarShot image (0, 0)) ↔ StaysPut 64 64 image 32 32 := by
    have h := (hiff image).2 squareWorker image _ (hfresh.watches _) (shows_planarShot image (0, 0))
    rwa [show (planarShot image (0, 0)).position = (0, 0) from rfl, view_origin] at h
  have hmatch := @not_staysPut_uniform 64 64 (by decide) (by decide) 0
  exact ⟨⟨(hiff curved).1.2 staysPut_curved, (hworker curved).2 staysPut_curved⟩,
    fun h ↦ hmatch ((hiff fun _ _ ↦ 0).1.1 h), fun h ↦ hmatch ((hworker fun _ _ ↦ 0).1 h)⟩

/-- The search drifts on a uniform image, and so does a worker that takes frames of it. -/
theorem not_stillScene : ¬ ((∀ (width height : UInt32) (image : ℤ → ℤ → UInt8) (maxDx maxDy : ℤ), 0 < width →
      0 < height → 0 ≤ maxDx ∧ maxDx < 2 ^ 31 → 0 ≤ maxDy ∧ maxDy < 2 ^ 31 →
        EstimatesZero width height image maxDx maxDy) ∧
    ∀ (w : VisionWorker) (scene : ℤ → ℤ → UInt8) (shot : Shot), w.Watches (view scene shot.position) →
      shot.Shows scene w.width w.height → KeepsOrigin w shot) := by
  rintro ⟨hall, -⟩
  have hzero := hall 64 64 (fun _ _ ↦ 0) 32 32 (by decide) (by decide) ⟨by decide, by decide⟩
    ⟨by decide, by decide⟩
  have hput := (estimatesZero_iff (by decide) (by decide) _ ⟨by decide, by decide⟩ ⟨by decide, by decide⟩).1 hzero
  exact @not_staysPut_uniform 64 64 (by decide) (by decide) 0 hput

end Camstream
