import Camstream.Vision.LeastError
import Camstream.Vision.VisionWorker
import Mathlib.Data.List.Chain
import Mathlib.Tactic.Ring

/-!
# Registration

Where the mosaic puts the points of a static scene. If the contents of the frames have moved by `d`, the
same point is at `p` in the previous frame and at `p + d` in the current one, so the current frame belongs
at the previous origin minus `d`. The thread adds `d` instead: what it accumulates into one cell are samples
of one point as long as the camera does not move, and no longer after the first move.

`Still` is the invariant before the first move. It follows every pixel of the first frame into the log, and
`not_registers_of_move` finds the same cell in the frame after the move.
-/

namespace Camstream

open Displacement Memory Run

/-! ### Scenes -/

/-- What a camera at `c` shows of a scene. -/
def view (scene : ℤ → ℤ → UInt8) (c : ℤ × ℤ) (x y : ℤ) : UInt8 :=
  scene (c.1 + x) (c.2 + y)

/-- A frame that the thread has taken, with the position of the camera. -/
structure Shot where
  position : ℤ × ℤ
  frame : Frame
  data : ℕ → UInt8

/-- The point of the scene at a pixel. -/
def Shot.point (shot : Shot) (p : ℕ × ℕ) : ℤ × ℤ :=
  (shot.position.1 + p.1, shot.position.2 + p.2)

/-- The frame shows the scene, as far as `copy_gray` has to do with it. -/
def Shot.Shows (shot : Shot) (scene : ℤ → ℤ → UInt8) (width height : UInt32) : Prop :=
  ∃ stores, copyGray shot.frame width height = some stores ∧
    ∀ m, ∀ y < height.toNat, ∀ x < width.toNat,
      run shot.data stores m (y * width.toNat + x) = view scene shot.position x y

/-- `vision_estimate_offset` returns the displacement of the contents between two frames. -/
def TrueDisplacement (scene : ℤ → ℤ → UInt8) (width height : UInt32) (previous current : Shot) : Prop :=
  ∃ error, visionEstimateOffset (imageFrame width height (view scene previous.position))
    (imageFrame width height (view scene current.position)) 32 32 =
      some (some (error, previous.position.1 - current.position.1,
        previous.position.2 - current.position.2))

/-! ### Runs of the thread -/

/-- One frame, where the log says which cell received a sample of which point of the scene. -/
def visionThreadShot (s : VisionWorker × List (ℕ × ℤ × ℤ)) (shot : Shot) :
    Option (VisionWorker × List (ℕ × ℤ × ℤ)) :=
  (visionThreadStep s.1 shot.frame shot.data).map fun (w, samples) ↦
    (w, s.2 ++ samples.map fun sample ↦ (sample.cell, shot.point sample.pixel))

/-- `vision_thread` on the frames it takes. -/
def visionThread (w : VisionWorker) (shots : List Shot) : Option (VisionWorker × List (ℕ × ℤ × ℤ)) :=
  exec visionThreadShot (w, []) shots

/-- All samples of one cell are samples of the same point. -/
def Registers (w : VisionWorker) (shots : List Shot) : Prop :=
  ∃ s, visionThread w shots = some s ∧ ∀ a ∈ s.2, ∀ b ∈ s.2, a.1 = b.1 → a.2 = b.2

/-- Nothing is taken out of the log. -/
theorem mem_log_of_exec {shots : List Shot} {s s' : VisionWorker × List (ℕ × ℤ × ℤ)} {e : ℕ × ℤ × ℤ}
    (he : e ∈ s.2) (h : exec visionThreadShot s shots = some s') : e ∈ s'.2 := by
  refine exec_invariant (P := fun s ↦ e ∈ s.2) (fun s shot s' hmem hstep ↦ ?_) he h
  obtain ⟨t, -, rfl⟩ := Option.map_eq_some_iff.1 hstep
  exact List.mem_append_left _ hmem

/-- A worker that has not seen a frame yet. -/
structure VisionWorker.Fresh (w : VisionWorker) : Prop where
  width_pos : 0 < w.width
  height_pos : 0 < w.height
  mosaicWidth_eq : w.mosaic.width = w.width * 3
  mosaicHeight_eq : w.mosaic.height = w.height * 3
  count_eq : ∀ i, w.mosaic.count i = 0
  havePrevious : w.havePrevious = false
  originX_eq : w.originX = asInt w.width.toNat
  originY_eq : w.originY = asInt w.height.toNat

/-- A worker begins in the middle of a mosaic three times its size. -/
theorem fresh_of_visionWorkerCreate {width height : UInt32} {previousData currentData : ℕ → UInt8}
    {w : VisionWorker} (h : visionWorkerCreate width height previousData currentData = some w) :
    w.width = width ∧ w.height = height ∧ w.Fresh := by
  rw [visionWorkerCreate, visionMosaicCreate] at h
  split_ifs at h with hzero
  · exact absurd h.symm (Option.some_ne_none w)
  · obtain ⟨hwidth, hheight⟩ := not_or.1 hzero
    have hwidth := UInt32.pos_iff_ne_zero.2 hwidth
    have hheight := UInt32.pos_iff_ne_zero.2 hheight
    rw [Option.map_some, Option.some.injEq] at h
    subst h
    exact ⟨rfl, rfl, hwidth, hheight, rfl, rfl, fun _ ↦ rfl, rfl, rfl, rfl⟩

theorem VisionWorker.Fresh.asInt_origin {w : VisionWorker} (h : w.Fresh) :
    (asInt w.originX, asInt w.originY) = (w.originX, w.originY) := by
  rw [h.originX_eq, h.originY_eq, asInt_asInt, asInt_asInt]

theorem VisionWorker.Fresh.originX_of_lt {w : VisionWorker} (h : w.Fresh)
    (hint : 3 * w.width.toNat < 2 ^ 31) : w.originX = w.width.toNat :=
  h.originX_eq.trans (asInt_eq (by omega) (by omega))

theorem VisionWorker.Fresh.originY_of_lt {w : VisionWorker} (h : w.Fresh)
    (hint : 3 * w.height.toNat < 2 ^ 31) : w.originY = w.height.toNat :=
  h.originY_eq.trans (asInt_eq (by omega) (by omega))

/-- The canvas has three times the size of a frame, if that does not wrap around. -/
theorem toNat_mul_three {size : UInt32} (h : 3 * size.toNat < 2 ^ 31) :
    (size * 3).toNat = 3 * size.toNat := by
  rw [UInt32.toNat_mul, Nat.mul_comm]
  exact Nat.mod_eq_of_lt (show 3 * size.toNat < 2 ^ 32 by omega)

/-! ### Before the first move -/

/-- A worker that has seen `n` frames from one position. -/
structure Still (scene : ℤ → ℤ → UInt8) (c : ℤ × ℤ) (w : VisionWorker) (n : ℕ)
    (s : VisionWorker × List (ℕ × ℤ × ℤ)) : Prop where
  width_eq : s.1.width = w.width
  height_eq : s.1.height = w.height
  mosaicWidth_eq : s.1.mosaic.width = w.mosaic.width
  mosaicHeight_eq : s.1.mosaic.height = w.mosaic.height
  origin_eq : (s.1.originX, s.1.originY) = (w.originX, w.originY)
  havePrevious : s.1.havePrevious = true ↔ n ≠ 0
  previous_eq : n ≠ 0 → s.1.gray s.1.previousData = imageFrame w.width w.height (view scene c)
  count_le : ∀ i, (s.1.mosaic.count i).toNat ≤ n
  log : ∀ e ∈ s.2, ∃ p ∈ pixels 0 w.width.toNat 0 w.height.toNat,
    mosaicCell w.mosaic.width w.mosaic.height w.originX w.originY p = some e.1 ∧
      e.2 = (c.1 + p.1, c.2 + p.2)
  mem : n ≠ 0 → ∀ p ∈ pixels 0 w.width.toNat 0 w.height.toNat, ∀ i,
    mosaicCell w.mosaic.width w.mosaic.height w.originX w.originY p = some i →
      (i, c.1 + ↑p.1, c.2 + ↑p.2) ∈ s.2

section Still

variable {scene : ℤ → ℤ → UInt8} {c : ℤ × ℤ} {w : VisionWorker} {n : ℕ}
  {s : VisionWorker × List (ℕ × ℤ × ℤ)} {shot : Shot}

/-- **What a frame adds to the log**, wherever the search puts it. -/
theorem exists_visionThreadShot (hs : Still scene c w n s) (hw : w.Fresh)
    (hshows : shot.Shows scene w.width w.height)
    (htrue : n ≠ 0 → ∃ previous : Shot, previous.position = c ∧
      TrueDisplacement scene w.width w.height previous shot) :
    ∃ s' samples, visionThreadShot s shot =
        some (s', s.2 ++ samples.map fun sample ↦ (sample.cell, shot.point sample.pixel)) ∧
      s.1.Took (view scene shot.position)
        (s.1.nextOrigin (c.1 - shot.position.1, c.2 - shot.position.2)) (s', samples) := by
  obtain ⟨stores, hcopy, hrun⟩ := hshows
  rw [← hs.width_eq, ← hs.height_eq] at hcopy
  have hestimate : s.1.havePrevious = true → ∃ e, visionEstimateOffset (s.1.gray s.1.previousData)
      (imageFrame s.1.width s.1.height (view scene shot.position)) 32 32 =
        some (some (e, c.1 - shot.position.1, c.2 - shot.position.2)) := by
    intro hprevious
    obtain ⟨previous, rfl, e, he⟩ := htrue (hs.havePrevious.1 hprevious)
    refine ⟨e, ?_⟩
    rw [hs.previous_eq (hs.havePrevious.1 hprevious), hs.width_eq, hs.height_eq]
    exact he
  obtain ⟨t, ht, htook⟩ := visionThreadStep_of_shows (hs.width_eq ▸ hw.width_pos)
    (hs.height_eq ▸ hw.height_pos) hcopy (fun m y hy x hx ↦ by
      rw [hs.width_eq] at hx ⊢
      exact hrun m y (hs.height_eq ▸ hy) x hx) hestimate
  refine ⟨t.1, t.2, ?_, htook⟩
  rw [visionThreadShot, ht]
  rfl

/-- Nothing changes while the camera does not move. -/
theorem still_step (hs : Still scene c w n s) (hw : w.Fresh) (hposition : shot.position = c)
    (hshows : shot.Shows scene w.width w.height)
    (htrue : n ≠ 0 → ∃ previous : Shot, previous.position = c ∧
      TrueDisplacement scene w.width w.height previous shot) :
    ∃ s', visionThreadShot s shot = some s' ∧ Still scene c w (n + 1) s' := by
  obtain ⟨s', samples, hstep, htook⟩ := exists_visionThreadShot hs hw hshows htrue
  have horigin : s.1.nextOrigin (c.1 - shot.position.1, c.2 - shot.position.2) =
      (w.originX, w.originY) := by
    obtain ⟨hx, hy⟩ := Prod.mk.inj hs.origin_eq
    rw [VisionWorker.nextOrigin, hposition, Int.sub_self, Int.sub_self, Int.add_zero, Int.add_zero, hx, hy,
      hw.asInt_origin, ite_self]
  rw [horigin] at htook
  have hacc := htook.accumulated
  rw [hs.width_eq, hs.height_eq] at hacc
  have hhits : ∀ i, hits s.1.mosaic.width s.1.mosaic.height w.originX w.originY
      (pixels 0 w.width.toNat 0 w.height.toNat) i ≤ 1 := hits_le_one
  have hpoint : ∀ p, shot.point p = (c.1 + ↑p.1, c.2 + ↑p.2) := fun p ↦ by
    rw [Shot.point, hposition]
  refine ⟨_, hstep, htook.width_eq.trans hs.width_eq, htook.height_eq.trans hs.height_eq,
    hacc.width_eq.trans hs.mosaicWidth_eq, hacc.height_eq.trans hs.mosaicHeight_eq, htook.origin_eq,
    ⟨fun _ ↦ Nat.succ_ne_zero n, fun _ ↦ htook.havePrevious⟩, fun _ ↦ ?_, fun i ↦ ?_, fun e he ↦ ?_,
    fun _ p hp i hi ↦ ?_⟩
  · rw [htook.previous_eq, hs.width_eq, hs.height_eq, hposition]
  · exact (hacc.count_le i).trans (Nat.add_le_add (hs.count_le i) (hhits i))
  · rcases List.mem_append.1 he with he | he
    · exact hs.log e he
    · obtain ⟨sample, hsample, rfl⟩ := List.mem_map.1 he
      obtain ⟨hpixel, hcell⟩ := hacc.sample sample hsample
      rw [hs.mosaicWidth_eq, hs.mosaicHeight_eq] at hcell
      exact ⟨sample.pixel, hpixel, hcell, hpoint _⟩
  · by_cases hn : n = 0
    · -- The first frame finds every cell empty.
      have hroom : (s.1.mosaic.count i).toNat + hits s.1.mosaic.width s.1.mosaic.height w.originX w.originY
          (pixels 0 w.width.toNat 0 w.height.toNat) i < 2 ^ 32 - 1 := by
        have hone := hhits i
        have hempty := hs.count_le i
        omega
      have hcell := hi
      rw [← hs.mosaicWidth_eq, ← hs.mosaicHeight_eq] at hcell
      refine List.mem_append_right _ (List.mem_map.2 ⟨⟨i, p⟩, hacc.mem p hp i hcell hroom, ?_⟩)
      rw [hpoint]
    · exact List.mem_append_left _ (hs.mem hn p hp i hi)

end Still

variable {scene : ℤ → ℤ → UInt8} {c : ℤ × ℤ} {w : VisionWorker} {shots : List Shot}

/-- **Every run from one position is still.** -/
theorem exists_still (hw : w.Fresh) (hshots : ∀ shot ∈ shots, shot.Shows scene w.width w.height)
    (hchain : shots.IsChain (TrueDisplacement scene w.width w.height))
    (hposition : ∀ shot ∈ shots, shot.position = c) :
    ∃ s, visionThread w shots = some s ∧ Still scene c w shots.length s := by
  induction shots using List.reverseRecOn with
  | nil =>
    refine ⟨(w, []), rfl, rfl, rfl, rfl, rfl, rfl, ?_, fun h ↦ absurd rfl h, fun i ↦ ?_,
      fun e he ↦ absurd he List.not_mem_nil, fun h ↦ absurd rfl h⟩
    · rw [hw.havePrevious]
      exact ⟨fun h ↦ absurd h Bool.false_ne_true, fun h ↦ absurd rfl h⟩
    · rw [hw.count_eq]
      exact Nat.le_refl _
  | append_singleton shots shot ih =>
    obtain ⟨hchain, -, hlast⟩ := List.isChain_append.1 hchain
    have hinit : ∀ {x}, x ∈ shots → x ∈ shots ++ [shot] := List.mem_append_left _
    have hshot : shot ∈ shots ++ [shot] := List.mem_append_right _ List.mem_cons_self
    obtain ⟨s, hs, hstill⟩ := ih (fun x hx ↦ hshots x (hinit hx)) hchain
      (fun x hx ↦ hposition x (hinit hx))
    obtain ⟨s', hs', hstill'⟩ := still_step hstill hw (hposition shot hshot)
      (hshots shot hshot) fun hne ↦ by
        have hnil : shots ≠ [] := fun h ↦ hne (List.length_eq_zero_iff.2 h)
        exact ⟨shots.getLast hnil, hposition _ (hinit (List.getLast_mem hnil)),
          hlast _ (List.getLast_mem_getLast? hnil) shot rfl⟩
    refine ⟨s', exec_snoc hs hs', ?_⟩
    rw [List.length_append]
    exact hstill'

/-- Samples of one cell are samples of one point. -/
theorem registers_of_still {s : VisionWorker × List (ℕ × ℤ × ℤ)} (hrun : visionThread w shots = some s)
    (hs : Still scene c w shots.length s) : Registers w shots := by
  refine ⟨s, hrun, fun a ha b hb hcell ↦ ?_⟩
  obtain ⟨p, hp, hpa, hpoint⟩ := hs.log a ha
  obtain ⟨q, hq, hqb, hpoint'⟩ := hs.log b hb
  rw [hpoint, hpoint', mosaicCell_inj (lt_of_mem_pixels hp) (lt_of_mem_pixels hq) hpa (hcell ▸ hqb)]

/-! ### The first move -/

/-- Where the positions are not all the same, there is a first frame at another one. -/
theorem exists_first_move (hmoves : ¬ ∀ a ∈ shots, ∀ b ∈ shots, a.position = b.position) :
    ∃ before shot after c, shots = before ++ shot :: after ∧ before ≠ [] ∧
      (∀ a ∈ before, a.position = c) ∧ shot.position ≠ c := by
  induction shots using List.reverseRecOn with
  | nil => exact absurd (fun a ha ↦ absurd ha List.not_mem_nil) hmoves
  | append_singleton shots last ih =>
    by_cases hall : ∀ a ∈ shots, ∀ b ∈ shots, a.position = b.position
    · rcases shots with - | ⟨first, shots⟩
      · refine absurd (fun a ha b hb ↦ ?_) hmoves
        rw [List.mem_singleton.1 ha, List.mem_singleton.1 hb]
      · have hsame : ∀ a ∈ first :: shots, a.position = first.position := fun a ha ↦
          hall a ha first List.mem_cons_self
        refine ⟨first :: shots, last, [], first.position, rfl, List.cons_ne_nil _ _, hsame, fun heq ↦ ?_⟩
        refine hmoves fun a ha b hb ↦ ?_
        have hpos : ∀ a ∈ first :: shots ++ [last], a.position = first.position := fun a ha ↦ by
          rcases List.mem_append.1 ha with ha | ha
          · exact hsame a ha
          · rw [List.mem_singleton.1 ha, heq]
        rw [hpos a ha, hpos b hb]
    · obtain ⟨before, shot, after, c, rfl, hne, hbefore, hmove⟩ := ih hall
      exact ⟨before, shot, after ++ [last], c, List.append_assoc _ _ _, hne, hbefore, hmove⟩

/-- Frames that are not disjoint have moved by less than their size. -/
theorem natAbs_lt_of_admissible {size : UInt32} {d : ℤ} (hd : d.natAbs ≤ size.toNat)
    (h : Admissible size d) : d.natAbs < size.toNat := by
  obtain ⟨hlt, -⟩ := admissible_iff.1 h
  have hsize := size.toNat_lt
  rw [toNat_overlapStart (by omega), toNat_overlapEnd (by omega)] at hlt
  omega

/-- A displacement that the search finds is smaller than the frame. -/
theorem natAbs_lt_of_trueDisplacement {width height : UInt32} {a b : Shot} (hwidth : 0 < width)
    (hheight : 0 < height) (h : TrueDisplacement scene width height a b) :
    (a.position.1 - b.position.1).natAbs < width.toNat ∧
      (a.position.2 - b.position.2).natAbs < height.toNat := by
  obtain ⟨e, he⟩ := h
  -- The window of the search fits into the frame, or it would have had no result.
  have hlarge : ¬ (width.toNat < 32 ∨ height.toNat < 32) := fun hsmall ↦ by
    rw [visionEstimateOffset_of_small hwidth hheight hsmall] at he
    exact absurd he.symm (Option.some_ne_none _)
  obtain ⟨hwindow, hcost⟩ := offset_of_visionEstimateOffset he
  obtain ⟨hdx, hdy⟩ := mem_searchWindow.1 hwindow
  obtain ⟨hx, hy⟩ := admissible_of_offsetError hcost
  exact ⟨natAbs_lt_of_admissible (by dsimp only at hdx; omega) hx,
    natAbs_lt_of_admissible (by dsimp only at hdy; omega) hy⟩

/-- The first move is added to the origin, on a canvas where that does not wrap around. -/
theorem nextOrigin_of_still {n : ℕ} {s : VisionWorker × List (ℕ × ℤ × ℤ)} (hs : Still scene c w n s)
    (hw : w.Fresh) (hint : 3 * w.width.toNat < 2 ^ 31 ∧ 3 * w.height.toNat < 2 ^ 31) (hn : n ≠ 0)
    {dx dy : ℤ} (hdx : dx.natAbs < w.width.toNat) (hdy : dy.natAbs < w.height.toNat) :
    s.1.nextOrigin (dx, dy) = (w.width.toNat + dx, w.height.toNat + dy) := by
  obtain ⟨hx, hy⟩ := Prod.mk.inj hs.origin_eq
  rw [VisionWorker.nextOrigin, if_pos (hs.havePrevious.2 hn), hx, hy, hw.originX_of_lt hint.1,
    hw.originY_of_lt hint.2, asInt_eq (by omega) (by omega), asInt_eq (by omega) (by omega)]

/-- **The first move ends the registration.** The pixel that shows a point before the move, and the one that
shows the point as far off on the other side after it, go to one cell. -/
theorem not_registers_of_move {n : ℕ} {s s' s'' : VisionWorker × List (ℕ × ℤ × ℤ)} {shot : Shot}
    {after : List Shot} (hs : Still scene c w n s) (hn : n ≠ 0) (hroom : n + 1 < 2 ^ 32 - 1)
    (hw : w.Fresh) (hint : 3 * w.width.toNat < 2 ^ 31 ∧ 3 * w.height.toNat < 2 ^ 31)
    (hshows : shot.Shows scene w.width w.height) {previous : Shot} (hprevious : previous.position = c)
    (htrue : TrueDisplacement scene w.width w.height previous shot) (hmove : shot.position ≠ c)
    (hstep : visionThreadShot s shot = some s') (hrun : exec visionThreadShot s' after = some s'') :
    ¬ ∀ a ∈ s''.2, ∀ b ∈ s''.2, a.1 = b.1 → a.2 = b.2 := by
  intro hregisters
  obtain ⟨hdx, hdy⟩ := natAbs_lt_of_trueDisplacement hw.width_pos hw.height_pos htrue
  rw [hprevious] at hdx hdy
  obtain ⟨t, samples, ht, htook⟩ := exists_visionThreadShot hs hw hshows
    fun _ ↦ ⟨previous, hprevious, htrue⟩
  obtain rfl := Option.some.inj (hstep.symm.trans ht)
  have hnext := nextOrigin_of_still hs hw hint hn hdx hdy
  have hacc := htook.accumulated
  rw [hnext, hs.width_eq, hs.height_eq] at hacc
  -- `p` in the frames before, `q` in the frame after.
  obtain ⟨p, hp, q, hq, i, hcellp, hcellq, hpx, hpy⟩ := exists_shared_cell
    ((congrArg _ hw.mosaicWidth_eq).trans (toNat_mul_three hint.1))
    ((congrArg _ hw.mosaicHeight_eq).trans (toNat_mul_three hint.2)) hint hdx hdy
  rw [← hw.originX_of_lt hint.1, ← hw.originY_of_lt hint.2] at hcellp
  rw [← hs.mosaicWidth_eq, ← hs.mosaicHeight_eq] at hcellq
  have hcount : (s.1.mosaic.count i).toNat + hits s.1.mosaic.width s.1.mosaic.height
      (w.width.toNat + (c.1 - shot.position.1)) (w.height.toNat + (c.2 - shot.position.2))
      (pixels 0 w.width.toNat 0 w.height.toNat) i < 2 ^ 32 - 1 :=
    Nat.lt_of_le_of_lt (Nat.add_le_add (hs.count_le i) (hits_le_one i)) hroom
  have hbefore := mem_log_of_exec (List.mem_append_left _ (hs.mem hn p hp i hcellp)) hrun
  have hafter := mem_log_of_exec (List.mem_append_right _ (List.mem_map_of_mem
    (hacc.mem q hq i hcellq hcount))) hrun
  obtain ⟨hx, hy⟩ := Prod.mk.inj (hregisters _ hbefore _ hafter rfl)
  dsimp only [Shot.point] at hx hy
  exact hmove (Prod.ext (by omega) (by omega))

/-! ### A camera that moves -/

variable {width height : UInt32}

/-- An overlap of all but 32 columns is large enough. -/
theorem admissible_of_le {size : UInt32} (h : 64 ≤ size.toNat) : Admissible size (-32) := by
  rw [admissible_iff, toNat_overlapStart (by decide), toNat_overlapEnd (by omega)]
  omega

/-- If the contents have moved to the corner of its window, the search finds it. -/
theorem visionEstimateOffset_corner (hwidth : 64 ≤ width.toNat) (hheight : 64 ≤ height.toNat)
    (hsmall : width.toNat < 2 ^ 31) {image image' : ℤ → ℤ → UInt8}
    (hmatch : ∀ x y, image x y = image' (x + -32) (y + -32)) :
    visionEstimateOffset (imageFrame width height image) (imageFrame width height image') 32 32 =
      some (some (0, -32, -32)) := by
  have hpos : 0 < width := Nat.lt_of_lt_of_le (by decide : 0 < 64) hwidth
  have hpos' : 0 < height := Nat.lt_of_lt_of_le (by decide : 0 < 64) hheight
  have hp := shows_imageFrame hpos hpos' image
  have hc := shows_imageFrame hpos hpos' image'
  have hcosts : ∀ d ∈ searchWindow 32 32,
      ∃ e, offsetError (imageFrame width height image) (imageFrame width height image') d = some e := by
    intro d hd
    obtain ⟨hdx, hdy⟩ := mem_searchWindow.1 hd
    have hx : d.1.natAbs ≤ width.toNat := by omega
    have hy : d.2.natAbs ≤ height.toNat := by omega
    exact exists_offsetError hp hc rfl rfl (Nat.le_of_lt hsmall) hx hy
  obtain ⟨rest, hrest⟩ : ∃ rest, searchWindow 32 32 = (-32, -32) :: rest := ⟨_, rfl⟩
  have hcorner : offsetError (imageFrame width height image) (imageFrame width height image') (-32, -32) =
      some (some 0) := by
    obtain ⟨e, he⟩ := hcosts (-32, -32) (hrest ▸ List.mem_cons_self)
    rcases e with - | e
    · exact absurd ⟨admissible_of_le hwidth, admissible_of_le hheight⟩ (not_admissible_of_offsetError he)
    · have hx : (-32 : ℤ).natAbs ≤ width.toNat := Nat.le_trans (by decide) hwidth
      have hy : (-32 : ℤ).natAbs ≤ height.toNat := Nat.le_trans (by decide) hheight
      rw [he, offsetError_eq_zero hp hc rfl rfl (Nat.le_of_lt hsmall) hx hy hmatch he]
  obtain ⟨best, hbest⟩ := Argmin.exists_scan (0xFFFFFFFFFFFFFFFF, 0, 0) hcosts
  rw [visionEstimateOffset_of_valid hp.valid hc.valid rfl rfl (by decide) (by decide),
    if_neg (by decide), hbest]
  rw [hrest] at hbest
  rw [Argmin.eq_head_of_scan hbest hcorner (by decide) fun _ ↦ UInt64.zero_le]
  rfl

/-- A surface without two pixels alike in a row. -/
def texture (x y : ℤ) : UInt8 :=
  UInt8.ofInt (x + 16 * y)

/-- A surface that looks different wherever one moves it. -/
def curved (x y : ℤ) : UInt8 :=
  UInt8.ofInt (x + y * y)

/-- Bytes are equal modulo 256. -/
theorem dvd_of_ofInt_eq {a b : ℤ} (h : UInt8.ofInt a = UInt8.ofInt b) : 256 ∣ a - b := by
  have h := congrArg UInt8.toNat h
  rw [UInt8.ofInt, UInt8.ofInt, UInt8.toNat_ofNat', UInt8.toNat_ofNat'] at h
  omega

/-- Moved by less than half a frame, it matches itself nowhere: two pixels, one above the other, tell the
rows apart, and then the columns. -/
theorem mismatch_curved_ne_zero {d : ℤ × ℤ} (hd : d ∈ candidates 64 64 32 32) (hne : d ≠ (0, 0)) :
    mismatch absDiff curved curved 64 64 d ≠ 0 := by
  intro hzero
  obtain ⟨hx, hy⟩ := mem_searchWindow.1 (mem_candidates.1 hd).1
  have hmatch : ∀ p ∈ keptPixels 64 64 d,
      (256 : ℤ) ∣ (p.1 + p.2 * p.2) - (p.1 + d.1 + (p.2 + d.2) * (p.2 + d.2)) := fun p hp ↦
    dvd_of_ofInt_eq ((mismatch_eq_zero_iff absDiff_eq_zero_iff).1 hzero p hp)
  obtain ⟨x, hx⟩ : ∃ x : ℕ, x ∈ kept 64 d.1 := ⟨(-d.1).toNat, mem_kept.2 (by omega)⟩
  obtain ⟨y, hy, hy'⟩ : ∃ y : ℕ, y ∈ kept 64 d.2 ∧ y + 1 ∈ kept 64 d.2 :=
    ⟨(-d.2).toNat, mem_kept.2 (by omega), mem_kept.2 (by omega)⟩
  have hupper := hmatch (x, y) (mem_keptPixels.2 ⟨hx, hy⟩)
  have hlower := hmatch (x, y + 1) (mem_keptPixels.2 ⟨hx, hy'⟩)
  have hrows : d.2 = 0 := by
    have hdouble := Int.dvd_sub hupper hlower
    rw [show ((x : ℤ) + y * y) - (x + d.1 + (y + d.2) * (y + d.2)) -
      ((x : ℤ) + ((y + 1 : ℕ) : ℤ) * ((y + 1 : ℕ) : ℤ) -
        (x + d.1 + (((y + 1 : ℕ) : ℤ) + d.2) * (((y + 1 : ℕ) : ℤ) + d.2))) = 2 * d.2 by
      push_cast
      ring] at hdouble
    omega
  have hcolumns : d.1 = 0 := by
    rw [hrows, add_zero] at hupper
    omega
  exact hne (Prod.ext hcolumns hrows)

/-- The search does not move on it. -/
theorem visionEstimateOffset_curved :
    visionEstimateOffset (imageFrame 64 64 curved) (imageFrame 64 64 curved) 32 32 =
      some (some (0, 0, 0)) := by
  have hshows := @shows_imageFrame 64 64 (by decide) (by decide) curved
  have hfit : SumsFit 64 64 curved curved 32 32 := sumsFit_of_lt (by decide) _ _
  obtain ⟨best, hbest, -, -, honly⟩ := (findsLeast_iff_of_le hshows hshows rfl rfl (by decide)
    ⟨by decide, by decide⟩ ⟨by decide, by decide⟩).2 ⟨by decide, hfit⟩
  have hput := honly (0, 0) (zero_mem_candidates (by decide) (by decide) (by decide) (by decide))
    (fun p _ ↦ by rw [Int.add_zero, Int.add_zero]) fun d hd hne ↦ mismatch_curved_ne_zero hd hne
  exact hbest.trans (congrArg (some ∘ some) hput)

/-- A YU12 frame of 64 by 64 pixels. -/
def squareFrame : Frame :=
  ⟨64, 64, v4l2PixFmtYuv420, 64, 6144, 0, 0, 0, 0, 1⟩

def planarShot (scene : ℤ → ℤ → UInt8) (c : ℤ × ℤ) : Shot :=
  ⟨c, squareFrame, fun k ↦ view scene c ↑(k % 64) ↑(k / 64)⟩

theorem shows_planarShot (scene : ℤ → ℤ → UInt8) (c : ℤ × ℤ) : (planarShot scene c).Shows scene 64 64 := by
  have hsize : squareFrame.stride.toNat * UInt32.toNat 64 ≤ squareFrame.size := by decide
  refine ⟨_, copyGray_planar (.inl rfl) (UInt32.le_refl 64) hsize, fun m y hy x hx ↦ ?_⟩
  rw [run_lumaRows _ _ hy hx]
  have hx : x < 64 := hx
  show view scene c ↑((y * 64 + x) % 64) ↑((y * 64 + x) / 64) = view scene c ↑x ↑y
  rw [row_mod hx, row_div hx]

/-- The camera moves along the diagonal, by the size of the window of the search. -/
theorem isChain_diagonal (scene : ℤ → ℤ → UInt8) :
    [planarShot scene (0, 0), planarShot scene (32, 32)].IsChain (TrueDisplacement scene 64 64) := by
  refine List.isChain_pair.2 ⟨0, ?_⟩
  refine visionEstimateOffset_corner (by decide) (by decide) (by decide) fun x y ↦ ?_
  show scene (0 + x) (0 + y) = scene (32 + (x + -32)) (32 + (y + -32))
  congr 1 <;> omega

/-! ### Registration -/

/-- Frames from one position are registered. -/
theorem registers_of_positions (hfresh : w.Fresh)
    (hshots : ∀ shot ∈ shots, shot.Shows scene w.width w.height)
    (hchain : shots.IsChain (TrueDisplacement scene w.width w.height))
    (hstill : ∀ a ∈ shots, ∀ b ∈ shots, a.position = b.position) : Registers w shots := by
  obtain ⟨c, hc⟩ : ∃ c, ∀ shot ∈ shots, shot.position = c := by
    rcases shots with - | ⟨first, shots⟩
    · exact ⟨(0, 0), fun shot h ↦ absurd h List.not_mem_nil⟩
    · exact ⟨first.position, fun shot h ↦ hstill shot h first List.mem_cons_self⟩
  obtain ⟨s, hrun, hs⟩ := exists_still hfresh hshots hchain hc
  exact registers_of_still hrun hs

/-- Frames that are registered are from one position. -/
theorem positions_of_registers (hfresh : w.Fresh)
    (hshots : ∀ shot ∈ shots, shot.Shows scene w.width w.height)
    (hchain : shots.IsChain (TrueDisplacement scene w.width w.height))
    (hint : 3 * w.width.toNat < 2 ^ 31 ∧ 3 * w.height.toNat < 2 ^ 31)
    (hlength : shots.length < 2 ^ 32 - 1) (hregisters : Registers w shots) :
    ∀ a ∈ shots, ∀ b ∈ shots, a.position = b.position := by
  by_contra hmoves
  obtain ⟨s, hrun, hregisters⟩ := hregisters
  obtain ⟨before, shot, after, c, rfl, hne, hbefore, hmove⟩ := exists_first_move hmoves
  have hinit : ∀ {x}, x ∈ before → x ∈ before ++ shot :: after := List.mem_append_left _
  have hshot : shot ∈ before ++ shot :: after := List.mem_append_right _ List.mem_cons_self
  obtain ⟨hchain, -, hlast⟩ := List.isChain_append.1 hchain
  obtain ⟨s₁, hrun₁, hs₁⟩ := exists_still hfresh (fun x hx ↦ hshots x (hinit hx)) hchain hbefore
  obtain ⟨s₁', hrun₁', hrest⟩ := exists_of_exec_append hrun
  obtain rfl := Option.some.inj (hrun₁.symm.trans hrun₁')
  rw [exec_cons] at hrest
  obtain ⟨s₂, hstep, hafter⟩ := Option.bind_eq_some_iff.1 hrest
  rw [List.length_append, List.length_cons] at hlength
  exact not_registers_of_move hs₁ (fun h ↦ hne (List.length_eq_zero_iff.1 h)) (by omega) hfresh hint
    (hshots shot hshot) (hbefore _ (List.getLast_mem hne))
    (hlast _ (List.getLast_mem_getLast? hne) shot rfl) hmove hstep hafter hregisters

variable {width height : UInt32} {previousData currentData : ℕ → UInt8}

/-- **The mosaic registers the frames of a camera that does not move**; and where the canvas is one that an
`int` can address, and no cell is full, it registers no others. -/
theorem registers_iff_still (hcreate : visionWorkerCreate width height previousData currentData = some w)
    (hshots : ∀ shot ∈ shots, shot.Shows scene width height)
    (hchain : shots.IsChain (TrueDisplacement scene width height)) :
    ((∀ a ∈ shots, ∀ b ∈ shots, a.position = b.position) → Registers w shots) ∧
      (3 * width.toNat < 2 ^ 31 → 3 * height.toNat < 2 ^ 31 → shots.length < 2 ^ 32 - 1 →
        Registers w shots → ∀ a ∈ shots, ∀ b ∈ shots, a.position = b.position) := by
  obtain ⟨rfl, rfl, hfresh⟩ := fresh_of_visionWorkerCreate hcreate
  exact ⟨registers_of_positions hfresh hshots hchain, fun hw hh hlength ↦
    positions_of_registers hfresh hshots hchain ⟨hw, hh⟩ hlength⟩

/-- The worker of such frames, as it is created. -/
def squareWorker : VisionWorker :=
  ⟨64, 64, 0, fun _ ↦ 0, fun _ ↦ 0, ⟨192, 192, fun _ ↦ 0, fun _ ↦ 0⟩, false, asInt 64, asInt 64⟩

theorem visionWorkerCreate_square :
    visionWorkerCreate 64 64 (fun _ ↦ 0) (fun _ ↦ 0) = some squareWorker := by
  rw [visionWorkerCreate, if_neg (by decide), visionMosaicCreate, if_neg (by decide)]
  rfl

/-- Two frames of a textured surface, with a move between them. -/
def diagonal : List Shot :=
  [planarShot texture (0, 0), planarShot texture (32, 32)]

theorem shows_diagonal : ∀ shot ∈ diagonal, shot.Shows texture 64 64 := by
  intro shot hshot
  rcases List.mem_cons.1 hshot with rfl | hshot
  · exact shows_planarShot texture (0, 0)
  · rw [List.mem_singleton.1 hshot]
    exact shows_planarShot texture (32, 32)

/-- Three frames without a move. -/
def unmoved : List Shot :=
  List.replicate 3 (planarShot curved (0, 0))

theorem view_origin (scene : ℤ → ℤ → UInt8) : view scene (0, 0) = scene := by
  funext x y
  rw [view, Int.zero_add, Int.zero_add]

theorem isChain_unmoved : unmoved.IsChain (TrueDisplacement curved 64 64) := by
  have hpair : TrueDisplacement curved 64 64 (planarShot curved (0, 0)) (planarShot curved (0, 0)) := by
    refine ⟨0, ?_⟩
    show visionEstimateOffset (imageFrame 64 64 (view curved (0, 0))) (imageFrame 64 64 (view curved (0, 0)))
      32 32 = _
    rw [view_origin]
    exact visionEstimateOffset_curved
  exact List.isChain_cons_cons.2 ⟨hpair, List.isChain_pair.2 hpair⟩

theorem registers_iff_still_diagonal : Registers squareWorker unmoved ∧ ¬ Registers squareWorker diagonal := by
  refine ⟨?_, fun hregisters ↦ ?_⟩
  · refine (registers_iff_still visionWorkerCreate_square (fun shot hshot ↦ ?_) isChain_unmoved).1
      fun a ha b hb ↦ ?_
    · exact List.eq_of_mem_replicate hshot ▸ shows_planarShot curved (0, 0)
    · rw [List.eq_of_mem_replicate ha, List.eq_of_mem_replicate hb]
  · have hsame := (registers_iff_still visionWorkerCreate_square shows_diagonal (isChain_diagonal texture)).2
      (by decide) (by decide) (by decide) hregisters
    exact absurd (hsame _ List.mem_cons_self _ (List.mem_cons_of_mem _ List.mem_cons_self)) (by decide)

/-- After a move the samples of a cell are not samples of one point. -/
theorem not_registers : ¬ ∀ (scene : ℤ → ℤ → UInt8) (width height : UInt32)
    (previousData currentData : ℕ → UInt8) (w : VisionWorker) (shots : List Shot),
    visionWorkerCreate width height previousData currentData = some w →
    (∀ shot ∈ shots, shot.Shows scene width height) →
    shots.IsChain (TrueDisplacement scene width height) → Registers w shots := by
  intro hall
  have hsame := positions_of_registers (fresh_of_visionWorkerCreate visionWorkerCreate_square).2.2
    shows_diagonal (isChain_diagonal texture) (by decide) (by decide)
    (hall texture 64 64 _ _ squareWorker diagonal visionWorkerCreate_square shows_diagonal
      (isChain_diagonal texture))
  exact absurd (hsame _ List.mem_cons_self _ (List.mem_cons_of_mem _ List.mem_cons_self)) (by decide)

end Camstream
