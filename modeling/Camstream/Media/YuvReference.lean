import Mathlib.Order.Interval.Set.Defs
import Camstream.Media.EncoderWorker
import Camstream.Media.YuvConvert

/-!
# The reference conversion

The loops of `yuyv_to_i420` advance pointers: four bytes of the frame for two bytes of luma and one of each
chroma plane, and two rows of the frame at a time for the chroma. `yuyvToI420Loops_eq` says which addresses
they come to, and `yuyvToI420_reference` what they leave in the planes, wherever these are as long as they
do not overlap.

The encode worker lays the planes out behind each other, and they fill its scratch buffer (`planes_worker`).
-/

namespace Camstream

open Memory

/-! ### The loops -/

/-- The inner loop over the luma of a row, with `n` macropixels left. -/
def lumaMacropixels : ℕ → ℕ → ℕ → List (Store UInt8)
  | 0, _, _ => []
  | n + 1, input, out =>
    .byte out input :: .byte (out + 1) (input + 2) :: lumaMacropixels n (input + 4) (out + 2)

/-- The inner loop over the chroma of two rows, with `n` macropixels left. -/
def chromaMacropixels : ℕ → ℕ → ℕ → ℕ → ℕ → List (Store UInt8)
  | 0, _, _, _, _ => []
  | n + 1, row0, row1, outU, outV =>
    .pair roundedAverage outU (row0 + 1) (row1 + 1) :: .pair roundedAverage outV (row0 + 3) (row1 + 3) ::
      chromaMacropixels n (row0 + 4) (row1 + 4) (outU + 1) (outV + 1)

/-- `yuyv_to_i420`, with its pointers. -/
def yuyvToI420Loops (srcStride dstY dstU dstV width height : ℕ) : List (Store UInt8) :=
  let chromaW := width / 2
  let chromaH := height / 2
  let luma := (List.range height).flatMap fun row ↦
    lumaMacropixels (width / 2) (row * srcStride) (dstY + row * width)
  let chroma := (List.range chromaH).flatMap fun crow ↦
    let row0 := crow * 2 * srcStride
    chromaMacropixels chromaW row0 (row0 + srcStride) (dstU + crow * chromaW) (dstV + crow * chromaW)
  luma ++ chroma

/-- The pointers of the inner loop, by their number of turns. -/
theorem lumaMacropixels_eq (n input out : ℕ) :
    lumaMacropixels n input out = (List.range n).flatMap fun x ↦
      [.byte (out + 2 * x) (input + 4 * x), .byte (out + 2 * x + 1) (input + 4 * x + 2)] := by
  induction n generalizing input out with
  | zero => rfl
  | succ n ih =>
    have hshift : ∀ k a x, a + k + k * x = a + k * (x + 1) := fun k a x ↦ by
      rw [Nat.mul_succ]
      omega
    rw [List.range_succ_eq_map, List.flatMap_cons, List.flatMap_map, lumaMacropixels, ih]
    simp only [hshift]
    rfl

/-- The same for the chroma of two rows. -/
theorem chromaMacropixels_eq (n row0 row1 outU outV : ℕ) :
    chromaMacropixels n row0 row1 outU outV = (List.range n).flatMap fun x ↦
      [.pair roundedAverage (outU + x) (row0 + 4 * x + 1) (row1 + 4 * x + 1),
        .pair roundedAverage (outV + x) (row0 + 4 * x + 3) (row1 + 4 * x + 3)] := by
  induction n generalizing row0 row1 outU outV with
  | zero => rfl
  | succ n ih =>
    have hshift : ∀ a x, a + 4 + 4 * x = a + 4 * (x + 1) := fun a x ↦ by omega
    have hshift' : ∀ a x, a + 1 + x = a + (x + 1) := fun a x ↦ by omega
    rw [List.range_succ_eq_map, List.flatMap_cons, List.flatMap_map, chromaMacropixels, ih]
    simp only [hshift, hshift']
    rfl

/-- **Where the pointers are**: the loops make the assignments of `yuyvToI420`, in the same order. -/
theorem yuyvToI420Loops_eq (srcStride dstY dstU dstV width height : ℕ) :
    yuyvToI420Loops srcStride dstY dstU dstV width height =
      yuyvToI420 srcStride dstY dstU dstV width height := by
  simp only [yuyvToI420Loops, yuyvToI420, lumaMacropixels_eq, chromaMacropixels_eq]

/-! ### The planes -/

/-- The addresses of the three planes of a frame of `n` pixels. -/
def planes (dstY dstU dstV n : ℕ) : Set ℕ :=
  Set.Ico dstY (dstY + n) ∪ Set.Ico dstU (dstU + n / 4) ∪ Set.Ico dstV (dstV + n / 4)

/-- No two planes have an address in common. -/
structure PlanesApart (dstY dstU dstV n : ℕ) : Prop where
  lumaU : ∀ a ∈ Set.Ico dstY (dstY + n), a ∉ Set.Ico dstU (dstU + n / 4)
  lumaV : ∀ a ∈ Set.Ico dstY (dstY + n), a ∉ Set.Ico dstV (dstV + n / 4)
  chroma : ∀ a ∈ Set.Ico dstU (dstU + n / 4), a ∉ Set.Ico dstV (dstV + n / 4)

/-- The planes hold the reference conversion of the frame at `src`, and everything around them is as it was
in `m`. -/
structure ReferencePlanes (stride dstY dstU dstV width height : ℕ) (src m mem : ℕ → UInt8) : Prop where
  luma : ∀ r < height, ∀ c < width, mem (dstY + r * width + c) = src (r * stride + 2 * c)
  chromaU : ∀ r < height / 2, ∀ c < width / 2, (mem (dstU + r * (width / 2) + c)).toNat =
    ((src (2 * r * stride + 4 * c + 1)).toNat + (src ((2 * r + 1) * stride + 4 * c + 1)).toNat + 1) / 2
  chromaV : ∀ r < height / 2, ∀ c < width / 2, (mem (dstV + r * (width / 2) + c)).toNat =
    ((src (2 * r * stride + 4 * c + 3)).toNat + (src ((2 * r + 1) * stride + 4 * c + 3)).toNat + 1) / 2
  frame : ∀ a, a ∉ planes dstY dstU dstV (width * height) → mem a = m a

section

variable {stride dstY dstU dstV width height : ℕ}

/-- Four pixels share a chroma sample. -/
theorem mul_eq_four_mul (hwidth : width % 2 = 0) (hheight : height % 2 = 0) :
    width * height = 4 * (width / 2 * (height / 2)) := by
  obtain ⟨w, rfl⟩ := Nat.dvd_of_mod_eq_zero hwidth
  obtain ⟨h, rfl⟩ := Nat.dvd_of_mod_eq_zero hheight
  rw [Nat.mul_div_cancel_left w (by decide), Nat.mul_div_cancel_left h (by decide), Nat.mul_mul_mul_comm]

/-- A chroma plane is filled by its rows. -/
theorem mul_div_four (hwidth : width % 2 = 0) (hheight : height % 2 = 0) :
    width / 2 * (height / 2) = width * height / 4 := by
  rw [mul_eq_four_mul hwidth hheight, Nat.mul_div_cancel_left _ (by decide)]

/-- The assignments, by plane. -/
theorem mem_yuyvToI420_planes (hwidth : width % 2 = 0) {s : Store UInt8} :
    s ∈ yuyvToI420 stride dstY dstU dstV width height ↔
      (∃ r < height, ∃ c < width, s = .byte (dstY + r * width + c) (r * stride + 2 * c)) ∨
      (∃ r < height / 2, ∃ c < width / 2, s = .pair roundedAverage (dstU + r * (width / 2) + c)
        (2 * r * stride + 4 * c + 1) ((2 * r + 1) * stride + 4 * c + 1)) ∨
      ∃ r < height / 2, ∃ c < width / 2, s = .pair roundedAverage (dstV + r * (width / 2) + c)
        (2 * r * stride + 4 * c + 3) ((2 * r + 1) * stride + 4 * c + 3) := by
  have hodd : ∀ r, (2 * r + 1) * stride = r * 2 * stride + stride := fun r ↦ by
    rw [Nat.add_mul, Nat.one_mul, Nat.mul_comm 2]
  have heven : ∀ r, 2 * r * stride = r * 2 * stride := fun r ↦ by rw [Nat.mul_comm 2]
  simp only [mem_yuyvToI420, hodd, heven]
  constructor
  · rintro (⟨r, hr, x, hx, rfl | rfl⟩ | ⟨r, hr, x, hx, rfl | rfl⟩)
    · exact .inl ⟨r, hr, 2 * x, by omega, by rw [← Nat.mul_assoc 2]⟩
    · exact .inl ⟨r, hr, 2 * x + 1, by omega, by congr 1; omega⟩
    · exact .inr (.inl ⟨r, hr, x, hx, rfl⟩)
    · exact .inr (.inr ⟨r, hr, x, hx, rfl⟩)
  · rintro (⟨r, hr, c, hc, rfl⟩ | ⟨r, hr, x, hx, rfl⟩ | ⟨r, hr, x, hx, rfl⟩)
    · refine .inl ⟨r, hr, c / 2, by omega, ?_⟩
      rcases Nat.mod_two_eq_zero_or_one c with hc2 | hc2
      · exact .inl (by congr 1 <;> omega)
      · exact .inr (by congr 1 <;> omega)
    · exact .inr ⟨r, hr, x, hx, .inl rfl⟩
    · exact .inr ⟨r, hr, x, hx, .inr rfl⟩

/-- A plane, row by row. -/
theorem mem_plane_iff {dst w h a : ℕ} :
    a ∈ Set.Ico dst (dst + w * h) ↔ ∃ r < h, ∃ c < w, a = dst + r * w + c := by
  rw [Set.mem_Ico]
  constructor
  · rintro ⟨hle, hlt⟩
    obtain ⟨r, hr, c, hc, ha⟩ := lt_iff_exists_row.1 (Nat.sub_lt_left_of_lt_add hle hlt)
    exact ⟨r, hr, c, hc, by omega⟩
  · rintro ⟨r, hr, c, hc, rfl⟩
    have hlt := row_lt hr hc
    omega

/-- **The bytes that are written** are those of the planes. -/
theorem exists_addr_iff (hwidth : width % 2 = 0) (hheight : height % 2 = 0) (a : ℕ) :
    (∃ s ∈ yuyvToI420 stride dstY dstU dstV width height, s.addr = a) ↔
      a ∈ planes dstY dstU dstV (width * height) := by
  rw [planes, Set.mem_union, Set.mem_union, ← mul_div_four hwidth hheight, mem_plane_iff, mem_plane_iff,
    mem_plane_iff, or_assoc]
  simp only [mem_yuyvToI420_planes hwidth]
  constructor
  · rintro ⟨s, ⟨r, hr, c, hc, rfl⟩ | ⟨r, hr, c, hc, rfl⟩ | ⟨r, hr, c, hc, rfl⟩, rfl⟩
    · exact .inl ⟨r, hr, c, hc, rfl⟩
    · exact .inr (.inl ⟨r, hr, c, hc, rfl⟩)
    · exact .inr (.inr ⟨r, hr, c, hc, rfl⟩)
  · rintro (⟨r, hr, c, hc, rfl⟩ | ⟨r, hr, c, hc, rfl⟩ | ⟨r, hr, c, hc, rfl⟩)
    · exact ⟨_, .inl ⟨r, hr, c, hc, rfl⟩, rfl⟩
    · exact ⟨_, .inr (.inl ⟨r, hr, c, hc, rfl⟩), rfl⟩
    · exact ⟨_, .inr (.inr ⟨r, hr, c, hc, rfl⟩), rfl⟩

/-- The address tells the plane, and in the plane the row and the column. -/
theorem eq_of_addr_eq (hwidth : width % 2 = 0) (hheight : height % 2 = 0)
    (hapart : PlanesApart dstY dstU dstV (width * height)) {s t : Store UInt8}
    (hs : s ∈ yuyvToI420 stride dstY dstU dstV width height)
    (ht : t ∈ yuyvToI420 stride dstY dstU dstV width height) (h : s.addr = t.addr) : s = t := by
  have hluma : ∀ {r c}, r < height → c < width →
      dstY + r * width + c ∈ Set.Ico dstY (dstY + width * height) := fun hr hc ↦
    mem_plane_iff.2 ⟨_, hr, _, hc, rfl⟩
  have hchroma : ∀ {dst r c}, r < height / 2 → c < width / 2 →
      dst + r * (width / 2) + c ∈ Set.Ico dst (dst + width * height / 4) := fun hr hc ↦ by
    rw [← mul_div_four hwidth hheight]
    exact mem_plane_iff.2 ⟨_, hr, _, hc, rfl⟩
  have hcell : ∀ {dst w r r' c c'}, c < w → c' < w → dst + r * w + c = dst + r' * w + c' →
      r = r' ∧ c = c' := fun hc hc' he ↦ row_inj hc hc' (by omega)
  have hne : ∀ {A B : Set ℕ} {a b : ℕ}, (∀ a ∈ A, a ∉ B) → a ∈ A → b ∈ B → a ≠ b :=
    fun hAB ha hb he ↦ hAB _ ha (he ▸ hb)
  -- Two assignments to one address are in one plane, and there at one place.
  rcases (mem_yuyvToI420_planes hwidth).1 hs with
    ⟨r, hr, c, hc, rfl⟩ | ⟨r, hr, c, hc, rfl⟩ | ⟨r, hr, c, hc, rfl⟩ <;>
  rcases (mem_yuyvToI420_planes hwidth).1 ht with
    ⟨r', hr', c', hc', rfl⟩ | ⟨r', hr', c', hc', rfl⟩ | ⟨r', hr', c', hc', rfl⟩
  · obtain ⟨rfl, rfl⟩ := hcell hc hc' h
    rfl
  · exact absurd h (hne hapart.lumaU (hluma hr hc) (hchroma hr' hc'))
  · exact absurd h (hne hapart.lumaV (hluma hr hc) (hchroma hr' hc'))
  · exact absurd h.symm (hne hapart.lumaU (hluma hr' hc') (hchroma hr hc))
  · obtain ⟨rfl, rfl⟩ := hcell hc hc' h
    rfl
  · exact absurd h (hne hapart.chroma (hchroma hr hc) (hchroma hr' hc'))
  · exact absurd h.symm (hne hapart.lumaV (hluma hr' hc') (hchroma hr hc))
  · exact absurd h.symm (hne hapart.chroma (hchroma hr' hc') (hchroma hr hc))
  · obtain ⟨rfl, rfl⟩ := hcell hc hc' h
    rfl

/-- **What the conversion leaves in memory**, for planes that do not overlap. -/
theorem referencePlanes_run (hwidth : width % 2 = 0) (hheight : height % 2 = 0)
    (hapart : PlanesApart dstY dstU dstV (width * height)) (src m : ℕ → UInt8) :
    ReferencePlanes stride dstY dstU dstV width height src m
      (run src (yuyvToI420 stride dstY dstU dstV width height) m) := by
  have hrun : ∀ s ∈ yuyvToI420 stride dstY dstU dstV width height,
      run src (yuyvToI420 stride dstY dstU dstV width height) m s.addr = s.value src := fun s hs ↦
    run_addr_of_inj (fun s hs t ht ↦ eq_of_addr_eq hwidth hheight hapart hs ht) hs
  refine ⟨fun r hr c hc ↦ ?_, fun r hr c hc ↦ ?_, fun r hr c hc ↦ ?_, fun a ha ↦ ?_⟩
  · exact hrun _ ((mem_yuyvToI420_planes hwidth).2 (.inl ⟨r, hr, c, hc, rfl⟩))
  · rw [← toNat_roundedAverage]
    exact congrArg _ (hrun _ ((mem_yuyvToI420_planes hwidth).2 (.inr (.inl ⟨r, hr, c, hc, rfl⟩))))
  · rw [← toNat_roundedAverage]
    exact congrArg _ (hrun _ ((mem_yuyvToI420_planes hwidth).2 (.inr (.inr ⟨r, hr, c, hc, rfl⟩))))
  · refine run_of_forall_ne fun s hs h ↦ ha ?_
    exact (exists_addr_iff hwidth hheight a).1 ⟨s, hs, h⟩

/-- Every byte that is read lies in one of the rows. -/
theorem lt_of_mem_reads (hwidth : width % 2 = 0) (hstride : 2 * width ≤ stride) {a : ℕ}
    (ha : a ∈ reads (yuyvToI420 stride dstY dstU dstV width height)) : a < stride * height := by
  obtain ⟨s, hs, ha⟩ := mem_reads.1 ha
  -- A row of the frame begins at a multiple of the stride, and its samples lie in front of the next.
  have hsample : ∀ {r x}, r < height → x < stride → r * stride + x < stride * height := row_lt
  have hpair : ∀ {r x y}, r < height / 2 → x + y < stride →
      a ∈ [2 * r * stride + x + y, (2 * r + 1) * stride + x + y] → a < stride * height := by
    intro r x y hr hxy ha
    rcases List.mem_cons.1 ha with rfl | ha
    · rw [Nat.add_assoc]
      exact hsample (by omega) hxy
    · rw [List.mem_singleton.1 ha, Nat.add_assoc]
      exact hsample (by omega) hxy
  rcases (mem_yuyvToI420_planes hwidth).1 hs with
    ⟨r, hr, c, hc, rfl⟩ | ⟨r, hr, c, hc, rfl⟩ | ⟨r, hr, c, hc, rfl⟩
  · rw [List.mem_singleton.1 ha]
    exact hsample hr (by omega)
  · exact hpair hr (by omega) ha
  · exact hpair hr (by omega) ha

end

/-! ### The scratch buffer -/

/-- `i420_size` in `encoder_worker_create`, a `size_t`. -/
def encoderWorkerScratch (width height : UInt32) : ℕ :=
  width.toNat * height.toNat * 3 % 2 ^ 64 / 2

/-- The size does not wrap for frames that a buffer can hold. -/
theorem encoderWorkerScratch_eq {width height : UInt32} (h : 2 * (width.toNat * height.toNat) < 2 ^ 63) :
    encoderWorkerScratch width height = width.toNat * height.toNat * 3 / 2 := by
  rw [encoderWorkerScratch, Nat.mod_eq_of_lt (by omega)]

/-- **The planes of the worker** lie behind each other and fill the scratch buffer. -/
theorem planes_worker {width height : ℕ} (hwidth : width % 2 = 0) (hheight : height % 2 = 0) :
    PlanesApart 0 (width * height) (width * height + width * height / 4) (width * height) ∧
      planes 0 (width * height) (width * height + width * height / 4) (width * height) =
        Set.Ico 0 (width * height * 3 / 2) := by
  have hfour : width * height = 4 * (width * height / 4) := by
    rw [← mul_div_four hwidth hheight]
    exact mul_eq_four_mul hwidth hheight
  refine ⟨⟨?_, ?_, ?_⟩, ?_⟩
  · exact fun a ha hb ↦ by rw [Set.mem_Ico] at ha hb; omega
  · exact fun a ha hb ↦ by rw [Set.mem_Ico] at ha hb; omega
  · exact fun a ha hb ↦ by rw [Set.mem_Ico] at ha hb; omega
  · ext a
    rw [planes, Set.mem_union, Set.mem_union, Set.mem_Ico, Set.mem_Ico, Set.mem_Ico, Set.mem_Ico]
    omega

/-- The worker converts a YUYV frame into these planes. -/
theorem encoderThreadConvert_yuyv {frame : Frame} (hformat : frame.format = v4l2PixFmtYuyv)
    (hstride : 2 * frame.width.toNat ≤ frame.stride.toNat) :
    encoderThreadConvert frame = yuyvToI420 frame.stride.toNat 0
      (frame.width.toNat * frame.height.toNat)
      (frame.width.toNat * frame.height.toNat + frame.width.toNat * frame.height.toNat / 4)
      frame.width.toNat frame.height.toNat := by
  -- A frame without a stride has no width either.
  have hsame : (if frame.stride ≠ 0 then frame.stride else frame.width * 2) = frame.stride := by
    split_ifs with hzero
    · rfl
    · rw [not_not.1 hzero] at hstride ⊢
      have hwidth : frame.width = 0 := UInt32.toNat_inj.1 (by simpa using hstride)
      rw [hwidth]
      rfl
  rw [encoderThreadConvert, if_pos hformat, hsame]
  simp only [Nat.zero_add]

/-- **The conversion is the reference conversion.** For every even width and height, every stride that
holds a row and every buffer that holds the rows, wherever the planes are: nothing is read outside the
buffer, the bytes that are written are those of the planes, and if the planes do not overlap they hold the
reference conversion. The encode worker's planes do not overlap, and together they are its scratch
buffer. -/
theorem yuyvToI420_reference {width height stride : UInt32} (hwidth : width.toNat % 2 = 0)
    (hheight : height.toNat % 2 = 0) (hstride : 2 * width.toNat ≤ stride.toNat) {size : ℕ}
    (hsize : stride.toNat * height.toNat ≤ size) :
    (∀ dstY dstU dstV,
      (∀ a ∈ reads (yuyvToI420Loops stride.toNat dstY dstU dstV width.toNat height.toNat), a < size) ∧
      (∀ a, (∃ s ∈ yuyvToI420Loops stride.toNat dstY dstU dstV width.toNat height.toNat, s.addr = a) ↔
        a ∈ planes dstY dstU dstV (width.toNat * height.toNat)) ∧
      (PlanesApart dstY dstU dstV (width.toNat * height.toNat) → ∀ src m,
        ReferencePlanes stride.toNat dstY dstU dstV width.toNat height.toNat src m
          (run src (yuyvToI420Loops stride.toNat dstY dstU dstV width.toNat height.toNat) m))) ∧
    (∀ frame : Frame, frame.format = v4l2PixFmtYuyv → frame.width = width → frame.height = height →
      frame.stride = stride →
        ∃ dstY dstU dstV, encoderThreadConvert frame =
            yuyvToI420Loops stride.toNat dstY dstU dstV width.toNat height.toNat ∧
          PlanesApart dstY dstU dstV (width.toNat * height.toNat) ∧
          planes dstY dstU dstV (width.toNat * height.toNat) =
            Set.Ico 0 (width.toNat * height.toNat * 3 / 2)) ∧
    (size < 2 ^ 63 → encoderWorkerScratch width height = width.toNat * height.toNat * 3 / 2) := by
  simp only [yuyvToI420Loops_eq]
  refine ⟨fun dstY dstU dstV ↦ ⟨fun a ha ↦ ?_, ?_, ?_⟩, ?_, fun hobject ↦ ?_⟩
  · exact Nat.lt_of_lt_of_le (lt_of_mem_reads hwidth hstride ha) hsize
  · exact exists_addr_iff hwidth hheight
  · exact fun hapart ↦ referencePlanes_run hwidth hheight hapart
  · rintro frame hformat rfl rfl rfl
    obtain ⟨hapart, hfill⟩ := planes_worker hwidth hheight
    exact ⟨_, _, _, encoderThreadConvert_yuyv hformat hstride, hapart, hfill⟩
  · have hrows : 2 * width.toNat * height.toNat ≤ stride.toNat * height.toNat :=
      Nat.mul_le_mul_right _ hstride
    rw [Nat.mul_assoc] at hrows
    exact encoderWorkerScratch_eq (by omega)

/-- A frame of two rows of four pixels, padded to ten bytes a row. -/
theorem yuyvToI420_reference_sample :
    (∀ dstY dstU dstV,
      (∀ a ∈ reads (yuyvToI420Loops 10 dstY dstU dstV 4 2), a < 20) ∧
      (∀ a, (∃ s ∈ yuyvToI420Loops 10 dstY dstU dstV 4 2, s.addr = a) ↔
        a ∈ planes dstY dstU dstV (4 * 2)) ∧
      (PlanesApart dstY dstU dstV (4 * 2) → ∀ src m,
        ReferencePlanes 10 dstY dstU dstV 4 2 src m (run src (yuyvToI420Loops 10 dstY dstU dstV 4 2) m))) ∧
    (∀ frame : Frame, frame.format = v4l2PixFmtYuyv → frame.width = 4 → frame.height = 2 →
      frame.stride = 10 →
        ∃ dstY dstU dstV, encoderThreadConvert frame = yuyvToI420Loops 10 dstY dstU dstV 4 2 ∧
          PlanesApart dstY dstU dstV (4 * 2) ∧
          planes dstY dstU dstV (4 * 2) = Set.Ico 0 (4 * 2 * 3 / 2)) ∧
    (20 < 2 ^ 63 → encoderWorkerScratch 4 2 = 4 * 2 * 3 / 2) :=
  @yuyvToI420_reference 4 2 10 (by decide) (by decide) (by decide) 20 (by decide)

end Camstream
