import Camstream.Lib.CBuffer
import Camstream.Lib.Decimal
import Camstream.Lib.Loops
import Camstream.Lib.Memory

/-!
# The synthetic test source

`src/media/test_source.c`: a picture of color bars with a moving marker and a frame counter below them. What
`render_frame` does to a buffer is a list of assignments, in the order of the source; an access outside
`digits` or the font has no result.

`renderFrame_isSome_iff` says when a picture is rendered: as long as the counter fits its twelve bytes.
`run_renderFrame` is the picture, pixel by pixel: whatever was in the buffer before, it is not seen. The
coordinates of the counter are computed modulo `2 ^ 32` and may lie left of a narrow picture; `CounterLit`
has them as integers, so digits are cut off at the edge and never wrap around.
-/

namespace Camstream

open Memory CString Loops

/-- `DIGIT_GLYPHS` -/
def digitGlyphs : List (List UInt8) :=
  [[0x07, 0x05, 0x05, 0x05, 0x07], [0x02, 0x06, 0x02, 0x02, 0x07], [0x07, 0x01, 0x07, 0x04, 0x07],
    [0x07, 0x01, 0x07, 0x01, 0x07], [0x05, 0x05, 0x07, 0x01, 0x01], [0x07, 0x04, 0x07, 0x01, 0x07],
    [0x07, 0x04, 0x07, 0x05, 0x07], [0x07, 0x01, 0x02, 0x02, 0x02], [0x07, 0x05, 0x07, 0x05, 0x07],
    [0x07, 0x05, 0x07, 0x01, 0x07]]

/-- A color of `BARS`. -/
structure BarColor where
  y : UInt8
  u : UInt8
  v : UInt8
  deriving DecidableEq, Repr

/-- `BARS` -/
def barColors : List BarColor :=
  [⟨180, 128, 128⟩, ⟨168, 44, 136⟩, ⟨145, 72, 54⟩, ⟨133, 84, 72⟩, ⟨63, 172, 72⟩, ⟨51, 184, 54⟩,
    ⟨28, 212, 114⟩, ⟨16, 128, 128⟩]

/-- The four bytes of two pixels: `Y0 U Y1 V`. -/
def macropixel (offset : ℕ) (y u v : UInt8) : List (Store UInt8) :=
  [.const offset y, .const (offset + 1) u, .const (offset + 2) y, .const (offset + 3) v]

/-- A pixel of a digit, in the macropixel it belongs to. -/
def digitPixel (stride rowY x : UInt32) : List (Store UInt8) :=
  let mac := rowY.toNat * stride.toNat + (x / 2).toNat * 4
  [.const (if x &&& 1 = 0 then mac else mac + 2) 235, .const (mac + 1) 128, .const (mac + 3) 128]

/-- `draw_digit` -/
def drawDigit (stride x0 y0 scale : UInt32) (digit : ℕ) : Option (List (Store UInt8)) := do
  let width := stride / 2
  let glyph ← digitGlyphs[digit]?
  return glyph.zipIdx.flatMap fun row ↦ (List.range 3).flatMap fun gx ↦
    let bits := row.1
    let gy := row.2
    if ¬ bits.toNat.testBit (2 - gx) then []
    else (countUp scale).flatMap fun sy ↦
      let rowY := y0 + UInt32.ofNat gy * scale + sy
      if 10000 ≤ rowY then []
      else (countUp scale).flatMap fun sx ↦
        let x := x0 + UInt32.ofNat gx * scale + sx
        if width ≤ x then [] else digitPixel stride rowY x

/-- `bars_h` -/
def barsHeight (height : UInt32) : UInt32 := height * 3 / 4

/-- The color that the loop over the bars has for a pair of pixels. -/
def pairColor (width x : UInt32) : BarColor :=
  let barW := width / 8
  let bar := x * 2 / barW
  let idx := if bar < 8 then bar else 7
  barColors.getD idx.toNat ⟨0, 0, 0⟩

/-- The loop over a row. -/
def renderRow (width row : UInt32) (color : UInt32 → BarColor) : List (Store UInt8) :=
  let stride := width * 2
  (countUp (width / 2)).flatMap fun x ↦
    macropixel (row.toNat * stride.toNat + 4 * x.toNat) (color x).y (color x).u (color x).v

/-- The color bars, and the dark background of the strip below them. -/
def renderBars (width height : UInt32) : List (Store UInt8) :=
  let barsH := barsHeight height
  (countUp barsH).flatMap (fun row ↦ renderRow width row (pairColor width)) ++
    (countUp (height - barsH)).flatMap fun i ↦ renderRow width (barsH + i) fun _ ↦ ⟨32, 128, 128⟩

/-- `marker_x` -/
def markerX (width height fps : UInt32) (sequence : UInt64) : UInt32 :=
  let markerSize := height / 12
  let sweepSteps := if 1 < fps then fps - 1 else 1
  (sequence % fps.toUInt64 * (width - markerSize).toUInt64 / sweepSteps.toUInt64).toUInt32 &&& ~~~ 1

/-- `marker_row` -/
def markerRow (height : UInt32) : UInt32 :=
  let barsH := barsHeight height
  barsH + (height - barsH) / 2 - height / 12 / 2

/-- The moving marker. -/
def renderMarker (width height fps : UInt32) (sequence : UInt64) : List (Store UInt8) :=
  let stride := width * 2
  let markerSize := height / 12
  let markerRow := markerRow height
  let markerX := markerX width height fps sequence
  ((countUp markerSize).takeWhile fun row ↦ markerRow + row < height).flatMap fun row ↦
    (((countUp ((markerSize + 1) / 2)).map (· * 2)).takeWhile fun x ↦ markerX + x + 1 < width).flatMap fun x ↦
      macropixel ((markerRow + row).toNat * stride.toNat + (markerX + x).toNat * 2) 235 128 128

/-- `x0`, when the loop over `digits` has come to one of them. -/
def counterX (width height : UInt32) (count i : ℕ) : UInt32 :=
  let scale := height / 96
  let glyphW := 3 * scale + scale
  width - UInt32.ofNat count * glyphW - scale * 2 + UInt32.ofNat i * glyphW

/-- `y0` -/
def counterY (height : UInt32) : UInt32 :=
  let barsH := barsHeight height
  let scale := height / 96
  barsH + (height - barsH - 5 * scale) / 2

/-- A turn of the loop over `digits`. -/
def drawCounterDigit (width height : UInt32) (digits : List UInt8) (count i : ℕ) :
    Option (List (Store UInt8)) := do
  let stride := width * 2
  let scale := height / 96
  let c ← digits[i]?
  if 0x30 ≤ c ∧ c ≤ 0x39 then
    drawDigit stride (counterX width height count i) (counterY height) scale (c.toNat - 0x30)
  else return []

/-- The frame counter. -/
def renderCounter (width height : UInt32) (sequence : UInt64) : Option (List (Store UInt8)) := do
  let text := decimal sequence.toNat
  let digits := CBuffer.printed 12 text
  let count := text.length
  let drawn ← (List.range count).mapM (drawCounterDigit width height digits count)
  return drawn.flatten

/-- `render_frame` -/
def renderFrame (width height fps : UInt32) (sequence : UInt64) : Option (List (Store UInt8)) := do
  let counter ← renderCounter width height sequence
  return renderBars width height ++ renderMarker width height fps sequence ++ counter

/-! ### The picture -/

/-- A size that `test_source_create` accepts; `stride` and `height * 3` do not wrap. -/
structure TestSize (width height : UInt32) : Prop where
  wide : 64 ≤ width.toNat
  tall : 48 ≤ height.toNat
  even : width.toNat % 2 = 0
  stride_lt : width.toNat < 2 ^ 31
  rows_lt : height.toNat * 3 < 2 ^ 32

/-- The address of a byte of a pixel: of its luma for `c = 0`, of the chroma beside it for `c = 1`. -/
def pixelByte (w row x c : ℕ) : ℕ := row * (2 * w) + (2 * x + c)

/-- The chroma that is stored beside a pixel. -/
def BarColor.chroma (color : BarColor) (x : ℕ) : UInt8 := if x % 2 = 0 then color.u else color.v

/-- The bar of a column. -/
def barColor (w x : ℕ) : BarColor := barColors.getD (min (x / 2 * 2 / (w / 8)) 7) ⟨0, 0, 0⟩

/-- What is behind the marker and the counter. -/
def background (w h row x : ℕ) : BarColor := if row < h * 3 / 4 then barColor w x else ⟨32, 128, 128⟩

/-- A pixel of the marker. -/
def MarkerLit (width height fps : UInt32) (sequence : UInt64) (row x : ℕ) : Prop :=
  let size := height.toNat / 12
  let left := (markerX width height fps sequence).toNat
  (markerRow height).toNat ≤ row ∧ row < (markerRow height).toNat + size ∧
    x < width.toNat ∧ left ≤ x ∧ x < left + (size + 1) / 2 * 2

/-- A lit cell of the glyph of a digit. -/
def GlyphLit (c : UInt8) (gy gx : ℕ) : Prop :=
  ∃ glyph bits, digitGlyphs[c.toNat - 0x30]? = some glyph ∧ glyph[gy]? = some bits ∧
    gx < 3 ∧ bits.toNat.testBit (2 - gx)

/-- A lit pixel of the frame counter, which is at the right edge and has at most eleven digits. -/
def CounterLit (w h sequence row x : ℕ) : Prop :=
  let scale := h / 96
  let text := decimal sequence
  row < 10000 ∧ x < w ∧ ∃ (i gy gx sy sx : ℕ) (c : UInt8), (text.take 11)[i]? = some c ∧ GlyphLit c gy gx ∧
    sy < scale ∧ sx < scale ∧ row = h * 3 / 4 + (h - h * 3 / 4 - 5 * scale) / 2 + gy * scale + sy ∧
    x + text.length * (4 * scale) + 2 * scale = w + i * (4 * scale) + gx * scale + sx

/-- A buffer shows the picture with a number. -/
structure ShowsPattern (width height fps : UInt32) (sequence : UInt64) (m : ℕ → UInt8) : Prop where
  bars : ∀ row < height.toNat * 3 / 4, ∀ x < width.toNat,
    m (pixelByte width.toNat row x 0) = (barColor width.toNat x).y ∧
      m (pixelByte width.toNat row x 1) = (barColor width.toNat x).chroma x
  gray : ∀ row < height.toNat, height.toNat * 3 / 4 ≤ row → ∀ x < width.toNat,
    m (pixelByte width.toNat row x 1) = 128
  lit : ∀ row < height.toNat, height.toNat * 3 / 4 ≤ row → ∀ x < width.toNat,
    MarkerLit width height fps sequence row x ∨ CounterLit width.toNat height.toNat sequence.toNat row x →
      m (pixelByte width.toNat row x 0) = 235
  dark : ∀ row < height.toNat, height.toNat * 3 / 4 ≤ row → ∀ x < width.toNat,
    ¬ (MarkerLit width height fps sequence row x ∨
      CounterLit width.toNat height.toNat sequence.toNat row x) →
      m (pixelByte width.toNat row x 0) = 32

/-! ### The bytes of a pixel -/

/-- No two pixels share a byte. -/
theorem pixelByte_inj {w row row' x x' c c' : ℕ} (hx : x < w) (hx' : x' < w) (hc : c < 2) (hc' : c' < 2)
    (h : pixelByte w row x c = pixelByte w row' x' c') : row = row' ∧ x = x' ∧ c = c' := by
  obtain ⟨hrow, hcol⟩ := row_inj (by omega) (by omega) h
  omega

/-- The bytes of the pixels are inside the frame. -/
theorem pixelByte_lt {w h row x c : ℕ} (hrow : row < h) (hx : x < w) (hc : c < 2) :
    pixelByte w row x c < 2 * w * h :=
  row_lt hrow (by omega)

/-- Every byte of the picture belongs to a pixel. -/
theorem exists_pixelByte {w h a : ℕ} (ha : a < 2 * w * h) :
    ∃ row < h, ∃ x < w, ∃ c < 2, a = pixelByte w row x c := by
  obtain ⟨row, hrow, col, hcol, rfl⟩ := lt_iff_exists_row.1 ha
  exact ⟨row, hrow, col / 2, by omega, col % 2, by omega, by rw [pixelByte]; omega⟩

/-- Four bytes are two pixels with one chroma. -/
theorem mem_macropixel {w row k : ℕ} {y u v : UInt8} {s : Store UInt8} :
    s ∈ macropixel (row * (2 * w) + 4 * k) y u v ↔ ∃ x, x / 2 = k ∧
      (s = .const (pixelByte w row x 0) y ∨ s = .const (pixelByte w row x 1) (if x % 2 = 0 then u else v)) := by
  have h0 : pixelByte w row (2 * k) 0 = row * (2 * w) + 4 * k := by rw [pixelByte]; omega
  have h1 : pixelByte w row (2 * k) 1 = row * (2 * w) + 4 * k + 1 := by rw [pixelByte]; omega
  have h2 : pixelByte w row (2 * k + 1) 0 = row * (2 * w) + 4 * k + 2 := by rw [pixelByte]; omega
  have h3 : pixelByte w row (2 * k + 1) 1 = row * (2 * w) + 4 * k + 3 := by rw [pixelByte]; omega
  have heven : (if 2 * k % 2 = 0 then u else v) = u := if_pos (Nat.mul_mod_right 2 k)
  have hodd : (if (2 * k + 1) % 2 = 0 then u else v) = v := if_neg (by omega)
  simp only [macropixel, List.mem_cons, List.not_mem_nil, or_false]
  constructor
  · rintro (rfl | rfl | rfl | rfl)
    · exact ⟨2 * k, by omega, .inl (by rw [h0])⟩
    · exact ⟨2 * k, by omega, .inr (by rw [h1, heven])⟩
    · exact ⟨2 * k + 1, by omega, .inl (by rw [h2])⟩
    · exact ⟨2 * k + 1, by omega, .inr (by rw [h3, hodd])⟩
  · rintro ⟨x, hx, hs⟩
    obtain rfl | rfl : x = 2 * k ∨ x = 2 * k + 1 := by omega
    · rw [h0, h1, heven] at hs
      exact hs.elim .inl fun hs ↦ .inr (.inl hs)
    · rw [h2, h3, hodd] at hs
      exact hs.elim (fun hs ↦ .inr (.inr (.inl hs))) fun hs ↦ .inr (.inr (.inr hs))


/-! ### The parts of the picture -/

/-- `x & ~1u` is the even number below. -/
theorem toNat_and_not_one (x : UInt32) : (x &&& ~~~ 1).toNat = x.toNat / 2 * 2 := by
  have hlt := x.toNat_lt
  have hmask : (~~~ 1 : UInt32).toNat / 2 = 2 ^ 31 - 1 := rfl
  have hdiv : (x &&& ~~~ 1).toNat / 2 = x.toNat / 2 := by
    rw [UInt32.toNat_and, Nat.and_div_two, hmask, Nat.and_two_pow_sub_one_eq_mod, Nat.mod_eq_of_lt (by omega)]
  have hmod : (x &&& ~~~ 1).toNat % 2 = 0 := by
    have hone : (~~~ 1 : UInt32).toNat &&& 1 = 0 := rfl
    rw [← Nat.and_one_is_mod, UInt32.toNat_and, Nat.and_assoc, hone, Nat.and_zero]
  omega

namespace TestSize

variable {width height fps : UInt32} {sequence : UInt64} {s : Store UInt8}

theorem toNat_stride (hsize : TestSize width height) : (width * 2).toNat = 2 * width.toNat := by
  have h2 : (2 : UInt32).toNat = 2 := rfl
  have hlt := hsize.stride_lt
  rw [UInt32.toNat_mul, h2]
  omega

/-- Nothing wraps around in the sizes that are allowed. -/
theorem toNat_barsHeight (hsize : TestSize width height) :
    (barsHeight height).toNat = height.toNat * 3 / 4 := by
  have h3 : (3 : UInt32).toNat = 3 := rfl
  have h4 : (4 : UInt32).toNat = 4 := rfl
  rw [barsHeight, UInt32.toNat_div, UInt32.toNat_mul, h3, h4, Nat.mod_eq_of_lt hsize.rows_lt]

theorem toNat_sub_barsHeight (hsize : TestSize width height) :
    (height - barsHeight height).toNat = height.toNat - height.toNat * 3 / 4 := by
  have hle : barsHeight height ≤ height := by
    rw [UInt32.le_iff_toNat_le, hsize.toNat_barsHeight]
    omega
  rw [UInt32.toNat_sub_of_le _ _ hle, hsize.toNat_barsHeight]

theorem toNat_markerRow (hsize : TestSize width height) : (markerRow height).toNat =
    height.toNat * 3 / 4 + (height.toNat - height.toNat * 3 / 4) / 2 - height.toNat / 12 / 2 := by
  have h2 : (2 : UInt32).toNat = 2 := rfl
  have h12 : (12 : UInt32).toNat = 12 := rfl
  have hrows := hsize.rows_lt
  rw [markerRow, UInt32.toNat_sub, UInt32.toNat_add, UInt32.toNat_div, UInt32.toNat_div, UInt32.toNat_div,
    hsize.toNat_sub_barsHeight, hsize.toNat_barsHeight, h2, h12]
  omega

/-- Both pixels of a pair have the color of the bar. -/
theorem pairColor_eq (hsize : TestSize width height) {x : ℕ} (hx : x < width.toNat) :
    pairColor width (UInt32.ofNat (x / 2)) = barColor width.toNat x := by
  have h2 : (2 : UInt32).toNat = 2 := rfl
  have h7 : (7 : UInt32).toNat = 7 := rfl
  have h8 : (8 : UInt32).toNat = 8 := rfl
  have hlt := hsize.stride_lt
  have hk : (UInt32.ofNat (x / 2)).toNat = x / 2 :=
    UInt32.toNat_ofNat_of_lt (show x / 2 < 2 ^ 32 by omega)
  have hmul : (UInt32.ofNat (x / 2) * 2).toNat = x / 2 * 2 := by
    rw [UInt32.toNat_mul, hk, h2]
    omega
  have hidx : ∀ bar : UInt32, (if bar < 8 then bar else 7).toNat = min bar.toNat 7 := by
    intro bar
    simp only [UInt32.lt_iff_toNat_lt, h8]
    split_ifs with h
    · omega
    · rw [h7]
      omega
  rw [pairColor, barColor, hidx, UInt32.toNat_div, hmul, UInt32.toNat_div, h8]

/-- One row, as assignments to its pixels. -/
theorem mem_renderRow (hsize : TestSize width height) {row : UInt32} {color : UInt32 → BarColor} :
    s ∈ renderRow width row color ↔ ∃ x < width.toNat,
      s = .const (pixelByte width.toNat row.toNat x 0) (color (UInt32.ofNat (x / 2))).y ∨
      s = .const (pixelByte width.toNat row.toNat x 1) ((color (UInt32.ofNat (x / 2))).chroma x) := by
  have h2 : (2 : UInt32).toNat = 2 := rfl
  have heven := hsize.even
  have hhalf : (width / 2).toNat = width.toNat / 2 := by rw [UInt32.toNat_div, h2]
  rw [renderRow, mem_flatMap_countUp, hhalf, hsize.toNat_stride]
  constructor
  · rintro ⟨k, hk, hs⟩
    rw [toNat_ofNat_of_lt_toNat (hhalf ▸ hk)] at hs
    obtain ⟨x, rfl, hs⟩ := mem_macropixel.1 hs
    exact ⟨x, by omega, hs⟩
  · rintro ⟨x, hx, hs⟩
    have hk : x / 2 < width.toNat / 2 := by omega
    refine ⟨x / 2, hk, ?_⟩
    rw [toNat_ofNat_of_lt_toNat (hhalf ▸ hk)]
    exact mem_macropixel.2 ⟨x, rfl, hs⟩

/-- The bars and the dark part below them. -/
theorem mem_renderBars (hsize : TestSize width height) : s ∈ renderBars width height ↔
    ∃ row < height.toNat, ∃ x < width.toNat,
      s = .const (pixelByte width.toNat row x 0) (background width.toNat height.toNat row x).y ∨
      s = .const (pixelByte width.toNat row x 1) ((background width.toNat height.toNat row x).chroma x) := by
  have hbars := hsize.toNat_barsHeight
  have hstrip := hsize.toNat_sub_barsHeight
  have hrows := hsize.rows_lt
  -- The rows below the bars are counted from there.
  have hadd : ∀ i < (height - barsHeight height).toNat,
      (barsHeight height + UInt32.ofNat i).toNat = height.toNat * 3 / 4 + i := by
    intro i hi
    rw [UInt32.toNat_add, toNat_ofNat_of_lt_toNat hi, hbars]
    omega
  rw [renderBars, List.mem_append, mem_flatMap_countUp, mem_flatMap_countUp]
  simp only [hsize.mem_renderRow]
  constructor
  · rintro (⟨row, hrow, x, hx, hs⟩ | ⟨i, hi, x, hx, hs⟩)
    · refine ⟨row, by omega, x, hx, ?_⟩
      rw [toNat_ofNat_of_lt_toNat hrow, hsize.pairColor_eq hx] at hs
      rwa [background, if_pos (hbars ▸ hrow)]
    · refine ⟨height.toNat * 3 / 4 + i, by omega, x, hx, ?_⟩
      rwa [background, if_neg (by omega), ← hadd i hi]
  · rintro ⟨row, hrow, x, hx, hs⟩
    rw [background] at hs
    split_ifs at hs with hbar
    · refine .inl ⟨row, hbars ▸ hbar, x, hx, ?_⟩
      rwa [toNat_ofNat_of_lt_toNat (hbars ▸ hbar), hsize.pairColor_eq hx]
    · have hi : row - height.toNat * 3 / 4 < (height - barsHeight height).toNat := by omega
      refine .inr ⟨row - height.toNat * 3 / 4, hi, x, hx, ?_⟩
      rwa [hadd _ hi, Nat.add_sub_cancel' (Nat.le_of_not_lt hbar)]

/-- The marker begins at a pair. -/
theorem markerX_even (width height fps : UInt32) (sequence : UInt64) :
    (markerX width height fps sequence).toNat % 2 = 0 := by
  rw [markerX, toNat_and_not_one, Nat.mul_mod_left]

/-- The rows of the marker. -/
theorem mem_markerRows (hsize : TestSize width height) {row : UInt32} :
    row ∈ (countUp (height / 12)).takeWhile (fun row ↦ markerRow height + row < height) ↔
      row.toNat < height.toNat / 12 := by
  have h12 : (12 : UInt32).toNat = 12 := rfl
  have hdiv : (height / 12).toNat = height.toNat / 12 := by rw [UInt32.toNat_div, h12]
  have hrows := hsize.rows_lt
  have htop := hsize.toNat_markerRow
  rw [countUp, mem_takeWhile_map_range, hdiv]
  constructor
  · rintro ⟨k, hk, rfl, -⟩
    rwa [toNat_ofNat_of_lt_toNat (hdiv ▸ hk)]
  · intro hrow
    refine ⟨row.toNat, hrow, UInt32.ofNat_toNat.symm, fun j hj ↦ decide_eq_true ?_⟩
    rw [UInt32.lt_iff_toNat_lt, UInt32.toNat_add, toNat_ofNat_of_lt_toNat (n := height) (by omega)]
    omega

/-- The pairs of columns of the marker: the loop ends at the right edge, where the sum does not wrap yet. -/
theorem mem_markerColumns (hsize : TestSize width height) {left x : UInt32} (hleft : left.toNat % 2 = 0) :
    x ∈ ((countUp ((height / 12 + 1) / 2)).map (· * 2)).takeWhile (fun x ↦ left + x + 1 < width) ↔
      ∃ k < (height.toNat / 12 + 1) / 2, x.toNat = 2 * k ∧ left.toNat + 2 * k + 1 < width.toNat := by
  have h1 : (1 : UInt32).toNat = 1 := rfl
  have h2 : (2 : UInt32).toNat = 2 := rfl
  have h12 : (12 : UInt32).toNat = 12 := rfl
  have hrows := hsize.rows_lt
  have hstride := hsize.stride_lt
  have hlt := left.toNat_lt
  have hcount : ((height / 12 + 1) / 2).toNat = (height.toNat / 12 + 1) / 2 := by
    rw [UInt32.toNat_div, UInt32.toNat_add, UInt32.toNat_div, h1, h2, h12]
    omega
  -- Neither the column nor the sum wraps around before the loop ends.
  have hmul : ∀ k < (height.toNat / 12 + 1) / 2, (UInt32.ofNat k * 2).toNat = 2 * k := by
    intro k hk
    rw [UInt32.toNat_mul, toNat_ofNat_of_lt_toNat (hcount ▸ hk), h2]
    omega
  have hsum : ∀ k < (height.toNat / 12 + 1) / 2,
      (left + UInt32.ofNat k * 2 + 1).toNat = (left.toNat + 2 * k + 1) % 2 ^ 32 := by
    intro k hk
    rw [UInt32.toNat_add, UInt32.toNat_add, hmul k hk, h1]
    omega
  rw [countUp, List.map_map, mem_takeWhile_map_range, hcount]
  simp only [Function.comp_apply, decide_eq_true_eq, UInt32.lt_iff_toNat_lt]
  constructor
  · rintro ⟨k, hk, rfl, hall⟩
    have h0 := hall 0 (Nat.zero_le k)
    have hlast := hall k (Nat.le_refl k)
    rw [hsum 0 (by omega)] at h0
    rw [hsum k hk] at hlast
    exact ⟨k, hk, hmul k hk, by omega⟩
  · rintro ⟨k, hk, hx, hlast⟩
    refine ⟨k, hk, UInt32.toNat_inj.1 (hx.trans (hmul k hk).symm), fun j hj ↦ ?_⟩
    rw [hsum j (by omega)]
    omega

/-- The marker is lit where `MarkerLit` says, in full pairs. -/
theorem mem_renderMarker (hsize : TestSize width height) : s ∈ renderMarker width height fps sequence ↔
    ∃ row x, MarkerLit width height fps sequence row x ∧
      (s = .const (pixelByte width.toNat row x 0) 235 ∨ s = .const (pixelByte width.toNat row x 1) 128) := by
  have heven := hsize.even
  have hleft := markerX_even width height fps sequence
  have htop := hsize.toNat_markerRow
  have hrows := hsize.rows_lt
  have hstride := hsize.stride_lt
  have hchroma : ∀ x : ℕ, (if x % 2 = 0 then 128 else 128 : UInt8) = 128 := fun x ↦ ite_self 128
  -- The address that the code computes is that of a macropixel of the frame.
  have haddr : ∀ {row x : UInt32} {k : ℕ}, row.toNat < height.toNat / 12 → x.toNat = 2 * k →
      (markerX width height fps sequence).toNat + 2 * k + 1 < width.toNat →
      (markerRow height + row).toNat * (width * 2).toNat + (markerX width height fps sequence + x).toNat * 2 =
        ((markerRow height).toNat + row.toNat) * (2 * width.toNat) +
          4 * (((markerX width height fps sequence).toNat + 2 * k) / 2) := by
    intro row x k hrow hx hlast
    rw [hsize.toNat_stride, UInt32.toNat_add, UInt32.toNat_add, hx, Nat.mod_eq_of_lt (by omega),
      Nat.mod_eq_of_lt (by omega)]
    omega
  rw [renderMarker]
  simp only [List.mem_flatMap, hsize.mem_markerRows, hsize.mem_markerColumns hleft]
  constructor
  · rintro ⟨row, hrow, x, ⟨k, hk, hx, hlast⟩, hs⟩
    rw [haddr hrow hx hlast, mem_macropixel] at hs
    obtain ⟨x', hx', hs⟩ := hs
    rw [hchroma] at hs
    exact ⟨_, x', ⟨Nat.le_add_right _ _, Nat.add_lt_add_left hrow _, by omega, by omega, by omega⟩, hs⟩
  · rintro ⟨row, x, ⟨hlo, hhi, hx, hxlo, hxhi⟩, hs⟩
    obtain ⟨i, rfl⟩ := Nat.exists_eq_add_of_le hlo
    have hi : i < height.toNat / 12 := Nat.lt_of_add_lt_add_left hhi
    have hi' : (UInt32.ofNat i).toNat = i := toNat_ofNat_of_lt_toNat (n := height) (by omega)
    have hk : (UInt32.ofNat (2 * ((x - (markerX width height fps sequence).toNat) / 2))).toNat =
        2 * ((x - (markerX width height fps sequence).toNat) / 2) :=
      toNat_ofNat_of_lt_toNat (n := width) (by omega)
    have hlast : (markerX width height fps sequence).toNat +
        2 * ((x - (markerX width height fps sequence).toNat) / 2) + 1 < width.toNat := by omega
    refine ⟨UInt32.ofNat i, by rwa [hi'], _, ⟨_, by omega, hk, hlast⟩, ?_⟩
    rw [haddr (by rwa [hi']) hk hlast, mem_macropixel]
    refine ⟨x, by omega, ?_⟩
    rw [hchroma, hi']
    exact hs

theorem length_of_mem_digitGlyphs {glyph : List UInt8} (h : glyph ∈ digitGlyphs) : glyph.length = 5 := by
  simp only [digitGlyphs, List.mem_cons, List.not_mem_nil, or_false] at h
  rcases h with rfl | rfl | rfl | rfl | rfl | rfl | rfl | rfl | rfl | rfl <;> rfl

/-- Ten digits have a glyph. -/
theorem exists_drawDigit {digit : ℕ} (h : digit < 10) (stride x0 y0 scale : UInt32) :
    ∃ stores, drawDigit stride x0 y0 scale digit = some stores := by
  have hglyph : digitGlyphs[digit]? = some digitGlyphs[digit] := List.getElem?_eq_getElem h
  rw [drawDigit, hglyph]
  exact ⟨_, rfl⟩

/-- The bytes of a pixel of a digit: its luma, and the chroma that it shares with its neighbor. -/
theorem mem_digitPixel (hsize : TestSize width height) {y x : UInt32} :
    s ∈ digitPixel (width * 2) y x ↔ s = .const (pixelByte width.toNat y.toNat x.toNat 0) 235 ∨
      ∃ x', x' / 2 = x.toNat / 2 ∧ s = .const (pixelByte width.toNat y.toNat x' 1) 128 := by
  have h2 : (2 : UInt32).toNat = 2 := rfl
  have hand : (x &&& 1 = 0) ↔ x.toNat % 2 = 0 := by
    rw [← UInt32.toNat_inj, UInt32.toNat_and, ← Nat.and_one_is_mod]
    rfl
  have hbyte : ∀ x' c, pixelByte width.toNat y.toNat x' c = y.toNat * (2 * width.toNat) + (2 * x' + c) :=
    fun _ _ ↦ rfl
  simp only [digitPixel, hand, hsize.toNat_stride, UInt32.toNat_div, h2, List.mem_cons, List.not_mem_nil,
    or_false]
  refine or_congr ?_ ?_
  -- The offset of the luma byte depends on the side of the pair, that of the chroma does not.
  · have hluma : (if x.toNat % 2 = 0 then y.toNat * (2 * width.toNat) + x.toNat / 2 * 4
        else y.toNat * (2 * width.toNat) + x.toNat / 2 * 4 + 2) =
        pixelByte width.toNat y.toNat x.toNat 0 := by
      rw [hbyte]
      split_ifs <;> omega
    rw [hluma]
  · have hu : pixelByte width.toNat y.toNat (x.toNat / 2 * 2) 1 =
        y.toNat * (2 * width.toNat) + x.toNat / 2 * 4 + 1 := by
      rw [hbyte]
      omega
    have hv : pixelByte width.toNat y.toNat (x.toNat / 2 * 2 + 1) 1 =
        y.toNat * (2 * width.toNat) + x.toNat / 2 * 4 + 3 := by
      rw [hbyte]
      omega
    constructor
    · rintro (rfl | rfl)
      · exact ⟨x.toNat / 2 * 2, by omega, by rw [hu]⟩
      · exact ⟨x.toNat / 2 * 2 + 1, by omega, by rw [hv]⟩
    · rintro ⟨x', hx', rfl⟩
      obtain rfl | rfl : x' = x.toNat / 2 * 2 ∨ x' = x.toNat / 2 * 2 + 1 := by omega
      · exact .inl (by rw [hu])
      · exact .inr (by rw [hv])

/-- A digit is drawn as far as it is inside the picture. -/
theorem mem_drawDigit (hsize : TestSize width height) {x0 y0 scale : UInt32} {c : UInt8}
    {stores : List (Store UInt8)} (h : drawDigit (width * 2) x0 y0 scale (c.toNat - 0x30) = some stores) :
    s ∈ stores ↔ ∃ gy gx sy sx, GlyphLit c gy gx ∧ sy < scale.toNat ∧ sx < scale.toNat ∧
      (y0 + UInt32.ofNat gy * scale + UInt32.ofNat sy).toNat < 10000 ∧
      (x0 + UInt32.ofNat gx * scale + UInt32.ofNat sx).toNat < width.toNat ∧
      s ∈ digitPixel (width * 2) (y0 + UInt32.ofNat gy * scale + UInt32.ofNat sy)
        (x0 + UInt32.ofNat gx * scale + UInt32.ofNat sx) := by
  have h2 : (2 : UInt32).toNat = 2 := rfl
  have hy : (10000 : UInt32).toNat = 10000 := rfl
  have hwidth : width * 2 / 2 = width := by
    rw [← UInt32.toNat_inj, UInt32.toNat_div, hsize.toNat_stride, h2]
    omega
  rw [drawDigit, Option.bind_eq_bind, Option.bind_eq_some_iff] at h
  obtain ⟨glyph, hglyph, h⟩ := h
  obtain rfl := Option.some.inj h
  simp only [List.mem_flatMap, List.mem_range, Prod.exists, List.mk_mem_zipIdx_iff_getElem?]
  constructor
  · rintro ⟨bits, gy, hbits, gx, hgx, hs⟩
    split_ifs at hs with hbit
    swap
    · exact absurd hs List.not_mem_nil
    obtain ⟨sy, hsy, hs⟩ := mem_flatMap_countUp.1 hs
    split_ifs at hs with hrow
    · exact absurd hs List.not_mem_nil
    obtain ⟨sx, hsx, hs⟩ := mem_flatMap_countUp.1 hs
    rw [hwidth] at hs
    split_ifs at hs with hcol
    · exact absurd hs List.not_mem_nil
    -- The three tests that a pixel has passed: the glyph, the bottom row, and the right edge.
    rw [UInt32.le_iff_toNat_le, hy] at hrow
    rw [UInt32.le_iff_toNat_le] at hcol
    exact ⟨gy, gx, sy, sx, ⟨glyph, bits, hglyph, hbits, hgx, hbit⟩, hsy, hsx, Nat.lt_of_not_le hrow,
      Nat.lt_of_not_le hcol, hs⟩
  · rintro ⟨gy, gx, sy, sx, ⟨glyph', bits, hglyph', hbits, hgx, hbit⟩, hsy, hsx, hrow, hcol, hs⟩
    obtain rfl := Option.some.inj (hglyph.symm.trans hglyph')
    refine ⟨bits, gy, hbits, gx, hgx, ?_⟩
    rw [if_neg (not_not.2 hbit), mem_flatMap_countUp]
    refine ⟨sy, hsy, ?_⟩
    rw [if_neg (by rwa [UInt32.le_iff_toNat_le, hy, Nat.not_le]), mem_flatMap_countUp]
    refine ⟨sx, hsx, ?_⟩
    rw [hwidth, if_neg (by rwa [UInt32.le_iff_toNat_le, Nat.not_le])]
    exact hs

/-- A text of digits in an array of twelve bytes. -/
theorem printed_getElem?_isdigit {text : List UInt8} (htext : ∀ c ∈ text, isdigit c = true) {i : ℕ}
    {c : UInt8} : (CBuffer.printed 12 text)[i]? = some c ∧ (0x30 ≤ c ∧ c ≤ 0x39) ↔
      (text.take 11)[i]? = some c := by
  have hdigit : ∀ c : UInt8, isdigit c = true ↔ 0x30 ≤ c ∧ c ≤ 0x39 := by
    intro c
    rw [isdigit, Bool.and_eq_true, decide_eq_true_eq, decide_eq_true_eq]
  rw [CBuffer.printed, if_neg (by decide)]
  constructor
  · rintro ⟨h, hc⟩
    rcases Nat.lt_or_ge i (text.take 11).length with hlt | hge
    · rwa [List.getElem?_append_left hlt] at h
    · rw [List.getElem?_append_right hge, List.getElem?_singleton] at h
      split_ifs at h
      obtain rfl := Option.some.inj h
      exact absurd hc.1 (by decide)
  · intro h
    obtain ⟨hlt, -⟩ := List.getElem?_eq_some_iff.1 h
    refine ⟨by rwa [List.getElem?_append_left hlt], (hdigit c).1 (htext c ?_)⟩
    exact List.mem_of_mem_take (List.mem_of_getElem? h)

/-- A digit is drawn if the counter has one in this place. -/
theorem exists_drawCounterDigit_iff {digits : List UInt8} {count i : ℕ} :
    (∃ stores, drawCounterDigit width height digits count i = some stores) ↔ i < digits.length := by
  rw [drawCounterDigit]
  constructor
  · rintro ⟨stores, h⟩
    obtain ⟨c, hc, -⟩ := Option.bind_eq_some_iff.1 h
    exact (List.getElem?_eq_some_iff.1 hc).1
  · intro hi
    rw [List.getElem?_eq_getElem hi]
    rw [Option.bind_eq_bind, Option.bind_some]
    split_ifs with hc
    · refine exists_drawDigit ?_ _ _ _ _
      have hle := UInt8.le_iff_toNat_le.1 hc.2
      have h39 : (0x39 : UInt8).toNat = 0x39 := rfl
      omega
    · exact ⟨[], rfl⟩

/-- **When the counter is drawn**: as long as no more than the terminating zero is cut off. -/
theorem exists_renderCounter_iff (width height : UInt32) (sequence : UInt64) :
    (∃ stores, renderCounter width height sequence = some stores) ↔ sequence.toNat < 10 ^ 12 := by
  have hlength : (CBuffer.printed 12 (decimal sequence.toNat)).length =
      min 11 (decimal sequence.toNat).length + 1 := by
    rw [CBuffer.printed, if_neg (by decide), List.length_append, List.length_take, List.length_singleton]
  rw [← length_decimal_le_iff (by decide)]
  constructor
  · rintro ⟨stores, h⟩
    obtain ⟨drawn, hdrawn, -⟩ := Option.bind_eq_some_iff.1 h
    by_contra hlong
    have hlast := exists_drawCounterDigit_iff.1
      (exists_mapM_iff.1 ⟨drawn, hdrawn⟩ 12 (List.mem_range.2 (by omega)))
    omega
  · intro hshort
    have hturn : ∀ i ∈ List.range (decimal sequence.toNat).length, ∃ stores,
        drawCounterDigit width height (CBuffer.printed 12 (decimal sequence.toNat))
          (decimal sequence.toNat).length i = some stores := by
      intro i hi
      rw [List.mem_range] at hi
      exact exists_drawCounterDigit_iff.2 (by omega)
    obtain ⟨drawn, hdrawn⟩ := exists_mapM_iff.2 hturn
    exact ⟨_, Option.bind_eq_some_iff.2 ⟨drawn, hdrawn, rfl⟩⟩

theorem toNat_scale (height : UInt32) : (height / 96).toNat = height.toNat / 96 := by
  have h96 : (96 : UInt32).toNat = 96 := rfl
  rw [UInt32.toNat_div, h96]

/-- A product of 32-bit numbers that does not wrap. -/
theorem toNat_ofNat_mul {k n : ℕ} {m : UInt32} (hm : m.toNat = n) (h : k * n < 2 ^ 32) :
    (UInt32.ofNat k * m).toNat = k * n := by
  rw [UInt32.toNat_mul, UInt32.toNat_ofNat', hm, Nat.mod_mul_mod, Nat.mod_eq_of_lt h]

theorem toNat_counterY (hsize : TestSize width height) : (counterY height).toNat =
    height.toNat * 3 / 4 + (height.toNat - height.toNat * 3 / 4 - 5 * (height.toNat / 96)) / 2 := by
  have h2 : (2 : UInt32).toNat = 2 := rfl
  have hrows := hsize.rows_lt
  have h5 : (5 * (height / 96)).toNat = 5 * (height.toNat / 96) :=
    toNat_ofNat_mul (k := 5) (toNat_scale height) (by omega)
  have hle : 5 * (height / 96) ≤ height - barsHeight height := by
    rw [UInt32.le_iff_toNat_le, h5, hsize.toNat_sub_barsHeight]
    omega
  rw [counterY, UInt32.toNat_add, UInt32.toNat_div, UInt32.toNat_sub_of_le _ _ hle, h5,
    hsize.toNat_sub_barsHeight, hsize.toNat_barsHeight, h2]
  omega

/-- The rows of a digit are in the strip. -/
theorem toNat_counterRow (hsize : TestSize width height) {gy sy : ℕ} (hgy : gy < 5)
    (hsy : sy < (height / 96).toNat) :
    (counterY height + UInt32.ofNat gy * (height / 96) + UInt32.ofNat sy).toNat = height.toNat * 3 / 4 +
      (height.toNat - height.toNat * 3 / 4 - 5 * (height.toNat / 96)) / 2 + gy * (height.toNat / 96) + sy ∧
      height.toNat * 3 / 4 + (height.toNat - height.toNat * 3 / 4 - 5 * (height.toNat / 96)) / 2 +
        gy * (height.toNat / 96) + sy < height.toNat := by
  have hrows := hsize.rows_lt
  have hmul : gy * (height.toNat / 96) ≤ 4 * (height.toNat / 96) := Nat.mul_le_mul_right _ (by omega)
  rw [UInt32.toNat_add, UInt32.toNat_add, toNat_ofNat_mul (toNat_scale height) (by omega),
    toNat_ofNat_of_lt_toNat hsy, hsize.toNat_counterY]
  rw [toNat_scale] at hsy
  generalize gy * (height.toNat / 96) = g at *
  have hlt : height.toNat * 3 / 4 + (height.toNat - height.toNat * 3 / 4 - 5 * (height.toNat / 96)) / 2 +
      g + sy < height.toNat := by omega
  refine ⟨?_, hlt⟩
  have hheight := height.toNat_lt
  rw [Nat.mod_eq_of_lt (b := 2 ^ 32) (by omega), Nat.mod_eq_of_lt (by omega)]

/-- The columns of a digit: one that is left of the picture is right of it modulo `2 ^ 32`. -/
theorem eq_toNat_counterColumn_iff (hsize : TestSize width height) {count i gx sx x : ℕ}
    (hcount : count ≤ 12) (hi : i < count) (hgx : gx < 3) (hsx : sx < (height / 96).toNat)
    (hx : x < width.toNat) :
    x = (counterX width height count i + UInt32.ofNat gx * (height / 96) + UInt32.ofNat sx).toNat ↔
      x + count * (4 * (height.toNat / 96)) + 2 * (height.toNat / 96) =
        width.toNat + i * (4 * (height.toNat / 96)) + gx * (height.toNat / 96) + sx := by
  have hrows := hsize.rows_lt
  have hstride := hsize.stride_lt
  have hscale := toNat_scale height
  have hglyph : (3 * (height / 96) + height / 96).toNat = 4 * (height.toNat / 96) := by
    have h3 : (3 * (height / 96)).toNat = 3 * (height.toNat / 96) :=
      toNat_ofNat_mul (k := 3) hscale (by omega)
    rw [UInt32.toNat_add, h3, hscale]
    omega
  have hgxle : gx * (height.toNat / 96) ≤ 2 * (height.toNat / 96) := Nat.mul_le_mul_right _ (by omega)
  have hile : i * (4 * (height.toNat / 96)) ≤ 12 * (4 * (height.toNat / 96)) :=
    Nat.mul_le_mul_right _ (by omega)
  have hcountle : count * (4 * (height.toNat / 96)) ≤ 12 * (4 * (height.toNat / 96)) :=
    Nat.mul_le_mul_right _ hcount
  have hC : (UInt32.ofNat count * (3 * (height / 96) + height / 96)).toNat = _ :=
    toNat_ofNat_mul hglyph (by omega)
  have hI : (UInt32.ofNat i * (3 * (height / 96) + height / 96)).toNat = _ :=
    toNat_ofNat_mul hglyph (by omega)
  have hG : (UInt32.ofNat gx * (height / 96)).toNat = _ := toNat_ofNat_mul hscale (by omega)
  have h2 : (height / 96 * 2).toNat = 2 * (height.toNat / 96) := by
    rw [UInt32.mul_comm]
    exact toNat_ofNat_mul (k := 2) hscale (by omega)
  have hsx' := toNat_ofNat_of_lt_toNat hsx
  rw [hscale] at hsx
  have hx' : (UInt32.ofNat x).toNat = x := toNat_ofNat_of_lt_toNat hx
  rw [counterX]
  generalize UInt32.ofNat count * (3 * (height / 96) + height / 96) = c at *
  generalize UInt32.ofNat i * (3 * (height / 96) + height / 96) = d at *
  generalize UInt32.ofNat gx * (height / 96) = g at *
  generalize height / 96 * 2 = e at *
  -- the subtractions are undone on both sides, where nothing wraps
  have hleft : (UInt32.ofNat x + c + e).toNat =
      x + count * (4 * (height.toNat / 96)) + 2 * (height.toNat / 96) := by
    rw [UInt32.toNat_add, UInt32.toNat_add, hx', hC, h2, Nat.mod_eq_of_lt (b := 2 ^ 32) (by omega),
      Nat.mod_eq_of_lt (by omega)]
  have hright : (width + d + g + UInt32.ofNat sx).toNat =
      width.toNat + i * (4 * (height.toNat / 96)) + gx * (height.toNat / 96) + sx := by
    rw [UInt32.toNat_add, UInt32.toNat_add, UInt32.toNat_add, hI, hG, hsx',
      Nat.mod_eq_of_lt (b := 2 ^ 32) (by omega), Nat.mod_eq_of_lt (b := 2 ^ 32) (by omega),
      Nat.mod_eq_of_lt (by omega)]
  have hsum : width - c - e + d + g + UInt32.ofNat sx + c + e = width + d + g + UInt32.ofNat sx := by grind
  rw [← hleft, ← hright, UInt32.toNat_inj, ← hsum, UInt32.add_left_inj, UInt32.add_left_inj,
    ← UInt32.toNat_inj, hx']

theorem lt_of_glyphLit {c : UInt8} {gy gx : ℕ} (h : GlyphLit c gy gx) : gy < 5 ∧ gx < 3 := by
  obtain ⟨glyph, bits, hglyph, hbits, hgx, -⟩ := h
  refine ⟨?_, hgx⟩
  rw [← length_of_mem_digitGlyphs (List.mem_of_getElem? hglyph)]
  exact (List.getElem?_eq_some_iff.1 hbits).1

/-- The assignments of the counter are those of the lit cells of its digits. -/
theorem mem_renderCounter (hsize : TestSize width height) {counter : List (Store UInt8)}
    (h : renderCounter width height sequence = some counter) : s ∈ counter ↔
      ∃ i c gy gx sy sx, ((decimal sequence.toNat).take 11)[i]? = some c ∧ GlyphLit c gy gx ∧
        sy < (height / 96).toNat ∧ sx < (height / 96).toNat ∧
        (counterY height + UInt32.ofNat gy * (height / 96) + UInt32.ofNat sy).toNat < 10000 ∧
        (counterX width height (decimal sequence.toNat).length i + UInt32.ofNat gx * (height / 96) +
          UInt32.ofNat sx).toNat < width.toNat ∧
        s ∈ digitPixel (width * 2) (counterY height + UInt32.ofNat gy * (height / 96) + UInt32.ofNat sy)
          (counterX width height (decimal sequence.toNat).length i + UInt32.ofNat gx * (height / 96) +
            UInt32.ofNat sx) := by
  have hdigits := fun c ↦ isdigit_of_mem_decimal (n := sequence.toNat) (c := c)
  obtain ⟨drawn, hdrawn, hcounter⟩ := Option.bind_eq_some_iff.1 h
  obtain rfl := Option.some.inj hcounter
  rw [List.mem_flatten]
  simp only [mem_mapM hdrawn, List.mem_range]
  constructor
  · rintro ⟨stores, ⟨i, -, hi⟩, hs⟩
    obtain ⟨c, hc, hi⟩ := Option.bind_eq_some_iff.1 hi
    split_ifs at hi with hdigit
    · obtain ⟨gy, gx, sy, sx, hlit, hsy, hsx, hrow, hcol, hs⟩ := (hsize.mem_drawDigit hi).1 hs
      exact ⟨i, c, gy, gx, sy, sx, (printed_getElem?_isdigit hdigits).1 ⟨hc, hdigit⟩, hlit, hsy, hsx, hrow,
        hcol, hs⟩
    · obtain rfl := Option.some.inj hi
      exact absurd hs List.not_mem_nil
  · rintro ⟨i, c, gy, gx, sy, sx, hc, hlit, hsy, hsx, hrow, hcol, hs⟩
    -- The digit is in the array, so its place is one that the loop has drawn.
    obtain ⟨hread, hdigit⟩ := (printed_getElem?_isdigit hdigits).2 hc
    have hi : i < (decimal sequence.toNat).length := by
      have hlt := (List.getElem?_eq_some_iff.1 hc).1
      rw [List.length_take] at hlt
      omega
    obtain ⟨stores, hstores⟩ := exists_mapM_iff.1 ⟨drawn, hdrawn⟩ i (List.mem_range.2 hi)
    refine ⟨stores, ⟨i, hi, hstores⟩, ?_⟩
    obtain ⟨c', hc', hdraw⟩ := Option.bind_eq_some_iff.1 hstores
    obtain rfl := Option.some.inj (hread.symm.trans hc')
    rw [if_pos hdigit] at hdraw
    exact (hsize.mem_drawDigit hdraw).2 ⟨gy, gx, sy, sx, hlit, hsy, hsx, hrow, hcol, hs⟩

/-- The lit pixels of the counter, with integer coordinates. -/
theorem counterLit_iff (hsize : TestSize width height) (hlength : (decimal sequence.toNat).length ≤ 12)
    {row x : ℕ} : CounterLit width.toNat height.toNat sequence.toNat row x ↔
      ∃ i c gy gx sy sx, ((decimal sequence.toNat).take 11)[i]? = some c ∧ GlyphLit c gy gx ∧
        sy < (height / 96).toNat ∧ sx < (height / 96).toNat ∧ row < 10000 ∧ x < width.toNat ∧
        row = (counterY height + UInt32.ofNat gy * (height / 96) + UInt32.ofNat sy).toNat ∧
        x = (counterX width height (decimal sequence.toNat).length i + UInt32.ofNat gx * (height / 96) +
          UInt32.ofNat sx).toNat := by
  have hlt : ∀ {i c}, ((decimal sequence.toNat).take 11)[i]? = some c →
      i < (decimal sequence.toNat).length := by
    intro i c hc
    have hlt := (List.getElem?_eq_some_iff.1 hc).1
    rw [List.length_take] at hlt
    omega
  constructor
  · rintro ⟨hrow, hx, i, gy, gx, sy, sx, c, hc, hlit, hsy, hsx, hy, hcol⟩
    rw [← toNat_scale] at hsy hsx
    refine ⟨i, c, gy, gx, sy, sx, hc, hlit, hsy, hsx, hrow, hx, ?_, ?_⟩
    · rw [(hsize.toNat_counterRow (lt_of_glyphLit hlit).1 hsy).1, hy]
    · exact (hsize.eq_toNat_counterColumn_iff hlength (hlt hc) (lt_of_glyphLit hlit).2 hsx hx).2 hcol
  · rintro ⟨i, c, gy, gx, sy, sx, hc, hlit, hsy, hsx, hrow, hx, hy, hcol⟩
    refine ⟨hrow, hx, i, gy, gx, sy, sx, c, hc, hlit, ?_, ?_, ?_, ?_⟩
    · rwa [← toNat_scale]
    · rwa [← toNat_scale]
    · rw [hy, (hsize.toNat_counterRow (lt_of_glyphLit hlit).1 hsy).1]
    · exact (hsize.eq_toNat_counterColumn_iff hlength (hlt hc) (lt_of_glyphLit hlit).2 hsx hx).1 hcol

end TestSize

/-! ### The whole picture -/

variable {width height fps : UInt32} {sequence : UInt64} {stores : List (Store UInt8)}

/-- **When a picture is rendered**: as long as the counter has at most twelve digits. -/
theorem exists_renderFrame_iff (width height fps : UInt32) (sequence : UInt64) :
    (∃ stores, renderFrame width height fps sequence = some stores) ↔ sequence.toNat < 10 ^ 12 := by
  rw [← TestSize.exists_renderCounter_iff width height]
  constructor
  · rintro ⟨stores, h⟩
    obtain ⟨counter, hcounter, -⟩ := Option.bind_eq_some_iff.1 h
    exact ⟨counter, hcounter⟩
  · rintro ⟨counter, h⟩
    exact ⟨_, Option.bind_eq_some_iff.2 ⟨counter, h, rfl⟩⟩

/-- Behind the background, all luma that is written is white and lit, and all chroma is gray and in the
strip. -/
theorem overlay_cases (hsize : TestSize width height) {counter : List (Store UInt8)}
    (hcounter : renderCounter width height sequence = some counter) {s : Store UInt8}
    (hs : s ∈ renderMarker width height fps sequence ++ counter) :
    ∃ row < height.toNat, ∃ x < width.toNat, height.toNat * 3 / 4 ≤ row ∧
      ((s = .const (pixelByte width.toNat row x 0) 235 ∧ (MarkerLit width height fps sequence row x ∨
          CounterLit width.toNat height.toNat sequence.toNat row x)) ∨
        s = .const (pixelByte width.toNat row x 1) 128) := by
  have hrows := hsize.rows_lt
  have heven := hsize.even
  have hlength := (length_decimal_le_iff (k := 12) (by decide)).2
    ((TestSize.exists_renderCounter_iff width height sequence).1 ⟨counter, hcounter⟩)
  rcases List.mem_append.1 hs with hs | hs
  · obtain ⟨row, x, hlit, hs⟩ := hsize.mem_renderMarker.1 hs
    obtain ⟨hlo, hhi, hx, -, -⟩ := id hlit
    rw [hsize.toNat_markerRow] at hlo hhi
    refine ⟨row, by omega, x, hx, by omega, ?_⟩
    exact hs.imp (fun hs ↦ ⟨hs, .inl hlit⟩) id
  · obtain ⟨i, c, gy, gx, sy, sx, hc, hlit, hsy, hsx, hrow, hx, hs⟩ := (hsize.mem_renderCounter hcounter).1 hs
    obtain ⟨hy, hylt⟩ := hsize.toNat_counterRow (TestSize.lt_of_glyphLit hlit).1 hsy
    rcases hsize.mem_digitPixel.1 hs with hs | ⟨x', hx', hs⟩
    · exact ⟨_, hy ▸ hylt, _, hx, by omega, .inl ⟨hs, .inr ((hsize.counterLit_iff hlength).2
        ⟨i, c, gy, gx, sy, sx, hc, hlit, hsy, hsx, hrow, hx, rfl, rfl⟩)⟩⟩
    · exact ⟨_, hy ▸ hylt, x', by omega, by omega, .inr hs⟩

/-- What is lit is painted. -/
theorem mem_overlay_of_lit (hsize : TestSize width height) {counter : List (Store UInt8)}
    (hcounter : renderCounter width height sequence = some counter) {row x : ℕ}
    (h : MarkerLit width height fps sequence row x ∨
      CounterLit width.toNat height.toNat sequence.toNat row x) :
    .const (pixelByte width.toNat row x 0) 235 ∈ renderMarker width height fps sequence ++ counter := by
  have hlength := (length_decimal_le_iff (k := 12) (by decide)).2
    ((TestSize.exists_renderCounter_iff width height sequence).1 ⟨counter, hcounter⟩)
  rcases h with hlit | hlit
  · exact List.mem_append_left _ (hsize.mem_renderMarker.2 ⟨row, x, hlit, .inl rfl⟩)
  · obtain ⟨i, c, gy, gx, sy, sx, hc, hglyph, hsy, hsx, hrow, hx, rfl, rfl⟩ :=
      (hsize.counterLit_iff hlength).1 hlit
    refine List.mem_append_right _ ((hsize.mem_renderCounter hcounter).2
      ⟨i, c, gy, gx, sy, sx, hc, hglyph, hsy, hsx, hrow, hx, ?_⟩)
    exact hsize.mem_digitPixel.2 (.inl rfl)

/-- Nothing is written outside the picture. -/
theorem addr_lt_of_mem_renderFrame (hsize : TestSize width height)
    (h : renderFrame width height fps sequence = some stores) {s : Store UInt8} (hs : s ∈ stores) :
    s.addr < 2 * width.toNat * height.toNat := by
  obtain ⟨counter, hcounter, hstores⟩ := Option.bind_eq_some_iff.1 h
  obtain rfl := Option.some.inj hstores
  rw [List.append_assoc] at hs
  rcases List.mem_append.1 hs with hs | hs
  · obtain ⟨row, hrow, x, hx, rfl | rfl⟩ := hsize.mem_renderBars.1 hs
    · exact pixelByte_lt hrow hx (by decide)
    · exact pixelByte_lt hrow hx (by decide)
  · obtain ⟨row, hrow, x, hx, -, ⟨rfl, -⟩ | rfl⟩ := overlay_cases hsize hcounter hs
    · exact pixelByte_lt hrow hx (by decide)
    · exact pixelByte_lt hrow hx (by decide)

/-- The three layers in their order: the last assignment to a byte is what it shows. -/
theorem showsPattern_run (hsize : TestSize width height)
    (h : renderFrame width height fps sequence = some stores) (src m : ℕ → UInt8) :
    ShowsPattern width height fps sequence (run src stores m) := by
  obtain ⟨counter, hcounter, hstores⟩ := Option.bind_eq_some_iff.1 h
  obtain rfl := Option.some.inj hstores
  rw [List.append_assoc, run_append]
  -- what the background leaves behind
  have hback : ∀ row < height.toNat, ∀ x < width.toNat, ∀ c < 2,
      run src (renderBars width height) m (pixelByte width.toNat row x c) =
        if c = 0 then (background width.toNat height.toNat row x).y
        else (background width.toNat height.toNat row x).chroma x := by
    intro row hrow x hx c hc
    refine run_eq_of_forall ?_ fun s hs ha ↦ ?_
    · obtain rfl | rfl : c = 0 ∨ c = 1 := by omega
      · exact ⟨_, hsize.mem_renderBars.2 ⟨row, hrow, x, hx, .inl rfl⟩, rfl⟩
      · exact ⟨_, hsize.mem_renderBars.2 ⟨row, hrow, x, hx, .inr rfl⟩, rfl⟩
    · obtain ⟨row', -, x', hx', rfl | rfl⟩ := hsize.mem_renderBars.1 hs
      · obtain ⟨rfl, rfl, rfl⟩ := pixelByte_inj hx' hx (by decide) hc ha
        rfl
      · obtain ⟨rfl, rfl, rfl⟩ := pixelByte_inj hx' hx (by decide) hc ha
        rfl
  have hstrip : ∀ {row x}, height.toNat * 3 / 4 ≤ row →
      background width.toNat height.toNat row x = ⟨32, 128, 128⟩ :=
    fun hrow ↦ if_neg (Nat.not_lt.2 hrow)
  constructor
  · intro row hrow x hx
    have hkeep : ∀ c < 2, run src (renderMarker width height fps sequence ++ counter)
        (run src (renderBars width height) m) (pixelByte width.toNat row x c) =
        run src (renderBars width height) m (pixelByte width.toNat row x c) := by
      intro c hc
      refine run_of_forall_ne fun s hs ha ↦ ?_
      obtain ⟨row', -, x', hx', hrow', ⟨rfl, -⟩ | rfl⟩ := overlay_cases hsize hcounter hs
      · have := (pixelByte_inj hx' hx (by decide) hc ha).1
        omega
      · have := (pixelByte_inj hx' hx (by decide) hc ha).1
        omega
    have hcolor : background width.toNat height.toNat row x = barColor width.toNat x := if_pos hrow
    rw [hkeep 0 (by decide), hkeep 1 (by decide), hback row (by omega) x hx 0 (by decide),
      hback row (by omega) x hx 1 (by decide), hcolor]
    exact ⟨rfl, rfl⟩
  · intro row hrow hlo x hx
    by_cases hmem : ∃ s ∈ renderMarker width height fps sequence ++ counter,
        s.addr = pixelByte width.toNat row x 1
    · refine run_eq_of_forall hmem fun s hs ha ↦ ?_
      obtain ⟨row', -, x', hx', -, ⟨rfl, -⟩ | rfl⟩ := overlay_cases hsize hcounter hs
      · exact absurd (pixelByte_inj hx' hx (by decide) (by decide) ha).2.2 (by decide)
      · rfl
    · rw [run_of_forall_ne fun s hs ha ↦ hmem ⟨s, hs, ha⟩, hback row hrow x hx 1 (by decide), hstrip hlo]
      exact ite_self 128
  · intro row hrow hlo x hx hlit
    refine run_eq_of_forall ⟨_, mem_overlay_of_lit hsize hcounter hlit, rfl⟩ fun s hs ha ↦ ?_
    obtain ⟨row', -, x', hx', -, ⟨rfl, -⟩ | rfl⟩ := overlay_cases hsize hcounter hs
    · rfl
    · exact absurd (pixelByte_inj hx' hx (by decide) (by decide) ha).2.2 (by decide)
  · intro row hrow hlo x hx hdark
    rw [run_of_forall_ne fun s hs ha ↦ ?_, hback row hrow x hx 0 (by decide), hstrip hlo]
    · rfl
    · obtain ⟨row', -, x', hx', -, ⟨rfl, hlit⟩ | rfl⟩ := overlay_cases hsize hcounter hs
      · obtain ⟨rfl, rfl, -⟩ := pixelByte_inj hx' hx (by decide) (by decide) ha
        exact hdark hlit
      · exact absurd (pixelByte_inj hx' hx (by decide) (by decide) ha).2.2 (by decide)

/-- A picture is given by its size, rate and number. -/
theorem ShowsPattern.eq {m m' : ℕ → UInt8} (hm : ShowsPattern width height fps sequence m)
    (hm' : ShowsPattern width height fps sequence m') {a : ℕ} (ha : a < 2 * width.toNat * height.toNat) :
    m a = m' a := by
  obtain ⟨row, hrow, x, hx, c, hc, rfl⟩ := exists_pixelByte ha
  obtain rfl | rfl : c = 0 ∨ c = 1 := by omega
  · rcases Nat.lt_or_ge row (height.toNat * 3 / 4) with hbar | hstrip
    · rw [(hm.bars row hbar x hx).1, (hm'.bars row hbar x hx).1]
    · rcases em (MarkerLit width height fps sequence row x ∨
        CounterLit width.toNat height.toNat sequence.toNat row x) with hlit | hdark
      · rw [hm.lit row hrow hstrip x hx hlit, hm'.lit row hrow hstrip x hx hlit]
      · rw [hm.dark row hrow hstrip x hx hdark, hm'.dark row hrow hstrip x hx hdark]
  · rcases Nat.lt_or_ge row (height.toNat * 3 / 4) with hbar | hstrip
    · rw [(hm.bars row hbar x hx).2, (hm'.bars row hbar x hx).2]
    · rw [hm.gray row hrow hstrip x hx, hm'.gray row hrow hstrip x hx]

/-- **The picture of the test source**, for every size that it accepts: it is rendered as long as the counter
has at most twelve digits; nothing is written outside the buffer; whatever the buffer held, it shows the bars,
the marker and the counter then, and every byte of it is decided by the size, the rate and the number. -/
theorem renderFrame_draws (hsize : TestSize width height) (fps : UInt32) (sequence : UInt64) :
    ((∃ stores, renderFrame width height fps sequence = some stores) ↔ sequence.toNat < 10 ^ 12) ∧
      (∀ stores, renderFrame width height fps sequence = some stores →
        (∀ s ∈ stores, s.addr < 2 * width.toNat * height.toNat) ∧
          ∀ src m, ShowsPattern width height fps sequence (run src stores m)) ∧
      ∀ m m', ShowsPattern width height fps sequence m → ShowsPattern width height fps sequence m' →
        ∀ a < 2 * width.toNat * height.toNat, m a = m' a :=
  ⟨exists_renderFrame_iff width height fps sequence,
    fun _ h ↦ ⟨fun _ hs ↦ addr_lt_of_mem_renderFrame hsize h hs, fun src m ↦ showsPattern_run hsize h src m⟩,
    fun _ _ hm hm' _ ha ↦ hm.eq hm' ha⟩

/-- The size and rate of the defaults. -/
theorem renderFrame_draws_sample :
    ((∃ stores, renderFrame 640 480 30 7 = some stores) ↔ (7 : UInt64).toNat < 10 ^ 12) ∧
      (∀ stores, renderFrame 640 480 30 7 = some stores →
        (∀ s ∈ stores, s.addr < 2 * (640 : UInt32).toNat * (480 : UInt32).toNat) ∧
          ∀ src m, ShowsPattern 640 480 30 7 (run src stores m)) ∧
      ∀ m m', ShowsPattern 640 480 30 7 m → ShowsPattern 640 480 30 7 m' →
        ∀ a < 2 * (640 : UInt32).toNat * (480 : UInt32).toNat, m a = m' a :=
  renderFrame_draws ⟨by decide, by decide, by decide, by decide, by decide⟩ 30 7

end Camstream
