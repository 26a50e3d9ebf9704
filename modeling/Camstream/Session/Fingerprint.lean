import Camstream.Lib.CBuffer
import Camstream.Session.Dtls

/-!
# Comparing fingerprints

`fingerprint_hex_equal` with its two arrays, whose contents are arbitrary before they are written. It
compares the digits of the SDP value, in upper case, with the digits of the digest, and
`fingerprintHexEqual?_eq` says that it stays inside the arrays and the value and returns what
`fingerprintHexEqual` says.

A value can be written in many ways (`FingerprintOf`), but it has one text in plain upper case, and
different digests have different texts (`upperHex_injective`). So a value for one digest is equal to this
digest and to no other one.
-/

namespace Camstream

open Bytes CBuffer CString

/-! ### The function -/

/-- `strchr(p, ' ')`: what stands behind the first space of a string, if it has one. -/
def strchrSpace : List UInt8 → Option (Option (List UInt8))
  | [] => none
  | c :: p => if c = 32 then some (some p) else if c = 0 then some none else strchrSpace p

/-- Skip the algorithm token. -/
def skipToken : List UInt8 → Option (List UInt8)
  | [] => none
  | c :: p =>
    if c ≠ 0 then (strchrSpace (c :: p)).map fun space ↦ space.getD (c :: p) else some (c :: p)

/-- `(*p >= 'a' && *p <= 'f') ? *p - 32 : *p` -/
def foldCase (c : UInt8) : UInt8 :=
  if 97 ≤ c ∧ c ≤ 102 then c - 32 else c

/-- The loop over the text at `p`: `normalized` and `out` behind it. -/
def normalizeLoop : List UInt8 → List UInt8 → ℕ → Option (List UInt8 × ℕ)
  | [], _, _ => none
  | c :: p, normalized, out =>
    if c ≠ 0 ∧ out + 1 < normalized.length then
      if c = 58 then normalizeLoop p normalized out
      else do
        let normalized ← store normalized out (foldCase c)
        normalizeLoop p normalized (out + 1)
    else some (normalized, out)

/-- The loop over the digest: `actual` and `actual_out` behind it. The size that is left is a `size_t`. -/
def hexLoop : List UInt8 → List UInt8 → ℕ → Option (List UInt8 × ℕ)
  | [], actual, actualOut => some (actual, actualOut)
  | b :: md, actual, actualOut => do
    let size := (actual.length + (2 ^ 64 - actualOut)) % 2 ^ 64
    let actual ← snprintf actual actualOut size (upperHex b)
    hexLoop md actual (actualOut + (upperHex b).length)

/-- `fingerprint_hex_equal` on the memory from `sdp_value` on; `none` for an access outside the arrays or
behind the memory. -/
def fingerprintHexEqual? (normalized : Vector UInt8 128) (actual : Vector UInt8 104)
    (sdpValue md : List UInt8) : Option Bool := do
  let p ← skipToken sdpValue
  let (normalized, out) ← normalizeLoop p normalized.toList 0
  let normalized ← store normalized out 0
  let (actual, actualOut) ← hexLoop md actual.toList 0
  let actual ← store actual actualOut 0
  strcmpEq normalized actual

/-! ### What it compares -/

/-- The part behind the first space, or the whole value. -/
def afterToken (value : List UInt8) : List UInt8 :=
  if 32 ∈ value then (value.dropWhile (· ≠ 32)).tail else value

/-- Without colons, and with `a` to `f` in upper case. -/
def plainHex (text : List UInt8) : List UInt8 :=
  (text.filter (· ≠ 58)).map foldCase

theorem plainHex_colon (text : List UInt8) : plainHex (58 :: text) = plainHex text := rfl

theorem plainHex_cons {c : UInt8} (hc : c ≠ 58) (text : List UInt8) :
    plainHex (c :: text) = foldCase c :: plainHex text := by
  rw [plainHex, List.filter_cons_of_pos (by simpa using hc)]
  rfl

/-- Without colons and case, the value behind its first token against the digest in hexadecimal. -/
theorem fingerprintHexEqual_eq (value md : List UInt8) :
    fingerprintHexEqual value md =
      decide ((plainHex (afterToken value)).take 127 = md.flatMap upperHex) := rfl

/-- The search for a blank ends at the terminating zero. -/
theorem strchrSpace_append_zero {v : List UInt8} (hv : 0 ∉ v) (behind : List UInt8) :
    strchrSpace (v ++ 0 :: behind) =
      some (if 32 ∈ v then some ((v.dropWhile (· ≠ 32)).tail ++ 0 :: behind) else none) := by
  induction v with
  | nil => rfl
  | cons c v ih =>
    rw [List.mem_cons, not_or] at hv
    rw [List.cons_append, strchrSpace]
    rcases eq_or_ne c 32 with rfl | hc
    · simp
    · rw [if_neg hc, if_neg (Ne.symm hv.1), ih hv.2]
      simp [hc, Ne.symm hc]

/-- The token is skipped inside the value. -/
theorem skipToken_append_zero {v : List UInt8} (hv : 0 ∉ v) (behind : List UInt8) :
    skipToken (v ++ 0 :: behind) = some (afterToken v ++ 0 :: behind) := by
  cases v with
  | nil => rfl
  | cons c v =>
    have hc : c ≠ 0 := fun h ↦ hv (h ▸ List.mem_cons_self)
    have hspace := strchrSpace_append_zero hv behind
    rw [List.cons_append] at hspace ⊢
    rw [skipToken, if_pos hc, hspace, afterToken]
    split_ifs <;> rfl

theorem zero_notMem_afterToken {v : List UInt8} (hv : 0 ∉ v) : 0 ∉ afterToken v := by
  rw [afterToken]
  split_ifs
  · exact fun h ↦ hv (List.dropWhile_sublist _ |>.mem (List.mem_of_mem_tail h))
  · exact hv

/-- Normalizing makes no text longer. -/
theorem length_plainHex_afterToken_le (value : List UInt8) :
    (plainHex (afterToken value)).length ≤ value.length := by
  have htoken : (afterToken value).length ≤ value.length := by
    rw [afterToken]
    split_ifs
    · exact ((List.tail_sublist _).trans (List.dropWhile_sublist _)).length_le
    · exact Nat.le_refl _
  rw [plainHex, List.length_map]
  exact Nat.le_trans (List.length_filter_le _ _) htoken

/-- **The first loop** fills the array with as much of the plain text as fits. The induction is on the text
that is left, with `s` the part of the array that has been written. -/
theorem exists_normalizeLoop {v : List UInt8} (hv : 0 ∉ v) (behind : List UInt8) {s buf : List UInt8}
    (hs : s <+: buf) (hlt : s.length < buf.length) :
    ∃ buf' t, t = (plainHex v).take (buf.length - 1 - s.length) ∧
      normalizeLoop (v ++ 0 :: behind) buf s.length = some (buf', (s ++ t).length) ∧
      s ++ t <+: buf' ∧ buf'.length = buf.length := by
  -- By induction on what is left to read. `s` is what was written; colons are skipped.
  induction v generalizing s buf with
  | nil =>
    refine ⟨buf, [], List.take_nil.symm, ?_, ?_, rfl⟩
    · rw [List.append_nil]
      exact if_neg fun h ↦ h.1 rfl
    · rwa [List.append_nil]
  | cons c v ih =>
    rw [List.mem_cons, not_or] at hv
    rw [List.cons_append, normalizeLoop]
    rcases Nat.lt_or_ge (s.length + 1) buf.length with hroom | hroom
    · rw [if_pos ⟨Ne.symm hv.1, hroom⟩]
      rcases eq_or_ne c 58 with rfl | hc
      · rw [if_pos rfl, plainHex_colon]
        exact ih hv.2 hs hlt
      · obtain ⟨buf₁, hstore, hs₁, hlen₁⟩ := exists_store hs hlt (foldCase c)
        have hs₁len : (s ++ [foldCase c]).length = s.length + 1 := List.length_append
        obtain ⟨buf', t, ht, hloop, hs', hlen'⟩ := ih hv.2 hs₁ (by omega)
        have hleft : buf.length - 1 - s.length = buf₁.length - 1 - (s ++ [foldCase c]).length + 1 := by
          omega
        refine ⟨buf', foldCase c :: t, ?_, ?_, ?_, hlen'.trans hlen₁⟩
        · rw [plainHex_cons hc, hleft, List.take_succ_cons, ht]
        · rw [if_neg hc, hstore, Option.bind_eq_bind, Option.bind_some, ← hs₁len, hloop, List.append_assoc]
          rfl
        · rwa [List.append_assoc] at hs'
    · have hnone : buf.length - 1 - s.length = 0 := by omega
      refine ⟨buf, [], ?_, ?_, ?_, rfl⟩
      · rw [hnone, List.take_zero]
      · rw [if_neg (by omega), List.append_nil]
      · rwa [List.append_nil]

/-- **The second loop** prints the digest, and the size it passes on never wraps. -/
theorem exists_hexLoop (md : List UInt8) {s buf : List UInt8} (hs : s <+: buf)
    (hlt : s.length + 2 * md.length < buf.length) (hsize : buf.length < 2 ^ 64) :
    ∃ buf', hexLoop md buf s.length = some (buf', (s ++ md.flatMap upperHex).length) ∧
      s ++ md.flatMap upperHex <+: buf' ∧ buf'.length = buf.length := by
  induction md generalizing s buf with
  | nil => exact ⟨buf, by rw [List.flatMap_nil, List.append_nil]; rfl, by simpa using hs, rfl⟩
  | cons b md ih =>
    have hupper : (upperHex b).length = 2 := rfl
    rw [List.length_cons] at hlt
    have hleft : (buf.length + (2 ^ 64 - s.length)) % 2 ^ 64 = buf.length - s.length := by omega
    obtain ⟨buf₁, hprint, hs₁, hlen₁⟩ := exists_snprintf hs
      (show s.length + (upperHex b).length < buf.length by omega)
    have hs₁len : (s ++ upperHex b).length = s.length + (upperHex b).length := List.length_append
    obtain ⟨buf', hloop, hs', hlen'⟩ :=
      ih ((List.prefix_append _ _).trans hs₁) (by rw [List.length_append]; omega) (by omega)
    refine ⟨buf', ?_, ?_, hlen'.trans hlen₁⟩
    · rw [hexLoop, hleft, hprint, Option.bind_eq_bind, Option.bind_some, ← hs₁len, hloop,
        List.flatMap_cons, List.append_assoc]
    · rwa [List.flatMap_cons, ← List.append_assoc]

theorem zero_notMem_plainHex {text : List UInt8} (h : 0 ∉ text) : 0 ∉ plainHex text := by
  have hfold : ∀ c, foldCase c = 0 → c = 0 := forall_byte (by decide +kernel)
  intro hmem
  obtain ⟨c, hc, hzero⟩ := List.mem_map.1 hmem
  exact h (hfold c hzero ▸ List.mem_of_mem_filter hc)

theorem zero_notMem_upperHex (md : List UInt8) : 0 ∉ md.flatMap upperHex := by
  have hupper : ∀ b, 0 ∉ upperHex b := forall_byte (by decide +kernel)
  rw [List.mem_flatMap]
  rintro ⟨b, -, hb⟩
  exact hupper b hb

@[simp] theorem length_flatMap_upperHex (md : List UInt8) :
    (md.flatMap upperHex).length = 2 * md.length := by
  induction md with
  | nil => rfl
  | cons b md ih =>
    have hupper : (upperHex b).length = 2 := rfl
    rw [List.flatMap_cons, List.length_append, ih, hupper, List.length_cons]
    omega

/-- **No access outside the arrays**, for a value of any length and a digest that fits: the call returns
what `fingerprintHexEqual` says, whatever the arrays held and whatever stands behind the value. -/
theorem fingerprintHexEqual?_eq {value md : List UInt8} (hvalue : 0 ∉ value) (hmd : 2 * md.length < 104)
    (behind : List UInt8) (normalized : Vector UInt8 128) (actual : Vector UInt8 104) :
    fingerprintHexEqual? normalized actual (value ++ 0 :: behind) md =
      some (fingerprintHexEqual value md) := by
  have hnormalized : normalized.toList.length = 128 := normalized.length_toList
  have hactual : actual.toList.length = 104 := actual.length_toList
  have htoken := zero_notMem_afterToken hvalue
  obtain ⟨buf₁, t, ht, hloop, hs₁, hlen₁⟩ := exists_normalizeLoop htoken behind
    (List.nil_prefix (l := normalized.toList)) (by rw [hnormalized, List.length_nil]; decide)
  rw [hnormalized, List.length_nil, List.nil_append] at *
  have htlen : t.length ≤ 127 := ht ▸ List.length_take_le _ _
  obtain ⟨buf₂, hstore₂, hs₂, -⟩ := exists_store hs₁ (by omega) 0
  obtain ⟨buf₃, hhex, hs₃, hlen₃⟩ := exists_hexLoop md
    (List.nil_prefix (l := actual.toList)) (by rw [hactual, List.length_nil]; omega)
    (by rw [hactual]; decide)
  rw [List.length_nil, List.nil_append] at *
  obtain ⟨buf₄, hstore₄, hs₄, -⟩ :=
    exists_store hs₃ (by rw [length_flatMap_upperHex, hlen₃, hactual]; exact hmd) 0
  have hzero : 0 ∉ t := fun h ↦ zero_notMem_plainHex htoken (List.mem_of_mem_take (ht ▸ h))
  have hcmp := strcmpEq_of_isPrefix hzero (zero_notMem_upperHex md) hs₂ hs₄
  rw [fingerprintHexEqual?, skipToken_append_zero hvalue, fingerprintHexEqual_eq, ← ht]
  simp only [Option.bind_eq_bind, Option.bind_some, hloop, hstore₂, hhex, hstore₄, hcmp]

/-! ### What a value stands for -/

/-- A text of hexadecimal digits in any case, two for each byte, with colons in front of, between and
behind the bytes. -/
inductive HexText : List UInt8 → List UInt8 → Prop
  | nil : HexText [] []
  | colon {md t : List UInt8} : HexText md t → HexText md (58 :: t)
  | byte {b hi lo : UInt8} {md t : List UInt8} :
      hexDigit hi = some (b.toNat / 16) → hexDigit lo = some (b.toNat % 16) → HexText md t →
        HexText (b :: md) (hi :: lo :: t)

/-- A value for a digest: its digits, alone or behind one algorithm token. -/
def FingerprintOf (md value : List UInt8) : Prop :=
  HexText md value ∨ ∃ token text, 32 ∉ token ∧ value = token ++ 32 :: text ∧ HexText md text

/-- A digit of either case is the digit that is printed. -/
theorem foldCase_of_hexDigit {c : UInt8} {n : ℕ} (h : hexDigit c = some n) :
    c ≠ 58 ∧ c ≠ 32 ∧ foldCase c = upperHexDigit n := by
  have hall : ∀ c, (hexDigit c).all (fun n ↦ decide (c ≠ 58 ∧ c ≠ 32 ∧ foldCase c = upperHexDigit n)) =
      true := forall_byte (by decide +kernel)
  have hc := hall c
  rw [h, Option.all_some] at hc
  exact of_decide_eq_true hc

/-- **All ways to write a digest** are the same in plain text. -/
theorem HexText.plainHex_eq {md text : List UInt8} (h : HexText md text) :
    32 ∉ text ∧ plainHex text = md.flatMap upperHex := by
  induction h with
  | nil => exact ⟨List.not_mem_nil, rfl⟩
  | colon _ ih => exact ⟨by simpa using ih.1, ih.2⟩
  | @byte b hi lo md t hhi hlo _ ih =>
    obtain ⟨hhiColon, hhiSpace, hhiFold⟩ := foldCase_of_hexDigit hhi
    obtain ⟨hloColon, hloSpace, hloFold⟩ := foldCase_of_hexDigit hlo
    refine ⟨by simp [Ne.symm hhiSpace, Ne.symm hloSpace, ih.1], ?_⟩
    rw [plainHex_cons hhiColon, plainHex_cons hloColon, ih.2, hhiFold, hloFold]
    rfl

/-- A fingerprint of a digest is its hexadecimal digits. -/
theorem FingerprintOf.plainHex_eq {md value : List UInt8} (h : FingerprintOf md value) :
    plainHex (afterToken value) = md.flatMap upperHex := by
  rcases h with htext | ⟨token, text, htoken, rfl, htext⟩
  · obtain ⟨hspace, hplain⟩ := htext.plainHex_eq
    rw [afterToken, if_neg hspace, hplain]
  · have hall : ∀ c ∈ token, decide (c ≠ 32) = true := fun c hc ↦ decide_eq_true fun h ↦ htoken (h ▸ hc)
    rw [afterToken, if_pos (by simp), List.dropWhile_append_of_pos hall,
      List.dropWhile_cons_of_neg (by decide), List.tail_cons, htext.plainHex_eq.2]

theorem hexDigit_upperHexDigit : ∀ n < 16, hexDigit (upperHexDigit n) = some n := by decide

/-- Two digits determine a byte. -/
theorem upperHex_inj {b b' : UInt8} (h : upperHex b = upperHex b') : b = b' := by
  have hlt : ∀ c : UInt8, c.toNat / 16 < 16 := fun c ↦ by
    have hc := c.toNat_lt
    omega
  have hmod : ∀ c : UInt8, c.toNat % 16 < 16 := fun c ↦ Nat.mod_lt _ (by decide)
  obtain ⟨hhi, hlo⟩ := List.cons_eq_cons.1 h
  have hhi' := congrArg hexDigit hhi
  have hlo' := congrArg hexDigit (List.cons_eq_cons.1 hlo).1
  rw [hexDigit_upperHexDigit _ (hlt b), hexDigit_upperHexDigit _ (hlt b'), Option.some.injEq] at hhi'
  rw [hexDigit_upperHexDigit _ (hmod b), hexDigit_upperHexDigit _ (hmod b'), Option.some.injEq] at hlo'
  exact UInt8.toNat_inj.1 (by omega)

/-- Every digest can be written: as it is printed. -/
theorem hexText_upperHex (md : List UInt8) : HexText md (md.flatMap upperHex) := by
  induction md with
  | nil => exact .nil
  | cons b md ih =>
    have hb := b.toNat_lt
    exact .byte (hexDigit_upperHexDigit _ (by omega)) (hexDigit_upperHexDigit _ (by omega)) ih

/-- **Different digests are printed differently.** -/
theorem upperHex_injective {md md' : List UInt8} (h : md.flatMap upperHex = md'.flatMap upperHex) :
    md = md' := by
  have hlen := congrArg List.length h
  rw [length_flatMap_upperHex, length_flatMap_upperHex] at hlen
  induction md generalizing md' with
  | nil => exact (List.eq_nil_of_length_eq_zero (by rw [List.length_nil] at hlen; omega)).symm
  | cons b md ih =>
    cases md' with
    | nil => rw [List.length_nil, List.length_cons] at hlen; omega
    | cons b' md' =>
      rw [List.flatMap_cons, List.flatMap_cons] at h
      rw [List.length_cons, List.length_cons] at hlen
      obtain ⟨hbyte, hrest⟩ := List.append_inj h rfl
      rw [upperHex_inj hbyte, ih hrest (by omega)]

/-- **Fingerprints are compared soundly and completely.** For every value of at most 127 bytes and every
digest of 32, whatever the arrays held and whatever stands behind the value: no access leaves them, the
answer is whether the plain text of the value is the digest in upper case, and a value for a digest is
accepted for this digest and for no other. -/
theorem fingerprintHexEqual?_iff {value md : List UInt8} (hvalue : 0 ∉ value) (hlen : value.length ≤ 127)
    (hmd : md.length = 32) (behind : List UInt8) (normalized : Vector UInt8 128)
    (actual : Vector UInt8 104) :
    ∃ equal, fingerprintHexEqual? normalized actual (value ++ 0 :: behind) md = some equal ∧
      (equal = true ↔ plainHex (afterToken value) = md.flatMap upperHex) ∧
      ∀ md', FingerprintOf md' value → (equal = true ↔ md' = md) := by
  have hplain : (plainHex (afterToken value)).length ≤ 127 :=
    Nat.le_trans (length_plainHex_afterToken_le value) hlen
  have hequal : fingerprintHexEqual value md = true ↔
      plainHex (afterToken value) = md.flatMap upperHex := by
    rw [fingerprintHexEqual_eq, List.take_of_length_le hplain, decide_eq_true_iff]
  refine ⟨_, fingerprintHexEqual?_eq hvalue (by omega) behind normalized actual, hequal, fun md' hmd' ↦ ?_⟩
  rw [hequal, hmd'.plainHex_eq]
  exact ⟨upperHex_injective, fun h ↦ by rw [h]⟩

/-- The digest of 32 bytes `AB`, behind `sha-256` in mixed case with a colon in front of each byte. -/
theorem fingerprintHexEqual?_iff_sample :
    ∃ equal, fingerprintHexEqual? (Vector.replicate 128 1) (Vector.replicate 104 1)
        (ascii "sha-256 " ++ (List.replicate 32 (ascii ":aB")).flatten ++ 0 :: [65])
        (List.replicate 32 0xAB) = some equal ∧
      (equal = true ↔
        plainHex (afterToken (ascii "sha-256 " ++ (List.replicate 32 (ascii ":aB")).flatten)) =
          (List.replicate 32 0xAB).flatMap upperHex) ∧
      ∀ md', FingerprintOf md' (ascii "sha-256 " ++ (List.replicate 32 (ascii ":aB")).flatten) →
        (equal = true ↔ md' = List.replicate 32 0xAB) :=
  fingerprintHexEqual?_iff (by decide +kernel) (by decide +kernel) List.length_replicate _ _ _

end Camstream
