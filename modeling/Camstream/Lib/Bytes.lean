import Mathlib.Algebra.GroupWithZero.Nat
import Mathlib.Data.List.Basic
import Mathlib.Data.List.GetD

/-!
# Big-endian fields

Network byte order over lists of bytes, with values as natural numbers. A writer truncates to the
width of its field, exactly as the conversion of a wider integer to a byte does, and a reader
yields the value of the field.
-/

namespace Bytes

/-- A statement about every byte is a statement about 256 numbers, so that a bit manipulation can be
checked by evaluation. -/
theorem forall_byte {P : UInt8 → Prop} (h : ∀ n : Fin 256, P (UInt8.ofNat n)) (b : UInt8) : P b := by
  have hb := h ⟨b.toNat, b.toNat_lt⟩
  rwa [UInt8.ofNat_toNat] at hb

/-- The two bytes of a 16-bit field. -/
def be16 (v : ℕ) : List UInt8 :=
  [UInt8.ofNat (v / 2 ^ 8), UInt8.ofNat v]

/-- The four bytes of a 32-bit field. -/
def be32 (v : ℕ) : List UInt8 :=
  [UInt8.ofNat (v / 2 ^ 24), UInt8.ofNat (v / 2 ^ 16), UInt8.ofNat (v / 2 ^ 8), UInt8.ofNat v]

/-- The 16-bit field at offset `i`. -/
def readBe16 (l : List UInt8) (i : ℕ) : ℕ :=
  (l.getD i 0).toNat * 2 ^ 8 + (l.getD (i + 1) 0).toNat

/-- The 32-bit field at offset `i`. -/
def readBe32 (l : List UInt8) (i : ℕ) : ℕ :=
  (l.getD i 0).toNat * 2 ^ 24 + (l.getD (i + 1) 0).toNat * 2 ^ 16 +
    (l.getD (i + 2) 0).toNat * 2 ^ 8 + (l.getD (i + 3) 0).toNat

/-- The 16-bit field at offset `i`, where every byte has to be there. -/
def readBe16? (l : List UInt8) (i : ℕ) : Option ℕ := do
  let a ← l[i]?
  let b ← l[i + 1]?
  some (a.toNat * 2 ^ 8 + b.toNat)

/-- The 32-bit field at offset `i`, where every byte has to be there. -/
def readBe32? (l : List UInt8) (i : ℕ) : Option ℕ := do
  let a ← l[i]?
  let b ← l[i + 1]?
  let c ← l[i + 2]?
  let d ← l[i + 3]?
  some (a.toNat * 2 ^ 24 + b.toNat * 2 ^ 16 + c.toNat * 2 ^ 8 + d.toNat)

/-- The `n` bytes at offset `i`, where every byte has to be there. -/
def slice? (l : List UInt8) (i n : ℕ) : Option (List UInt8) :=
  if i + n ≤ l.length then some ((l.drop i).take n) else none

/-- Overwrite the bytes at offset `i`; the list keeps its length when the new bytes fit. -/
def writeAt (l : List UInt8) (i : ℕ) (bs : List UInt8) : List UInt8 :=
  l.take i ++ bs ++ l.drop (i + bs.length)

@[simp] theorem length_be16 (v : ℕ) : (be16 v).length = 2 := rfl

@[simp] theorem length_be32 (v : ℕ) : (be32 v).length = 4 := rfl

/-- **A field reads back what was written**, when it fits. -/
theorem readBe16_be16 {v : ℕ} (hv : v < 2 ^ 16) : readBe16 (be16 v) 0 = v := by
  simp only [readBe16, be16, List.getD_cons_zero, List.getD_cons_succ, UInt8.toNat_ofNat']
  omega

/-- Four bytes keep a number modulo `2 ^ 32`. -/
theorem readBe32_be32_mod (v : ℕ) : readBe32 (be32 v) 0 = v % 2 ^ 32 := by
  simp only [readBe32, be32, List.getD_cons_zero, List.getD_cons_succ, UInt8.toNat_ofNat']
  omega

theorem readBe32_be32 {v : ℕ} (hv : v < 2 ^ 32) : readBe32 (be32 v) 0 = v := by
  rw [readBe32_be32_mod, Nat.mod_eq_of_lt hv]

/-- A field keeps the low bits of a number. -/
theorem be32_mod (v : ℕ) : be32 (v % 2 ^ 32) = be32 v := by
  simp only [be32, List.cons.injEq, ← UInt8.toNat_inj, UInt8.toNat_ofNat', and_true]
  omega

/-- A field is masked byte by byte. -/
theorem be32_xor (v w : ℕ) : be32 (v ^^^ w) = List.zipWith (· ^^^ ·) (be32 v) (be32 w) := by
  simp only [be32, Nat.xor_div_two_pow, UInt8.ofNat_xor, List.zipWith_cons_cons, List.zipWith_nil_left]

/-- A field lies where it lies after the bytes in front. -/
theorem readBe16_append_right (pre l : List UInt8) (i : ℕ) :
    readBe16 (pre ++ l) (pre.length + i) = readBe16 l i := by
  have h : ∀ j, (pre ++ l).getD (pre.length + j) 0 = l.getD j 0 := fun j ↦ by
    rw [List.getD_eq_getElem?_getD, List.getElem?_append_right (by omega), Nat.add_sub_cancel_left,
      List.getD_eq_getElem?_getD]
  rw [readBe16, Nat.add_assoc, h, h, readBe16]

/-- A field inside `l` does not depend on the bytes behind. -/
theorem readBe16_append_left {l : List UInt8} {i : ℕ} (h : i + 2 ≤ l.length) (r : List UInt8) :
    readBe16 (l ++ r) i = readBe16 l i := by
  have hget : ∀ j, j < l.length → (l ++ r).getD j 0 = l.getD j 0 := fun j hj ↦ by
    rw [List.getD_eq_getElem?_getD, List.getElem?_append_left hj, List.getD_eq_getElem?_getD]
  rw [readBe16, hget i (by omega), hget (i + 1) (by omega), readBe16]

/-- The bytes of `l` from `i` on, `n` of them, are there and are those of `m` from `j` on. -/
def Matches (l : List UInt8) (i : ℕ) (m : List UInt8) (j n : ℕ) : Prop :=
  ∀ k < n, l[i + k]? = some (m.getD (j + k) 0)

/-- Fields that lie inside the part where two lists agree are the same. -/
theorem Matches.readBe16? {l m : List UInt8} {i j n : ℕ} (h : Matches l i m j n) {k : ℕ} (hk : k + 2 ≤ n) :
    readBe16? l (i + k) = some (readBe16 m (j + k)) := by
  rw [Bytes.readBe16?, h k (by omega), Nat.add_assoc i, h (k + 1) (by omega)]
  rfl

theorem Matches.readBe32? {l m : List UInt8} {i j n : ℕ} (h : Matches l i m j n) {k : ℕ} (hk : k + 4 ≤ n) :
    readBe32? l (i + k) = some (readBe32 m (j + k)) := by
  rw [Bytes.readBe32?, h k (by omega), Nat.add_assoc i, h (k + 1) (by omega), Nat.add_assoc i,
    h (k + 2) (by omega), Nat.add_assoc i, h (k + 3) (by omega)]
  rfl

theorem Matches.getD {l m : List UInt8} {i j n : ℕ} (h : Matches l i m j n) {k : ℕ} (hk : k < n) :
    l.getD (i + k) 0 = m.getD (j + k) 0 := by
  rw [List.getD_eq_getElem?_getD, h k hk, Option.getD_some]

theorem Matches.readBe16 {l m : List UInt8} {i j n : ℕ} (h : Matches l i m j n) {k : ℕ} (hk : k + 2 ≤ n) :
    readBe16 l (i + k) = readBe16 m (j + k) := by
  rw [Bytes.readBe16, Bytes.readBe16, h.getD (by omega), Nat.add_assoc i, h.getD (by omega), Nat.add_assoc]

/-- Part of a match. -/
theorem Matches.sub {l m : List UInt8} {i j n : ℕ} (h : Matches l i m j n) {a b : ℕ} (hab : a + b ≤ n) :
    Matches l (i + a) m (j + a) b := fun k hk ↦ by
  rw [Nat.add_assoc, Nat.add_assoc]
  exact h (a + k) (by omega)

theorem matches_self (l : List UInt8) : Matches l 0 l 0 l.length := fun k hk ↦ by
  rw [Nat.zero_add, List.getElem?_eq_getElem hk, List.getD_eq_getElem _ _ hk]

/-- The beginning of a buffer, and nothing behind it. -/
theorem matches_take {l : List UInt8} {n : ℕ} (h : n ≤ l.length) : Matches (l.take n) 0 l 0 n := fun k hk ↦ by
  rw [Nat.zero_add, List.getElem?_take_of_lt hk, List.getElem?_eq_getElem (by omega),
    List.getD_eq_getElem _ _ (by omega)]

/-- Bytes from the beginning of a buffer. -/
theorem slice?_take {l : List UInt8} {i k n : ℕ} (hk : i + k ≤ n) (hn : n ≤ l.length) :
    slice? (l.take n) i k = some ((l.drop i).take k) := by
  rw [slice?, if_pos (by rw [List.length_take]; omega), List.drop_take, List.take_take,
    Nat.min_eq_left (by omega)]

/-- What stands at an offset of a buffer. -/
theorem matches_of_isPrefix {p l : List UInt8} {j : ℕ} (h : p <+: l.drop j) :
    Matches p 0 l j p.length := fun k hk ↦ by
  obtain ⟨t, ht⟩ := h
  rw [Nat.zero_add, List.getD_eq_getElem?_getD, ← List.getElem?_drop, ← ht, List.getElem?_append_left hk,
    List.getElem?_eq_getElem hk, Option.getD_some]

/-- **Filling from the front**: the next bytes go behind those that are there. -/
theorem writeAt_fill {i j : ℕ} {front bs : List UInt8} (out : List UInt8) (hi : i = front.length)
    (hj : j = i + bs.length) :
    writeAt (front ++ out.drop i) i bs = front ++ bs ++ out.drop j := by
  subst hi hj
  rw [writeAt, List.take_left, ← List.drop_drop, List.drop_left, List.drop_drop]

/-! ### Blocks

A buffer that is filled field by field is a concatenation of blocks, and each write replaces one. -/

/-- **A write over one block** leaves the others. -/
theorem writeAt_flatten (pre : List (List UInt8)) {old bs : List UInt8} {post : List (List UInt8)}
    {i : ℕ} (hi : i = pre.flatten.length) (h : old.length = bs.length) :
    writeAt (pre ++ old :: post).flatten i bs = (pre ++ bs :: post).flatten := by
  subst hi
  rw [writeAt, List.flatten_append, List.flatten_append, List.flatten_cons, List.flatten_cons,
    List.take_left, ← List.append_assoc pre.flatten old, ← h, ← List.length_append, List.drop_left,
    List.append_assoc]

/-- The blocks in front. -/
theorem take_flatten {pre post : List (List UInt8)} {i : ℕ} (hi : i = pre.flatten.length) :
    (pre ++ post).flatten.take i = pre.flatten := by
  rw [List.flatten_append, hi, List.take_left]

/-- A buffer that is long enough begins with blocks of the given lengths. -/
theorem exists_blocks (ns : List ℕ) {l : List UInt8} (h : ns.sum ≤ l.length) :
    ∃ bs : List (List UInt8), bs.map List.length = ns ∧ l = bs.flatten ++ l.drop ns.sum := by
  induction ns generalizing l with
  | nil => exact ⟨[], rfl, rfl⟩
  | cons n ns ih =>
    rw [List.sum_cons] at h
    obtain ⟨bs, hbs, hl⟩ := ih (l := l.drop n) (by rw [List.length_drop]; omega)
    refine ⟨l.take n :: bs, ?_, ?_⟩
    · rw [List.map_cons, hbs, List.length_take, Nat.min_eq_left (by omega)]
    · rw [List.flatten_cons, List.append_assoc, List.sum_cons, ← List.drop_drop, ← hl,
        List.take_append_drop]

end Bytes
