import Mathlib.Logic.Function.Iterate
import Mathlib.Tactic.Common

/-!
# Reflected cyclic redundancy checks

The register of a reflected CRC, of any width and for any generator, one bit at a time. Moving the
register by one bit is linear in exclusive or (`shift_xor`), which is why eight moves are one look
in a table of 256 entries: `shift_eight` splits them into the moves of the low byte alone and a plain
shift of the rest.

The message itself is a row of bits: the least significant bit of each byte comes first, and each bit
meets the one that falls out of the register (`feed`). `serial_eq_checksum` says that taking the bits
eight at a time changes nothing, and `checksum_append` that a check value can be continued.
-/

namespace Crc

variable {w : ℕ}

/-- Move the register by one bit, the bit that falls out deciding about the generator. -/
def shift (poly c : BitVec w) : BitVec w :=
  if c.getLsbD 0 then (c >>> 1) ^^^ poly else c >>> 1

/-- The register after one more byte of the message. -/
def step (poly c : BitVec w) (b : UInt8) : BitVec w :=
  (shift poly)^[8] (c ^^^ b.toBitVec.setWidth w)

/-- The check value of a message: the register starts with all ones and is complemented at the end. -/
def checksum (poly : BitVec w) (data : List UInt8) : BitVec w :=
  data.foldl (step poly) (BitVec.allOnes w) ^^^ BitVec.allOnes w

variable (poly : BitVec w)

/-- The generator is added in twice or not at all when both low bits agree. -/
theorem shift_xor (x y : BitVec w) : shift poly (x ^^^ y) = shift poly x ^^^ shift poly y := by
  have hcancel : ∀ a b : BitVec w, (a ^^^ poly) ^^^ (b ^^^ poly) = a ^^^ b := fun a b ↦ by
    rw [BitVec.xor_comm b poly, BitVec.xor_assoc a poly, ← BitVec.xor_assoc poly poly,
      BitVec.xor_self, BitVec.zero_xor]
  simp only [shift, BitVec.getLsbD_xor, BitVec.ushiftRight_xor_distrib]
  cases x.getLsbD 0 <;> cases y.getLsbD 0
  · simp
  · simp [BitVec.xor_assoc]
  · simp only [Bool.bne_false, if_true, Bool.false_eq_true, if_false]
    rw [BitVec.xor_assoc, BitVec.xor_comm (y >>> 1), ← BitVec.xor_assoc]
  · simp [hcancel]

/-- The register is linear. -/
theorem iterate_shift_xor (n : ℕ) (x y : BitVec w) :
    (shift poly)^[n] (x ^^^ y) = (shift poly)^[n] x ^^^ (shift poly)^[n] y := by
  induction n with
  | zero => rfl
  | succ n ih =>
    iterate 3 rw [Function.iterate_succ_apply']
    rw [ih, shift_xor]

/-- While the bits that fall out are clear the register only moves down. -/
theorem iterate_shift_of_clear {x : BitVec w} {n : ℕ} (h : ∀ i, i < n → x.getLsbD i = false) :
    (shift poly)^[n] x = x >>> n := by
  induction n with
  | zero => rw [Function.iterate_zero_apply, BitVec.ushiftRight_zero]
  | succ n ih =>
    have hlow : (x >>> n).getLsbD 0 = false := by
      rw [BitVec.getLsbD_ushiftRight]
      exact h n (Nat.lt_succ_self n)
    rw [Function.iterate_succ_apply', ih fun i hi ↦ h i (Nat.lt_succ_of_lt hi), shift, hlow,
      if_neg Bool.false_ne_true, BitVec.shiftRight_add]

theorem getLsbD_ofNat_255 (i : ℕ) : (255#w).getLsbD i = (decide (i < w) && decide (i < 8)) := by
  rw [BitVec.getLsbD_ofNat]
  congr 1
  exact Nat.testBit_two_pow_sub_one 8 i

/-- **Eight moves at once**: those of the low byte alone, and the rest moved down one byte. -/
theorem shift_eight (x : BitVec w) :
    (shift poly)^[8] x = (shift poly)^[8] (x &&& 255#w) ^^^ (x >>> 8) := by
  have hsplit : x = (x &&& 255#w) ^^^ (x &&& ~~~255#w) := by
    ext i
    simp only [BitVec.getElem_xor, BitVec.getElem_and, BitVec.getElem_not]
    cases x[i] <;> cases (255#w)[i] <;> rfl
  have hclear : ∀ i, i < 8 → (x &&& ~~~255#w).getLsbD i = false := fun i hi ↦ by
    rw [BitVec.getLsbD_and, BitVec.getLsbD_not, getLsbD_ofNat_255]
    cases decide (i < w) <;> simp [hi]
  have hhigh : (x &&& ~~~255#w) >>> 8 = x >>> 8 := by
    apply BitVec.eq_of_getLsbD_eq
    intro i _
    rw [BitVec.getLsbD_ushiftRight, BitVec.getLsbD_ushiftRight, BitVec.getLsbD_and,
      BitVec.getLsbD_not, getLsbD_ofNat_255]
    by_cases hi : 8 + i < w
    · simp [hi]
    · simp [BitVec.getLsbD_of_ge x (8 + i) (by omega)]
  conv_lhs => rw [hsplit]
  rw [iterate_shift_xor, iterate_shift_of_clear poly hclear, hhigh]

/-- A byte moved down by a byte is gone. -/
theorem setWidth_ushiftRight_eight (b : UInt8) : b.toBitVec.setWidth w >>> 8 = 0#w := by
  apply BitVec.eq_of_getLsbD_eq
  intro i _
  rw [BitVec.getLsbD_ushiftRight, BitVec.getLsbD_setWidth,
    BitVec.getLsbD_of_ge b.toBitVec (8 + i) (by omega)]
  simp

/-- **One byte from the table**: the entry of the low byte of the register and the message byte, and
the register moved down. -/
theorem step_eq_table (c : BitVec w) (b : UInt8) :
    step poly c b =
      (shift poly)^[8] ((c ^^^ b.toBitVec.setWidth w) &&& 255#w) ^^^ (c >>> 8) := by
  rw [step, shift_eight, BitVec.ushiftRight_xor_distrib, setWidth_ushiftRight_eight, BitVec.xor_zero]

/-! ### One bit at a time -/

/-- The register after one more bit of the message. -/
def feed (poly c : BitVec w) (bit : Bool) : BitVec w :=
  if c.getLsbD 0 ^^ bit then (c >>> 1) ^^^ poly else c >>> 1

/-- The bits of a byte, in the order in which they are sent. -/
def bits (b : UInt8) : List Bool :=
  (List.range 8).map b.toBitVec.getLsbD

/-- The check value of a row of bits. -/
def serial (poly : BitVec w) (message : List Bool) : BitVec w :=
  message.foldl (feed poly) (BitVec.allOnes w) ^^^ BitVec.allOnes w

/-- Feeding the bits of a word from the low end is moving the register with the word added in: what has
not been fed yet is the word moved down. -/
theorem iterate_shift_eq_feed (c x : BitVec w) (n : ℕ) :
    (shift poly)^[n] (c ^^^ x) =
      ((List.range n).map x.getLsbD).foldl (feed poly) c ^^^ (x >>> n) := by
  induction n with
  | zero => simp
  | succ n ih =>
    set fed := ((List.range n).map x.getLsbD).foldl (feed poly) c
    have hlow : (fed ^^^ (x >>> n)).getLsbD 0 = (fed.getLsbD 0 ^^ x.getLsbD n) := by
      rw [BitVec.getLsbD_xor, BitVec.getLsbD_ushiftRight, Nat.add_zero]
    have hdown : (fed ^^^ (x >>> n)) >>> 1 = (fed >>> 1) ^^^ (x >>> (n + 1)) := by
      rw [BitVec.ushiftRight_xor_distrib, BitVec.shiftRight_add]
    rw [Function.iterate_succ_apply', ih, List.range_succ, List.map_append, List.foldl_append,
      List.map_singleton, List.foldl_cons, List.foldl_nil, shift, feed, hlow, hdown]
    cases fed.getLsbD 0 ^^ x.getLsbD n
    · rfl
    · rw [if_pos rfl, if_pos rfl, BitVec.xor_assoc, BitVec.xor_comm (x >>> (n + 1)),
        ← BitVec.xor_assoc]

/-- **Eight bits are one byte**, in a register that has room for a byte. -/
theorem foldl_feed_bits (hw : 8 ≤ w) (c : BitVec w) (b : UInt8) :
    (bits b).foldl (feed poly) c = step poly c b := by
  have hbits : (List.range 8).map (b.toBitVec.setWidth w).getLsbD = bits b := by
    apply List.map_congr_left
    intro i hi
    rw [BitVec.getLsbD_setWidth, decide_eq_true (by have := List.mem_range.1 hi; omega),
      Bool.true_and]
  rw [step, iterate_shift_eq_feed, hbits, setWidth_ushiftRight_eight, BitVec.xor_zero]

/-- **The check value of a message is that of its bits.** -/
theorem serial_eq_checksum (hw : 8 ≤ w) (data : List UInt8) :
    serial poly (data.flatMap bits) = checksum poly data := by
  have hfold : ∀ c, (data.flatMap bits).foldl (feed poly) c = data.foldl (step poly) c := by
    induction data with
    | nil => exact fun _ ↦ rfl
    | cons b data ih =>
      intro c
      rw [List.flatMap_cons, List.foldl_append, foldl_feed_bits poly hw, ih, List.foldl_cons]
  rw [serial, checksum, hfold]

/-! ### Continuing a check value -/

/-- The check value after more of the message, from the one so far. -/
def resume (poly sofar : BitVec w) (data : List UInt8) : BitVec w :=
  data.foldl (step poly) (sofar ^^^ BitVec.allOnes w) ^^^ BitVec.allOnes w

/-- A checksum can be resumed. -/
theorem checksum_append (a b : List UInt8) :
    checksum poly (a ++ b) = resume poly (checksum poly a) b := by
  rw [checksum, checksum, resume, List.foldl_append, BitVec.xor_assoc, BitVec.xor_self,
    BitVec.xor_zero]

/-! ### CRC-32 -/

/-- The generator of CRC-32, reflected. -/
def poly32 : BitVec 32 := 0xEDB88320#32

/-- CRC-32 -/
def crc32 (data : List UInt8) : UInt32 :=
  UInt32.ofBitVec (checksum poly32 data)

/-- The check value of the nine digits, which every description of CRC-32 quotes. -/
example : crc32 [0x31, 0x32, 0x33, 0x34, 0x35, 0x36, 0x37, 0x38, 0x39] = 0xCBF43926 := by
  decide +kernel

end Crc
