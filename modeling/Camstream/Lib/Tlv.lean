import Mathlib.Data.List.Basic
import Camstream.Lib.Bytes

/-!
# Aligned type-length-value lists

Lists of attributes in the encoding common to many datagram protocols: a 16-bit type, a 16-bit
length, the value, and padding up to a multiple of four bytes. The length counts the value only. The
padding bytes are part of the attribute here, since they are on the wire and a receiver ignores them.

`locate` is the first attribute of a type together with the offset it starts at; a receiver that
walks the encoding by offsets is compared with it.
-/

namespace Tlv

open Bytes

/-- The next multiple of four. -/
def pad4 (n : ℕ) : ℕ := (n + 3) / 4 * 4

theorem le_pad4 (n : ℕ) : n ≤ pad4 n := by
  rw [pad4]
  omega

theorem pad4_mono {m n : ℕ} (h : m ≤ n) : pad4 m ≤ pad4 n := by
  unfold pad4
  omega

/-- An attribute as it stands on the wire. -/
structure Attr where
  type : ℕ
  value : List UInt8
  padding : List UInt8
  type_lt : type < 2 ^ 16
  length_lt : value.length < 2 ^ 16
  length_padding : value.length + padding.length = pad4 value.length

/-- The bytes of an attribute. -/
def Attr.bytes (a : Attr) : List UInt8 :=
  be16 a.type ++ be16 a.value.length ++ (a.value ++ a.padding)

/-- The bytes of a list of attributes. -/
def encode (as : List Attr) : List UInt8 :=
  as.flatMap Attr.bytes

theorem Attr.length_bytes (a : Attr) : a.bytes.length = 4 + pad4 a.value.length := by
  rw [← a.length_padding]
  simp only [Attr.bytes, List.length_append, length_be16]

@[simp] theorem encode_nil : encode [] = [] := rfl

theorem encode_cons (a : Attr) (as : List Attr) : encode (a :: as) = a.bytes ++ encode as := rfl

theorem encode_append (as bs : List Attr) : encode (as ++ bs) = encode as ++ encode bs :=
  List.flatMap_append

theorem encode_singleton (a : Attr) : encode [a] = a.bytes := by
  rw [encode_cons, encode_nil, List.append_nil]

/-- The first attribute of a type, with the offset it starts at, the list itself starting at `off`. -/
def locate (wanted off : ℕ) : List Attr → Option (ℕ × Attr)
  | [] => none
  | a :: as => if a.type = wanted then some (off, a) else locate wanted (off + a.bytes.length) as

theorem locate_eq_none {wanted off : ℕ} {as : List Attr} :
    locate wanted off as = none ↔ ∀ a ∈ as, a.type ≠ wanted := by
  induction as generalizing off with
  | nil => simp [locate]
  | cons a as ih =>
    rw [locate, List.forall_mem_cons]
    split_ifs with h
    · simp [h]
    · rw [ih]
      simp [h]

/-- Attributes of other types in front only move the offset. -/
theorem locate_append_of_forall_ne {wanted off : ℕ} {as : List Attr} (bs : List Attr)
    (h : ∀ a ∈ as, a.type ≠ wanted) :
    locate wanted off (as ++ bs) = locate wanted (off + (encode as).length) bs := by
  induction as generalizing off with
  | nil => rfl
  | cons a as ih =>
    rw [List.forall_mem_cons] at h
    rw [List.cons_append, locate, if_neg h.1, ih h.2, encode_cons, List.length_append,
      Nat.add_assoc]

/-- What is found in front is found whatever follows. -/
theorem locate_append_of_eq_some {wanted off : ℕ} {as : List Attr} (bs : List Attr)
    {r : ℕ × Attr} (h : locate wanted off as = some r) :
    locate wanted off (as ++ bs) = some r := by
  induction as generalizing off with
  | nil => exact absurd h (by simp [locate])
  | cons a as ih =>
    rw [locate] at h
    rw [List.cons_append, locate]
    split_ifs at h ⊢ with ha
    · exact h
    · exact ih h

/-- What is found is in the list, so the list is at least as long. -/
theorem length_bytes_le_of_locate {wanted off : ℕ} {as : List Attr} {r : ℕ × Attr}
    (h : locate wanted off as = some r) : r.2.bytes.length ≤ (encode as).length := by
  induction as generalizing off with
  | nil => exact absurd h (by simp [locate])
  | cons a as ih =>
    rw [encode_cons, List.length_append]
    rw [locate] at h
    split_ifs at h with ha
    · obtain rfl := Option.some.inj h
      exact Nat.le_add_right _ _
    · exact Nat.le_trans (ih h) (Nat.le_add_left _ _)

/-! ### Reading the fields back -/

/-- The type field of an attribute that starts at `pre.length`. -/
theorem readBe16_type (pre post : List UInt8) (a : Attr) :
    readBe16 (pre ++ (a.bytes ++ post)) pre.length = a.type := by
  have h := readBe16_append_right pre (a.bytes ++ post) 0
  rw [Nat.add_zero] at h
  rw [h, Attr.bytes, List.append_assoc, List.append_assoc,
    readBe16_append_left (Nat.le_refl _), readBe16_be16 a.type_lt]

/-- The length field. -/
theorem readBe16_length (pre post : List UInt8) (a : Attr) :
    readBe16 (pre ++ (a.bytes ++ post)) (pre.length + 2) = a.value.length := by
  have h : readBe16 (be16 a.type ++ (be16 a.value.length ++ (a.value ++ a.padding ++ post))) 2 =
      readBe16 (be16 a.value.length ++ (a.value ++ a.padding ++ post)) 0 :=
    readBe16_append_right (be16 a.type) _ 0
  rw [readBe16_append_right, Attr.bytes, List.append_assoc, List.append_assoc, h,
    readBe16_append_left (Nat.le_refl _), readBe16_be16 a.length_lt]

/-- The value of an attribute that starts at `pre.length`. -/
theorem take_value (pre post : List UInt8) (a : Attr) :
    ((pre ++ (a.bytes ++ post)).drop (pre.length + 4)).take a.value.length = a.value := by
  have hsplit : a.bytes ++ post =
      (be16 a.type ++ be16 a.value.length) ++ (a.value ++ (a.padding ++ post)) := by
    simp only [Attr.bytes, List.append_assoc]
  have hdrop : (a.bytes ++ post).drop 4 = a.value ++ (a.padding ++ post) := by
    rw [hsplit]
    exact List.drop_left' rfl
  rw [← List.drop_drop, List.drop_left, hdrop, List.take_left]

/-! ### Walking an encoding -/

/-- The attributes in a sequence of bytes, at most `fuel` of them: types and values, without padding. The
bytes have to end where an attribute ends. -/
def walk : ℕ → List UInt8 → Option (List (ℕ × List UInt8))
  | _, [] => some []
  | 0, _ :: _ => none
  | fuel + 1, b :: l => do
    let type ← readBe16? (b :: l) 0
    let length ← readBe16? (b :: l) 2
    let value ← slice? (b :: l) 4 (pad4 length)
    let rest ← walk fuel ((b :: l).drop (4 + pad4 length))
    some ((type, value.take length) :: rest)

@[simp] theorem walk_nil (fuel : ℕ) : walk fuel [] = some [] := by
  cases fuel <;> rfl

/-- One step of a walk. -/
theorem walk_succ (fuel : ℕ) {l : List UInt8} (hl : l ≠ []) :
    walk (fuel + 1) l = (do
      let type ← readBe16? l 0
      let length ← readBe16? l 2
      let value ← slice? l 4 (pad4 length)
      let rest ← walk fuel (l.drop (4 + pad4 length))
      some ((type, value.take length) :: rest)) := by
  cases l with
  | nil => exact absurd rfl hl
  | cons b l => rfl

theorem Attr.bytes_append (a : Attr) (l : List UInt8) :
    a.bytes ++ l = be16 a.type ++ be16 a.value.length ++ (a.value ++ a.padding ++ l) := by
  simp only [Attr.bytes, List.append_assoc]

/-- The fields in front of a value. -/
theorem readBe16?_fields {t n : ℕ} (ht : t < 2 ^ 16) (hn : n < 2 ^ 16) (l : List UInt8) :
    readBe16? (be16 t ++ be16 n ++ l) 0 = some t ∧ readBe16? (be16 t ++ be16 n ++ l) 2 = some n := by
  have htype : readBe16? (be16 t ++ be16 n ++ l) 0 = some (readBe16 (be16 t) 0) := rfl
  have hlength : readBe16? (be16 t ++ be16 n ++ l) 2 = some (readBe16 (be16 n) 0) := rfl
  rw [htype, hlength, readBe16_be16 ht, readBe16_be16 hn]
  exact ⟨rfl, rfl⟩

/-- **An attribute in front** is the first one of a walk. -/
theorem walk_append (fuel : ℕ) (a : Attr) (l : List UInt8) :
    walk (fuel + 1) (a.bytes ++ l) = (walk fuel l).map ((a.type, a.value) :: ·) := by
  have hne : a.bytes ++ l ≠ [] := by
    rw [a.bytes_append]
    exact List.cons_ne_nil _ _
  have hpadded : (a.value ++ a.padding).length = pad4 a.value.length := by
    rw [List.length_append, a.length_padding]
  have hvalue : slice? (a.bytes ++ l) 4 (pad4 a.value.length) = some (a.value ++ a.padding) := by
    have hdrop : (be16 a.type ++ be16 a.value.length ++ (a.value ++ a.padding ++ l)).drop 4 =
        a.value ++ a.padding ++ l := List.drop_left' rfl
    rw [slice?, if_pos (by rw [List.length_append, a.length_bytes]; omega), a.bytes_append, hdrop,
      List.take_left' hpadded]
  have hrest : (a.bytes ++ l).drop (4 + pad4 a.value.length) = l := List.drop_left' a.length_bytes
  obtain ⟨htype, hlength⟩ := readBe16?_fields a.type_lt a.length_lt (a.value ++ a.padding ++ l)
  rw [← a.bytes_append] at htype hlength
  rw [walk_succ fuel hne, htype, hlength]
  simp only [Option.bind_eq_bind, Option.bind_some, hvalue, hrest, List.take_left]
  cases walk fuel l <;> rfl

/-- **An encoding reads back** as what was encoded. -/
theorem walk_encode {as : List Attr} {fuel : ℕ} (h : as.length ≤ fuel) :
    walk fuel (encode as) = some (as.map fun a ↦ (a.type, a.value)) := by
  induction as generalizing fuel with
  | nil => exact walk_nil fuel
  | cons a as ih =>
    obtain ⟨n, rfl⟩ := Nat.exists_eq_add_of_le' (Nat.le_trans (Nat.succ_le_succ (Nat.zero_le _)) h)
    rw [encode_cons, walk_append, ih (by simpa using h), Option.map_some, List.map_cons]

/-- A value that is cut off ends the walk without a result. -/
theorem walk_eq_none_of_short (fuel : ℕ) {t n : ℕ} (ht : t < 2 ^ 16) (hn : n < 2 ^ 16) {l : List UInt8}
    (hl : l.length < pad4 n) : walk (fuel + 1) (be16 t ++ be16 n ++ l) = none := by
  have hne : be16 t ++ be16 n ++ l ≠ [] := List.cons_ne_nil _ _
  obtain ⟨htype, hlength⟩ := readBe16?_fields ht hn l
  have hvalue : slice? (be16 t ++ be16 n ++ l) 4 (pad4 n) = none := by
    rw [slice?, if_neg (by simp only [List.length_append, length_be16]; omega)]
  rw [walk_succ fuel hne, htype, hlength]
  simp only [Option.bind_eq_bind, Option.bind_some, hvalue, Option.bind_none]

end Tlv
