import Camstream.Lib.Bytes

/-!
# Strings in arrays

Assignments to the elements of an array, `snprintf` into an array and `strcmp` of two arrays, over lists of
bytes: an access outside an array has no result. A string that is built up from the left is a prefix of its
array, `s <+: buf`; it is terminated when `s ++ [0] <+: buf`.
-/

namespace CBuffer

open Bytes

/-- `buf[i] = c` -/
def store (buf : List UInt8) (i : ℕ) (c : UInt8) : Option (List UInt8) :=
  if i < buf.length then some (writeAt buf i [c]) else none

/-- What `snprintf` writes of a text when it is given `n` bytes. -/
def printed (n : ℕ) (text : List UInt8) : List UInt8 :=
  if n = 0 then [] else text.take (n - 1) ++ [0]

/-- `snprintf(buf + i, n, …)`, which prints a text. -/
def snprintf (buf : List UInt8) (i n : ℕ) (text : List UInt8) : Option (List UInt8) :=
  if i + (printed n text).length ≤ buf.length then some (writeAt buf i (printed n text)) else none

/-- `strcmp(a, b) == 0` -/
def strcmpEq : List UInt8 → List UInt8 → Option Bool
  | a :: s, b :: t => if a ≠ b then some false else if a = 0 then some true else strcmpEq s t
  | _, _ => none

/-- Bytes behind a string leave it and the size of the array as they are. -/
theorem prefix_writeAt {s buf bs : List UInt8} (hs : s <+: buf) (h : s.length + bs.length ≤ buf.length) :
    s ++ bs <+: writeAt buf s.length bs ∧ (writeAt buf s.length bs).length = buf.length := by
  have htake : buf.take s.length = s := (List.prefix_iff_eq_take.1 hs).symm
  constructor
  · rw [writeAt, htake]
    exact List.prefix_append _ _
  · rw [writeAt, htake, List.length_append, List.length_append, List.length_drop]
    omega

/-- **One more byte** of a string. -/
theorem exists_store {s buf : List UInt8} (hs : s <+: buf) (h : s.length < buf.length) (c : UInt8) :
    ∃ buf', store buf s.length c = some buf' ∧ s ++ [c] <+: buf' ∧ buf'.length = buf.length :=
  ⟨_, if_pos h, prefix_writeAt hs h⟩

/-- **A text that fits** is appended, with a zero behind it. -/
theorem exists_snprintf {s buf text : List UInt8} (hs : s <+: buf)
    (h : s.length + text.length < buf.length) :
    ∃ buf', snprintf buf s.length (buf.length - s.length) text = some buf' ∧
      s ++ text ++ [0] <+: buf' ∧ buf'.length = buf.length := by
  have hprinted : printed (buf.length - s.length) text = text ++ [0] := by
    rw [printed, if_neg (by omega), List.take_of_length_le (by omega)]
  have hlen : s.length + (text ++ [0]).length ≤ buf.length := by
    rw [List.length_append, List.length_singleton]
    omega
  rw [snprintf, hprinted, if_pos hlen, List.append_assoc]
  exact ⟨_, rfl, prefix_writeAt hs hlen⟩

/-- **Two terminated strings** are compared without leaving their arrays. -/
theorem strcmpEq_of_isPrefix {s t a b : List UInt8} (hs : 0 ∉ s) (ht : 0 ∉ t) (ha : s ++ [0] <+: a)
    (hb : t ++ [0] <+: b) : strcmpEq a b = some (decide (s = t)) := by
  obtain ⟨a', rfl⟩ := ha
  obtain ⟨b', rfl⟩ := hb
  induction s generalizing t with
  | nil =>
    cases t with
    | nil => rfl
    | cons d t =>
      rw [List.mem_cons, not_or] at ht
      exact if_pos ht.1
  | cons c s ih =>
    rw [List.mem_cons, not_or] at hs
    cases t with
    | nil => exact if_pos (Ne.symm hs.1)
    | cons d t =>
      rw [List.mem_cons, not_or] at ht
      simp only [List.cons_append, strcmpEq, List.cons.injEq]
      rcases eq_or_ne c d with rfl | hcd
      · rw [if_neg (not_not.2 rfl), if_neg (Ne.symm hs.1), ih hs.2 ht.2]
        simp
      · rw [if_pos hcd]
        simp [hcd]

end CBuffer
