import Camstream.Stun.Attributes

/-!
# The error response

`stun_build_error_response` clears 44 bytes, and the message it announces has 48: the attributes are a
SOFTWARE of 16 bytes and an ERROR-CODE of 12, and only eight bytes of the latter are written.
`stunBuildErrorResponse_eq` is what every call leaves in the buffer, and in
`take_stunBuildErrorResponse` the message is read as attributes: the last four bytes of the reason are
what the buffer held before.

So two calls with the same arguments need not build the same message. `errorSelfContained_iff` says for
which capacities and previous contents they do.
-/

namespace Camstream

open Bytes Tlv

/-! ### The message -/

/-- SOFTWARE, with the padding cleared. -/
def softwareAttr : Attr where
  type := 0x8022
  value := [0x63, 0x61, 0x6D, 0x73, 0x74, 0x72, 0x65, 0x61, 0x6D]
  padding := [0, 0, 0]
  type_lt := by decide
  length_lt := by decide
  length_padding := by decide

/-- The part of the ERROR-CODE value that is written: a reserved byte, the class and the reason. -/
def errorCodeValue (errorCode : ℕ) : List UInt8 :=
  [0, UInt8.ofNat (errorCode / 100)] ++ be16 (errorCode % 100)

@[simp] theorem length_errorCodeValue (errorCode : ℕ) : (errorCodeValue errorCode).length = 4 := rfl

/-- ERROR-CODE, with what stands in the four bytes behind. -/
def errorCodeAttr (errorCode : ℕ) {rest : List UInt8} (hrest : rest.length = 4) : Attr where
  type := 0x0009
  value := errorCodeValue errorCode ++ rest
  padding := []
  type_lt := by decide
  length_lt := by
    rw [List.length_append, hrest, length_errorCodeValue]
    decide
  length_padding := by
    rw [List.length_append, hrest, length_errorCodeValue]
    rfl

variable {tid : List UInt8} (htid : tid.length = 12) (errorCode : ℕ)

/-- A binding error response to a transaction. -/
def errorHeader : StunHeader where
  type := 0x0111
  rest := be32 stunMagicCookie ++ tid
  type_lt := by decide
  length_rest := by rw [List.length_append, htid]; rfl

/-- The bytes that are written: header, SOFTWARE and the front of ERROR-CODE. -/
def errorWritten : List UInt8 :=
  (errorHeader htid).bytes 28 ++ (softwareAttr.bytes ++ (be16 0x0009 ++ be16 8 ++ errorCodeValue errorCode))

theorem length_errorWritten : (errorWritten htid errorCode).length = 44 := by
  rw [errorWritten, List.length_append, StunHeader.length_bytes]
  rfl

/-- **What `stun_build_error_response` builds**: 44 bytes that depend on transaction and code only, then
the buffer as it was, four bytes of which count as message. -/
theorem stunBuildErrorResponse_eq (out : List UInt8) {outCapacity : ℕ} (hcapacity : 44 ≤ outCapacity) :
    stunBuildErrorResponse tid errorCode out outCapacity =
      some (errorWritten htid errorCode ++ out.drop 44, 48) := by
  set r := out.drop 44 with hr
  set z : ℕ → List UInt8 := fun n ↦ List.replicate n 0
  -- The writes in the order of the source, each on whole blocks; three zeros stay between the attributes.
  have hclear : writeAt out 0 (z 44) = [z 2, z 2, z 4, z 12, z 13, z 3, z 8, r].flatten := by
    rw [writeAt, List.take_zero, List.nil_append, List.length_replicate, Nat.zero_add]
    simp only [List.flatten_cons, List.flatten_nil, List.append_nil]
    rfl
  have htype : writeAt [z 2, z 2, z 4, z 12, z 13, z 3, z 8, r].flatten 0 [0x01, 0x11] =
      [[0x01, 0x11], z 2, z 4, z 12, z 13, z 3, z 8, r].flatten :=
    writeAt_flatten [] rfl rfl
  have hcookie : writeAt [[0x01, 0x11], z 2, z 4, z 12, z 13, z 3, z 8, r].flatten 4
      (be32 stunMagicCookie) =
        [[0x01, 0x11], z 2, be32 stunMagicCookie, z 12, z 13, z 3, z 8, r].flatten :=
    writeAt_flatten [[0x01, 0x11], z 2] rfl rfl
  have htransaction : writeAt [[0x01, 0x11], z 2, be32 stunMagicCookie, z 12, z 13, z 3, z 8, r].flatten 8
      tid = [[0x01, 0x11], z 2, be32 stunMagicCookie, tid, z 13, z 3, z 8, r].flatten :=
    writeAt_flatten [[0x01, 0x11], z 2, be32 stunMagicCookie] rfl htid.symm
  have hsoftware : writeAt [[0x01, 0x11], z 2, be32 stunMagicCookie, tid, z 13, z 3, z 8, r].flatten 20
      (be16 0x8022 ++ be16 9 ++ softwareAttr.value) =
        [[0x01, 0x11], z 2, be32 stunMagicCookie, tid, be16 0x8022 ++ be16 9 ++ softwareAttr.value, z 3,
          z 8, r].flatten :=
    writeAt_flatten [[0x01, 0x11], z 2, be32 stunMagicCookie, tid] (by simp [z, htid]) rfl
  have herror : writeAt [[0x01, 0x11], z 2, be32 stunMagicCookie, tid,
      be16 0x8022 ++ be16 9 ++ softwareAttr.value, z 3, z 8, r].flatten 36
        (be16 0x0009 ++ be16 8 ++ errorCodeValue errorCode) =
          [[0x01, 0x11], z 2, be32 stunMagicCookie, tid, be16 0x8022 ++ be16 9 ++ softwareAttr.value, z 3,
            be16 0x0009 ++ be16 8 ++ errorCodeValue errorCode, r].flatten :=
    writeAt_flatten [[0x01, 0x11], z 2, be32 stunMagicCookie, tid,
      be16 0x8022 ++ be16 9 ++ softwareAttr.value, z 3] (by simp [z, htid, softwareAttr]) rfl
  have hlength : writeAt [[0x01, 0x11], z 2, be32 stunMagicCookie, tid,
      be16 0x8022 ++ be16 9 ++ softwareAttr.value, z 3,
        be16 0x0009 ++ be16 8 ++ errorCodeValue errorCode, r].flatten 2 (be16 28) =
          [[0x01, 0x11], be16 28, be32 stunMagicCookie, tid, be16 0x8022 ++ be16 9 ++ softwareAttr.value,
            z 3, be16 0x0009 ++ be16 8 ++ errorCodeValue errorCode, r].flatten :=
    writeAt_flatten [[0x01, 0x11]] rfl rfl
  have hmessage : [[0x01, 0x11], be16 28, be32 stunMagicCookie, tid,
      be16 0x8022 ++ be16 9 ++ softwareAttr.value, z 3,
        be16 0x0009 ++ be16 8 ++ errorCodeValue errorCode, r].flatten =
          errorWritten htid errorCode ++ r := by
    simp only [errorWritten, StunHeader.bytes, errorHeader, List.flatten_cons, List.flatten_nil,
      List.append_nil, List.append_assoc]
    rfl
  rw [stunBuildErrorResponse, if_neg (by omega)]
  simp only [stunHeaderSize]
  rw [hclear, htype, hcookie, List.take_of_length_le htid.le, htransaction]
  show some (writeAt (writeAt (writeAt _ 20 (be16 0x8022 ++ be16 9 ++ softwareAttr.value)) 36
    (be16 0x0009 ++ be16 8 ++ errorCodeValue errorCode)) 2 (be16 28), 48) = _
  rw [hsoftware, herror, hlength, hmessage]

/-- The message, of which the last four bytes were in the buffer before. -/
theorem take_errorWritten (rest : List UInt8) :
    (errorWritten htid errorCode ++ rest).take 48 = errorWritten htid errorCode ++ rest.take 4 := by
  rw [List.take_append, length_errorWritten, List.take_of_length_le (by rw [length_errorWritten]; decide)]

/-- In a buffer of 48 bytes or more the message is well formed: the old bytes stand in ERROR-CODE. -/
theorem take_stunBuildErrorResponse {out : List UInt8} (hout : 48 ≤ out.length) :
    ∃ hrest : ((out.drop 44).take 4).length = 4,
      (errorWritten htid errorCode ++ out.drop 44).take 48 =
        stunMessage (errorHeader htid) [softwareAttr, errorCodeAttr errorCode hrest] := by
  have hrest : ((out.drop 44).take 4).length = 4 := by
    rw [List.length_take, List.length_drop]
    omega
  have hvalue : (errorCodeAttr errorCode hrest).value.length = 8 := by
    rw [errorCodeAttr, List.length_append, hrest, length_errorCodeValue]
  have hbytes : (errorCodeAttr errorCode hrest).bytes =
      be16 0x0009 ++ be16 8 ++ errorCodeValue errorCode ++ (out.drop 44).take 4 := by
    rw [Attr.bytes, hvalue]
    simp only [errorCodeAttr, List.append_nil, List.append_assoc]
  have hlen : (encode [softwareAttr, errorCodeAttr errorCode hrest]).length = 28 := by
    rw [encode_cons, encode_singleton, List.length_append, Attr.length_bytes, Attr.length_bytes, hvalue]
    rfl
  refine ⟨hrest, ?_⟩
  rw [take_errorWritten, stunMessage, hlen, encode_cons, encode_singleton, hbytes, errorWritten]
  simp only [List.append_assoc]

/-! ### Two calls -/

/-- Two calls on buffers with any previous contents: what they return is within the capacity, nothing at
or behind the capacity is written, and the messages are the same. -/
def ErrorSelfContained (tid : List UInt8) (errorCode outCapacity : ℕ) (out out' : List UInt8) : Prop :=
  ∀ buf len buf' len', stunBuildErrorResponse tid errorCode out outCapacity = some (buf, len) →
    stunBuildErrorResponse tid errorCode out' outCapacity = some (buf', len') →
      len ≤ outCapacity ∧ buf.drop outCapacity = out.drop outCapacity ∧
        len' = len ∧ buf'.take len' = buf.take len

/-- A capacity below 44 is refused. -/
theorem errorSelfContained_of_lt {outCapacity : ℕ} (hcapacity : outCapacity < 44) (out out' : List UInt8) :
    ErrorSelfContained tid errorCode outCapacity out out' := by
  intro buf len buf' len' hbuild
  rw [stunBuildErrorResponse, if_pos hcapacity] at hbuild
  exact absurd hbuild.symm (Option.some_ne_none _)

include htid in
/-- From 44 on, the capacity has to hold the message, and the buffers have to agree on its last four
bytes. -/
theorem errorSelfContained_of_le {outCapacity : ℕ} (hcapacity : 44 ≤ outCapacity) (out out' : List UInt8) :
    ErrorSelfContained tid errorCode outCapacity out out' ↔
      48 ≤ outCapacity ∧ (out.drop 44).take 4 = (out'.drop 44).take 4 := by
  have hdrop : (errorWritten htid errorCode ++ out.drop 44).drop outCapacity = out.drop outCapacity := by
    rw [List.drop_append, length_errorWritten, List.drop_of_length_le (by rwa [length_errorWritten]),
      List.drop_drop, List.nil_append, Nat.add_sub_cancel' hcapacity]
  rw [ErrorSelfContained, stunBuildErrorResponse_eq htid errorCode out hcapacity,
    stunBuildErrorResponse_eq htid errorCode out' hcapacity]
  constructor
  · intro h
    obtain ⟨hlen, -, -, hmessage⟩ := h _ _ _ _ rfl rfl
    rw [take_errorWritten, take_errorWritten] at hmessage
    exact ⟨hlen, (List.append_cancel_left hmessage).symm⟩
  · rintro ⟨hlen, hrest⟩ buf len buf' len' hbuild hbuild'
    obtain ⟨rfl, rfl⟩ := Prod.mk.inj (Option.some.inj hbuild)
    obtain ⟨rfl, rfl⟩ := Prod.mk.inj (Option.some.inj hbuild')
    exact ⟨hlen, hdrop, rfl, by rw [take_errorWritten, take_errorWritten, hrest]⟩

/-- **Error responses carry stale bytes.** For every transaction, code and capacity, two calls are
self-contained exactly when they are refused, or the capacity holds the message and the two buffers
already agreed on bytes 44 to 47. Whatever the buffers held, this is so only for refused calls. -/
theorem errorSelfContained_iff {tid : List UInt8} (htid : tid.length = 12) (errorCode outCapacity : ℕ) :
    (∀ out out' : List UInt8, ErrorSelfContained tid errorCode outCapacity out out' ↔
      outCapacity < 44 ∨ 48 ≤ outCapacity ∧ (out.drop 44).take 4 = (out'.drop 44).take 4) ∧
    ((∀ out out' : List UInt8, outCapacity ≤ out.length → outCapacity ≤ out'.length →
      ErrorSelfContained tid errorCode outCapacity out out') ↔ outCapacity < 44) := by
  have hpair : ∀ out out' : List UInt8, ErrorSelfContained tid errorCode outCapacity out out' ↔
      outCapacity < 44 ∨ 48 ≤ outCapacity ∧ (out.drop 44).take 4 = (out'.drop 44).take 4 := by
    intro out out'
    rcases Nat.lt_or_ge outCapacity 44 with hcapacity | hcapacity
    · exact iff_of_true (errorSelfContained_of_lt errorCode hcapacity out out') (Or.inl hcapacity)
    · rw [errorSelfContained_of_le htid errorCode hcapacity]
      exact (or_iff_right (by omega)).symm
  refine ⟨hpair, fun h ↦ ?_, fun hcapacity out out' _ _ ↦ errorSelfContained_of_lt errorCode hcapacity out out'⟩
  by_contra hcapacity
  -- A buffer of zeros and a buffer of ones.
  have hzeros := h (List.replicate outCapacity 0) (List.replicate outCapacity 1)
    List.length_replicate.ge List.length_replicate.ge
  obtain ⟨hlen, hrest⟩ := (hpair _ _).1 hzeros |>.resolve_left hcapacity
  rw [List.drop_replicate, List.drop_replicate, List.take_replicate, List.take_replicate,
    Nat.min_eq_left (by omega)] at hrest
  exact absurd hrest (by decide)

/-- The answer to a transaction of zeros, in a buffer of 64 bytes. -/
theorem errorSelfContained_iff_sample :
    (∀ out out' : List UInt8, ErrorSelfContained (List.replicate 12 0) 401 64 out out' ↔
      64 < 44 ∨ 48 ≤ 64 ∧ (out.drop 44).take 4 = (out'.drop 44).take 4) ∧
    ((∀ out out' : List UInt8, 64 ≤ out.length → 64 ≤ out'.length →
      ErrorSelfContained (List.replicate 12 0) 401 64 out out') ↔ 64 < 44) :=
  errorSelfContained_iff (by decide) 401 64

/-- A 401 in the buffer of the sender: on a stack of zeros it is another message than on a stack of
ones. -/
theorem not_errorSelfContained_stack :
    ¬ ErrorSelfContained (List.replicate 12 0) 401 64 (List.replicate 64 0) (List.replicate 64 1) := by
  rw [errorSelfContained_of_le (by decide) 401 (by decide)]
  decide

end Camstream
