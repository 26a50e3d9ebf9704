import Camstream.Stun.ErrorResponse

/-!
# The code of an error response

An ERROR-CODE value opens with 21 reserved bits, then three bits for the hundreds of the code and eight for
the rest. `stun_build_error_response` writes the hundreds a byte too early, into the reserved bits, and the
rest as a field of 16 bits. Everything around the value is right (`errorFraming_build`), and a reader of the
value gets the last two digits of the code (`errorCodeOf_errorCodeValue`), so that no code from 300 on comes
back.
-/

namespace Camstream

open Bytes Tlv

/-- The code in an ERROR-CODE value, without the reserved bits. -/
def errorCodeOf (value : List UInt8) : Option ℕ := do
  let word ← readBe32? value 0
  some (word / 2 ^ 8 % 2 ^ 3 * 100 + word % 2 ^ 8)

example : errorCodeOf [0, 0, 4, 1] = some 401 := by decide

/-- The frame of an error response of `len` bytes: its type, the transaction, the length field, and two
attributes, SOFTWARE and ERROR-CODE, with nothing behind them. -/
def ErrorFraming (tid msg : List UInt8) (len : ℕ) (software value : List UInt8) : Prop :=
  readBe16 msg 0 = 0x0111 ∧ slice? msg 8 12 = some tid ∧ readBe16 msg 2 = len - stunHeaderSize ∧
    walk msg.length (msg.drop stunHeaderSize) = some [(0x8022, software), (0x0009, value)]

/-- The message that is returned, if there is one, is framed as an error response, and its code is the
code it was built for. -/
def ErrorRoundTrip (tid : List UInt8) (errorCode : ℕ) (out : List UInt8) (outCapacity : ℕ) : Prop :=
  ∀ buf len, stunBuildErrorResponse tid errorCode out outCapacity = some (buf, len) →
    ∃ software value, ErrorFraming tid (buf.take len) len software value ∧
      errorCodeOf value = some errorCode

/-- **What a reader gets**: the hundreds are lost among the reserved bits. -/
theorem errorCodeOf_errorCodeValue (errorCode : ℕ) (rest : List UInt8) :
    errorCodeOf (errorCodeValue errorCode ++ rest) = some (errorCode % 100) := by
  have hword : readBe32? (errorCodeValue errorCode ++ rest) 0 =
      some (0 * 2 ^ 24 + (UInt8.ofNat (errorCode / 100)).toNat * 2 ^ 16 +
        (UInt8.ofNat (errorCode % 100 / 2 ^ 8)).toNat * 2 ^ 8 + (UInt8.ofNat (errorCode % 100)).toNat) := rfl
  rw [errorCodeOf, hword]
  simp only [Option.bind_eq_bind, Option.bind_some, UInt8.toNat_ofNat', Option.some.injEq]
  omega

section

variable {tid : List UInt8} (htid : tid.length = 12) (errorCode : ℕ) {out : List UInt8}

/-- In a buffer that holds the message, the frame is right. -/
theorem errorFraming_build (hout : 48 ≤ out.length) :
    ErrorFraming tid ((errorWritten htid errorCode ++ out.drop 44).take 48) 48 softwareAttr.value
      (errorCodeValue errorCode ++ (out.drop 44).take 4) := by
  obtain ⟨hrest, hmessage⟩ := take_stunBuildErrorResponse htid errorCode hout
  set as := [softwareAttr, errorCodeAttr errorCode hrest] with has
  have hlen : (encode as).length = 28 := by
    rw [has, encode_cons, encode_singleton, List.length_append, Attr.length_bytes, Attr.length_bytes,
      errorCodeAttr, List.length_append, hrest, length_errorCodeValue]
    rfl
  have hheader : ((errorHeader htid).bytes (encode as).length).length = stunHeaderSize :=
    StunHeader.length_bytes _ _
  have htransaction : (stunMessage (errorHeader htid) as).drop 8 = tid ++ encode as := by
    rw [stunMessage, StunHeader.bytes, errorHeader]
    simp only [List.append_assoc]
    rfl
  rw [hmessage]
  refine ⟨readBe16_stunMessage_zero _ _, ?_, ?_, ?_⟩
  · rw [slice?, if_pos (by rw [length_stunMessage, hlen]; decide), htransaction, List.take_left' htid]
  · rw [readBe16_stunMessage_two (by rw [Fits, hlen]; decide), hlen]
    rfl
  · rw [length_stunMessage, hlen, stunMessage, List.drop_left' hheader]
    exact walk_encode (show 2 ≤ 48 by decide)

/-- Where the message does not fit, its last attribute is cut off. -/
theorem walk_errorWritten_of_lt (hout : out.length < 48) (fuel : ℕ) :
    walk (fuel + 2) (((errorWritten htid errorCode ++ out.drop 44).take 48).drop stunHeaderSize) = none := by
  have hdrop : ((errorWritten htid errorCode ++ out.drop 44).take 48).drop stunHeaderSize =
      softwareAttr.bytes ++
        (be16 0x0009 ++ be16 8 ++ (errorCodeValue errorCode ++ (out.drop 44).take 4)) := by
    rw [take_errorWritten, errorWritten]
    simp only [List.append_assoc]
    exact List.drop_left' (StunHeader.length_bytes _ _)
  have hshort : (errorCodeValue errorCode ++ (out.drop 44).take 4).length < pad4 8 := by
    rw [List.length_append, length_errorCodeValue, List.length_take, List.length_drop, pad4]
    omega
  rw [hdrop, walk_append, walk_eq_none_of_short fuel (by decide) (by decide) hshort, Option.map_none]

/-- A reader that finds the two attributes finds the value that was written. -/
theorem errorCodeOf_of_errorFraming {software value : List UInt8}
    (h : ErrorFraming tid ((errorWritten htid errorCode ++ out.drop 44).take 48) 48 software value) :
    errorCodeOf value = some (errorCode % 100) := by
  obtain ⟨-, -, -, hwalk⟩ := h
  rcases Nat.lt_or_ge out.length 48 with hout | hout
  · have hlen : ((errorWritten htid errorCode ++ out.drop 44).take 48).length =
        42 + ((out.drop 44).take 4).length + 2 := by
      rw [take_errorWritten, List.length_append, length_errorWritten]
      omega
    rw [hlen, walk_errorWritten_of_lt htid errorCode hout] at hwalk
    exact absurd hwalk.symm (Option.some_ne_none _)
  · obtain ⟨-, -, -, hbuilt⟩ := errorFraming_build htid errorCode hout
    have hvalue := Option.some.inj (hwalk.symm.trans hbuilt)
    simp only [List.cons.injEq, Prod.mk.injEq, true_and, and_true] at hvalue
    rw [hvalue.2, errorCodeOf_errorCodeValue]

end

/-- **No error code comes back.** For every transaction and every code from 300 on, whatever the buffer
holds, the round trip fails for every message that is built. Where the buffer holds the message, the frame
is right and a reader gets the last two digits. -/
theorem errorRoundTrip_iff {tid : List UInt8} (htid : tid.length = 12) {errorCode : ℕ}
    (hcode : 300 ≤ errorCode) (out : List UInt8) (outCapacity : ℕ) :
    (ErrorRoundTrip tid errorCode out outCapacity ↔ outCapacity < 44) ∧
    (44 ≤ outCapacity → 48 ≤ out.length →
      ∃ buf software value, stunBuildErrorResponse tid errorCode out outCapacity = some (buf, 48) ∧
        ErrorFraming tid (buf.take 48) 48 software value ∧
        errorCodeOf value = some (errorCode % 100)) := by
  have hbuild : 44 ≤ outCapacity → stunBuildErrorResponse tid errorCode out outCapacity =
      some (errorWritten htid errorCode ++ out.drop 44, 48) := stunBuildErrorResponse_eq htid errorCode out
  refine ⟨⟨fun h ↦ ?_, fun hcapacity buf len h ↦ ?_⟩, fun hcapacity hout ↦ ?_⟩
  · by_contra hcapacity
    obtain ⟨software, value, hframing, hvalue⟩ := h _ _ (hbuild (by omega))
    rw [errorCodeOf_of_errorFraming htid errorCode hframing, Option.some.injEq] at hvalue
    omega
  · rw [stunBuildErrorResponse, if_pos hcapacity] at h
    exact absurd h.symm (Option.some_ne_none _)
  · exact ⟨_, _, _, hbuild hcapacity, errorFraming_build htid errorCode hout,
      errorCodeOf_errorCodeValue errorCode _⟩

/-- The 401 of an unauthenticated request, built in 64 bytes. -/
theorem errorRoundTrip_iff_sample :
    (ErrorRoundTrip (List.replicate 12 0) 401 (List.replicate 64 0) 64 ↔ 64 < 44) ∧
    (44 ≤ 64 → 48 ≤ (List.replicate 64 (0 : UInt8)).length →
      ∃ buf software value,
        stunBuildErrorResponse (List.replicate 12 0) 401 (List.replicate 64 0) 64 = some (buf, 48) ∧
          ErrorFraming (List.replicate 12 0) (buf.take 48) 48 software value ∧
          errorCodeOf value = some (401 % 100)) :=
  errorRoundTrip_iff (by decide) (by decide) (List.replicate 64 0) 64

/-- The round trip fails for a 401: the reader of the message gets code 1. -/
theorem not_errorRoundTrip_unauthorized :
    ¬ ErrorRoundTrip (List.replicate 12 0) 401 (List.replicate 64 0) 64 := by
  intro h
  have htid : (List.replicate 12 (0 : UInt8)).length = 12 := List.length_replicate
  obtain ⟨software, value, hframing, hvalue⟩ :=
    h _ _ (stunBuildErrorResponse_eq htid 401 (List.replicate 64 0) (by decide))
  rw [errorCodeOf_of_errorFraming htid 401 hframing] at hvalue
  exact absurd hvalue (by decide)

end Camstream
