import Mathlib.Tactic.Common
import Camstream.Stun.Message

/-!
# The walk over well-formed messages

A well-formed message is a header whose length field covers a list of attributes, followed by those
attributes (`stunMessage`). On such a message the offset arithmetic of `stun_find_attribute` is the
list search `Tlv.locate` (`stunFindAttribute_message`), and each of the three tests of a binding
request becomes a statement about the header and the attributes:

* `isSome_stunIsBindingRequest_message` — type and cookie only;
* `stunVerifyMi_message` — the MAC is over the header and the attributes *before* the first
  MESSAGE-INTEGRITY, with the length field the sender had;
* `stunUsernameMatches_message` — the value of the first USERNAME, **wherever it stands**.
-/

namespace Camstream

open Bytes Tlv

/-- A STUN header without its length field: the message type, and the sixteen bytes of cookie and
transaction id. -/
structure StunHeader where
  type : ℕ
  rest : List UInt8
  type_lt : type < 2 ^ 16
  length_rest : rest.length = 16

/-- The twenty header bytes, with a given length field. -/
def StunHeader.bytes (h : StunHeader) (messageLen : ℕ) : List UInt8 :=
  be16 h.type ++ (be16 messageLen ++ h.rest)

/-- The message with the attributes `as`, its length field covering exactly them. -/
def stunMessage (h : StunHeader) (as : List Attr) : List UInt8 :=
  h.bytes (encode as).length ++ encode as

/-- The length field can count the attributes. -/
def Fits (as : List Attr) : Prop := (encode as).length < 2 ^ 16

instance (as : List Attr) : Decidable (Fits as) :=
  inferInstanceAs (Decidable ((encode as).length < 2 ^ 16))

@[simp] theorem StunHeader.length_bytes (h : StunHeader) (n : ℕ) :
    (h.bytes n).length = stunHeaderSize := by
  simp only [StunHeader.bytes, List.length_append, length_be16, h.length_rest]
  rfl

theorem length_stunMessage (h : StunHeader) (as : List Attr) :
    (stunMessage h as).length = stunHeaderSize + (encode as).length := by
  rw [stunMessage, List.length_append, StunHeader.length_bytes]

theorem readBe16_stunMessage_zero (h : StunHeader) (as : List Attr) :
    readBe16 (stunMessage h as) 0 = h.type := by
  rw [stunMessage, StunHeader.bytes, List.append_assoc, readBe16_append_left (Nat.le_refl _),
    readBe16_be16 h.type_lt]

theorem readBe16_stunMessage_two {h : StunHeader} {as : List Attr} (hfit : Fits as) :
    readBe16 (stunMessage h as) 2 = (encode as).length := by
  have hskip : readBe16 (be16 h.type ++ (be16 (encode as).length ++ (h.rest ++ encode as))) 2 =
      readBe16 (be16 (encode as).length ++ (h.rest ++ encode as)) 0 :=
    readBe16_append_right (be16 h.type) _ 0
  rw [stunMessage, StunHeader.bytes, List.append_assoc, List.append_assoc, hskip,
    readBe16_append_left (Nat.le_refl _), readBe16_be16 hfit]

/-! ### The walk -/

/-- From the start of an encoded list, the walk finds what `locate` finds. The induction is on the
list, the bytes already passed moving into `pre`. -/
theorem stunWalk_encode (wanted : ℕ) (pre : List UInt8) (as : List Attr) (post : List UInt8) :
    stunWalk (pre ++ (encode as ++ post)) wanted (pre.length + (encode as).length) pre.length =
      (locate wanted pre.length as).map fun r ↦ (r.1 + 4, r.2.value.length) := by
  induction as generalizing pre with
  | nil => rw [stunWalk, if_neg (by rw [encode_nil, List.length_nil]; omega)]; rfl
  | cons a as ih =>
    have hlen := a.length_bytes
    have hpad := le_pad4 a.value.length
    have hassoc : encode (a :: as) ++ post = a.bytes ++ (encode as ++ post) := by
      rw [encode_cons, List.append_assoc]
    have hstop : (encode (a :: as)).length = a.bytes.length + (encode as).length := by
      rw [encode_cons, List.length_append]
    rw [hassoc, stunWalk, if_pos (by omega), readBe16_length, readBe16_type]
    simp only []
    rw [if_neg (by omega), locate]
    rcases eq_or_ne a.type wanted with htype | htype
    · rw [if_pos htype, if_pos htype]
      rfl
    · have hpre : pre.length + a.bytes.length = (pre ++ a.bytes).length := by
        rw [List.length_append]
      rw [if_neg htype, if_neg htype, ← hlen, hpre, ← List.append_assoc pre, ← ih (pre ++ a.bytes)]
      congr 1
      rw [List.length_append, hstop]
      omega

/-- **`stun_find_attribute` on a well-formed message** with bytes behind it: the first attribute of the type,
by the place and the length of its value. -/
theorem stunFindAttribute_trailing {h : StunHeader} {as : List Attr} (hfit : Fits as)
    (trailing : List UInt8) {len : ℕ} (hlen : (stunMessage h as).length ≤ len) (wanted : ℕ) :
    stunFindAttribute (stunMessage h as ++ trailing) len wanted =
      (locate wanted stunHeaderSize as).map fun r ↦ (r.1 + 4, r.2.value.length) := by
  have hmessage := length_stunMessage h as
  have hsize : stunHeaderSize = 20 := rfl
  have hwalk := stunWalk_encode wanted (h.bytes (encode as).length) as trailing
  rw [← List.append_assoc, StunHeader.length_bytes] at hwalk
  rw [stunFindAttribute, if_neg (by omega), readBe16_append_left (by omega), readBe16_stunMessage_two hfit]
  dsimp only
  rw [if_neg (by omega)]
  exact hwalk

theorem stunFindAttribute_message {h : StunHeader} {as : List Attr} (hfit : Fits as)
    (wanted : ℕ) :
    stunFindAttribute (stunMessage h as) (stunMessage h as).length wanted =
      (locate wanted stunHeaderSize as).map fun r ↦ (r.1 + 4, r.2.value.length) := by
  have htrailing := stunFindAttribute_trailing (h := h) hfit [] (Nat.le_refl _) wanted
  rwa [List.append_nil] at htrailing

/-- The value found by `locate` is at the place it names. -/
theorem take_of_locate {wanted : ℕ} (pre : List UInt8) {as : List Attr} {r : ℕ × Attr}
    (h : locate wanted pre.length as = some r) :
    ((pre ++ encode as).drop (r.1 + 4)).take r.2.value.length = r.2.value := by
  induction as generalizing pre with
  | nil => exact absurd h (by simp [locate])
  | cons a as ih =>
    rw [locate] at h
    split_ifs at h with htype
    · obtain rfl := Option.some.inj h
      exact take_value pre (encode as) a
    · rw [← List.length_append] at h
      have := ih (pre ++ a.bytes) h
      rwa [List.append_assoc] at this

/-! ### The three tests -/

/-- Whether a message is a binding request is settled by its header. -/
theorem isSome_stunIsBindingRequest_message {h : StunHeader} {as : List Attr} (hfit : Fits as) :
    (stunIsBindingRequest (stunMessage h as) (stunMessage h as).length).isSome =
      decide (h.type = 0x0001 ∧ readBe32 h.rest 0 = stunMagicCookie) := by
  have hlen := length_stunMessage h as
  have hcookie : readBe32 (stunMessage h as) 4 = readBe32 h.rest 0 := by
    have hrest := h.length_rest
    have hsplit : stunMessage h as =
        (be16 h.type ++ be16 (encode as).length) ++ (h.rest ++ encode as) := by
      simp only [stunMessage, StunHeader.bytes, List.append_assoc]
    have hget : ∀ j, j < 16 → (stunMessage h as).getD (4 + j) 0 = h.rest.getD j 0 := fun j hj ↦ by
      rw [hsplit, List.getD_eq_getElem?_getD, List.getD_eq_getElem?_getD,
        List.getElem?_append_right (by simp only [List.length_append, length_be16]; omega),
        List.getElem?_append_left (by simp only [List.length_append, length_be16]; omega)]
      simp only [List.length_append, length_be16, Nat.add_sub_cancel_left]
    simp only [readBe32, Nat.zero_add]
    rw [hget 1 (by omega), hget 2 (by omega), hget 3 (by omega), hget 0 (by omega)]
  rw [stunIsBindingRequest, if_neg (by omega), readBe16_stunMessage_zero, hcookie,
    readBe16_stunMessage_two hfit]
  rcases eq_or_ne h.type 0x0001 with htype | htype
  · rcases eq_or_ne (readBe32 h.rest 0) stunMagicCookie with hc | hc
    · rw [if_neg (not_not_intro htype), if_neg (not_not_intro hc), if_neg (by omega)]
      simp [htype, hc]
    · rw [if_neg (not_not_intro htype), if_pos hc]
      simp [hc]
  · rw [if_pos htype]
    simp [htype]

/-- The bytes a MESSAGE-INTEGRITY value authenticates: the header and the attributes before it, with
the length field counting those and the integrity attribute itself. -/
def signedPart (h : StunHeader) (as : List Attr) : List UInt8 :=
  h.bytes ((encode as).length + 24) ++ encode as

theorem stunScratch_message (h : StunHeader) (as bs : List Attr) :
    stunScratch (stunMessage h (as ++ bs)) (stunHeaderSize + (encode as).length) =
      signedPart h as := by
  have htake : (stunMessage h (as ++ bs)).take (stunHeaderSize + (encode as).length) =
      be16 h.type ++ (be16 (encode (as ++ bs)).length ++ (h.rest ++ encode as)) := by
    have hsplit : stunMessage h (as ++ bs) =
        (h.bytes (encode (as ++ bs)).length ++ encode as) ++ encode bs := by
      conv_lhs => rw [stunMessage, encode_append, ← List.append_assoc, ← encode_append]
    rw [hsplit, List.take_left' (by rw [List.length_append, StunHeader.length_bytes])]
    simp only [StunHeader.bytes, List.append_assoc]
  have hlen : stunHeaderSize + (encode as).length + 24 - stunHeaderSize =
      (encode as).length + 24 := by omega
  rw [stunScratch, htake, hlen, writeAt]
  simp only [signedPart, StunHeader.bytes, List.append_assoc]
  rfl

/-- **The MAC test on a well-formed message** looks at the attributes before the first
MESSAGE-INTEGRITY and at that attribute, never at what follows. -/
theorem stunVerifyMi_message {hmac : HmacSha1} {password : List UInt8} {h : StunHeader}
    {as : List Attr} {mi : Attr} {bs : List Attr} (hfit : Fits (as ++ mi :: bs))
    (has : ∀ a ∈ as, a.type ≠ 0x0008) (hmi : mi.type = 0x0008) :
    stunVerifyMi hmac (stunMessage h (as ++ mi :: bs)) (stunMessage h (as ++ mi :: bs)).length
        password =
      decide (password ≠ [] ∧ mi.value.length = 20 ∧
        (hmac password (signedPart h as)).1 = mi.value) := by
  have hlen := length_stunMessage h (as ++ mi :: bs)
  have hloc : locate 0x0008 stunHeaderSize (as ++ mi :: bs) =
      some (stunHeaderSize + (encode as).length, mi) := by
    rw [locate_append_of_forall_ne _ has, locate, if_pos hmi]
  have hval : ((stunMessage h (as ++ mi :: bs)).drop
      (stunHeaderSize + (encode as).length + 4)).take mi.value.length = mi.value := by
    have := take_of_locate (h.bytes (encode (as ++ mi :: bs)).length)
      (by rw [StunHeader.length_bytes]; exact hloc)
    exact this
  have henc : (encode (as ++ mi :: bs)).length =
      (encode as).length + (4 + pad4 mi.value.length + (encode bs).length) := by
    rw [encode_append, encode_cons, List.length_append, List.length_append, mi.length_bytes]
  have hpad := le_pad4 mi.value.length
  rcases eq_or_ne password [] with hp | hp
  · rw [stunVerifyMi, if_pos (Or.inl hp)]
    simp [hp]
  -- A value of another length fails the test whether or not there is room for twenty bytes.
  rcases eq_or_ne mi.value.length 20 with h20 | h20
  · rw [stunVerifyMi, if_neg (by rw [not_or]; exact ⟨hp, by omega⟩),
      stunFindAttribute_message hfit, hloc]
    simp only [Option.map_some, Nat.add_sub_cancel]
    rw [if_neg (not_not_intro h20), if_neg (by omega), stunScratch_message]
    rw [h20] at hval
    rw [hval]
    simp [hp, h20]
  · rw [stunVerifyMi]
    split_ifs
    · simp [h20]
    · rw [stunFindAttribute_message hfit, hloc]
      simp [h20]

/-- **The USERNAME test on a well-formed message** is the comparison on the first USERNAME of the whole
attribute list. -/
theorem stunUsernameMatches_message {ufrag : List UInt8} {h : StunHeader} {as : List Attr}
    (hfit : Fits as) :
    stunUsernameMatches (stunMessage h as) (stunMessage h as).length ufrag =
      match locate 0x0006 stunHeaderSize as with
      | none => false
      | some (_, a) => decide (ufrag ≠ []) && usernameMatches a.value ufrag := by
  rw [stunUsernameMatches, stunFindAttribute_message hfit]
  rcases hloc : locate 0x0006 stunHeaderSize as with - | ⟨off, a⟩
  · simp
  · have hval : ((stunMessage h as).drop (off + 4)).take a.value.length = a.value := by
      have := take_of_locate (h.bytes (encode as).length)
        (by rw [StunHeader.length_bytes]; exact hloc)
      exact this
    simp only [Option.map_some, hval]
    by_cases hu : ufrag = [] <;> simp [hu]

end Camstream
