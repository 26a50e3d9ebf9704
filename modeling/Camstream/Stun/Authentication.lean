import Camstream.Stun.Attributes

/-!
# What authentication covers

A binding request is accepted when it is a binding request, its MESSAGE-INTEGRITY verifies and its
USERNAME names the local fragment. The MAC covers the bytes in front of the first MESSAGE-INTEGRITY, so
one would expect those bytes, and that attribute, to decide. They do not: the USERNAME test runs its own
walk over the whole message, and a message without a USERNAME in front of MESSAGE-INTEGRITY can be given
one behind it.

`stunAccepts_suffix_iff` is the exact boundary, over every password, fragment, header, attributes `as`
and MESSAGE-INTEGRITY `mi`: what follows `mi` is irrelevant if and only if a USERNAME stands in front of
`mi`, or the message cut off after `mi` is not an authentic binding request, or no USERNAME that could
match fits behind `mi`.
-/

namespace Camstream

open Bytes Tlv

/-- The part of the acceptance test that the header and the attributes up to `mi` settle: a binding
request whose MESSAGE-INTEGRITY verifies. -/
def stunAuthentic (hmac : HmacSha1) (password buf : List UInt8) : Bool :=
  (stunIsBindingRequest buf buf.length).isSome && stunVerifyMi hmac buf buf.length password

/-- Room behind `as` for a USERNAME of one byte more than the fragment, the shortest that can match. -/
def RoomForUsername (ufrag : List UInt8) (as : List Attr) : Prop :=
  (encode as).length + (4 + pad4 (ufrag.length + 1)) < 2 ^ 16

variable {hmac : HmacSha1} {password ufrag : List UInt8} {h : StunHeader} {as : List Attr} {mi : Attr}

/-! ### Authenticity does not depend on the suffix -/

theorem stunAuthentic_suffix (has : ∀ a ∈ as, a.type ≠ 0x0008) (hmi : mi.type = 0x0008)
    {bs cs : List Attr} (hbs : Fits (as ++ mi :: bs)) (hcs : Fits (as ++ mi :: cs)) :
    stunAuthentic hmac password (stunMessage h (as ++ mi :: bs)) =
      stunAuthentic hmac password (stunMessage h (as ++ mi :: cs)) := by
  rw [stunAuthentic, stunAuthentic, isSome_stunIsBindingRequest_message hbs,
    isSome_stunIsBindingRequest_message hcs, stunVerifyMi_message hbs has hmi,
    stunVerifyMi_message hcs has hmi]

/-- Acceptance is authenticity and the name. -/
theorem stunAccepts_eq (buf : List UInt8) :
    stunAccepts hmac password ufrag buf buf.length =
      (stunAuthentic hmac password buf && stunUsernameMatches buf buf.length ufrag) :=
  rfl

/-- Dropping the attributes behind `mi` keeps a message that fits. -/
theorem Fits.of_cons {bs : List Attr} (hfit : Fits (as ++ mi :: bs)) : Fits (as ++ [mi]) := by
  simp only [Fits, encode_append, encode_cons, encode_nil, List.length_append] at hfit ⊢
  simp only [List.length_nil]
  omega

/-! ### When the USERNAME test sees the suffix -/

/-- A USERNAME in front is the first one, whatever follows. -/
theorem stunUsernameMatches_of_mem (huser : ∃ a ∈ as, a.type = 0x0006) {bs cs : List Attr}
    (hbs : Fits (as ++ bs)) (hcs : Fits (as ++ cs)) :
    stunUsernameMatches (stunMessage h (as ++ bs)) (stunMessage h (as ++ bs)).length ufrag =
      stunUsernameMatches (stunMessage h (as ++ cs)) (stunMessage h (as ++ cs)).length ufrag := by
  rcases hloc : locate 0x0006 stunHeaderSize as with - | r
  · obtain ⟨a, ha, htype⟩ := huser
    exact absurd htype (locate_eq_none.1 hloc a ha)
  · rw [stunUsernameMatches_message hbs, stunUsernameMatches_message hcs,
      locate_append_of_eq_some bs hloc, locate_append_of_eq_some cs hloc]

/-- Without one in front, the test looks at what follows `mi` only. -/
theorem stunUsernameMatches_of_forall_ne (huser : ∀ a ∈ as, a.type ≠ 0x0006)
    (hmi : mi.type = 0x0008) {bs : List Attr} (hbs : Fits (as ++ mi :: bs)) :
    stunUsernameMatches (stunMessage h (as ++ mi :: bs)) (stunMessage h (as ++ mi :: bs)).length
        ufrag =
      match locate 0x0006 (stunHeaderSize + (encode (as ++ [mi])).length) bs with
      | none => false
      | some (_, a) => decide (ufrag ≠ []) && usernameMatches a.value ufrag := by
  have hall : ∀ a ∈ as ++ [mi], a.type ≠ 0x0006 := by
    intro a ha
    rcases List.mem_append.1 ha with ha | ha
    · exact huser a ha
    · rw [List.mem_singleton.1 ha, hmi]
      decide
  have hsplit : as ++ mi :: bs = (as ++ [mi]) ++ bs := by
    rw [List.append_assoc, List.singleton_append]
  rw [stunUsernameMatches_message hbs, hsplit]
  exact locate_append_of_forall_ne bs hall ▸ rfl

/-- A USERNAME that matches is longer than the fragment. -/
theorem length_lt_of_usernameMatches {username : List UInt8}
    (hm : usernameMatches username ufrag = true) : ufrag.length < username.length := by
  rw [usernameMatches] at hm
  split_ifs at hm with hfront
  · exact hfront.1
  · rcases hc : username.idxOf? 0x3A with - | colon <;> rw [hc] at hm
    · exact absurd hm (by simp)
    · have hcolon : colon < username.length := by
        have := List.findIdx?_eq_some_iff_findIdx_eq.1 hc
        exact this.1
      have hlen := congrArg List.length (of_decide_eq_true hm)
      rw [List.length_drop] at hlen
      omega

/-- Our fragment and a colon match. -/
theorem usernameMatches_ufrag_colon : usernameMatches (ufrag ++ [0x3A]) ufrag = true := by
  rw [usernameMatches, if_pos]
  refine ⟨by simp, ?_, List.take_left⟩
  rw [List.getD_eq_getElem?_getD, List.getElem?_append_right (Nat.le_refl _), Nat.sub_self]
  rfl

/-- The USERNAME attribute that makes the difference. -/
def usernameAttr (ufrag : List UInt8) (hlen : ufrag.length + 1 < 2 ^ 16) : Attr where
  type := 0x0006
  value := ufrag ++ [0x3A]
  padding := List.replicate (pad4 (ufrag.length + 1) - (ufrag.length + 1)) 0
  type_lt := by decide
  length_lt := by rwa [List.length_append]
  length_padding := by
    have := le_pad4 (ufrag.length + 1)
    simp only [List.length_append, List.length_cons, List.length_nil, List.length_replicate,
      Nat.zero_add]
    omega

/-- Without room for a matching USERNAME behind `mi`, the test fails whatever follows. -/
theorem not_stunUsernameMatches_of_no_room (huser : ∀ a ∈ as, a.type ≠ 0x0006)
    (hmi : mi.type = 0x0008) (hroom : ¬ RoomForUsername ufrag (as ++ [mi])) {bs : List Attr}
    (hbs : Fits (as ++ mi :: bs)) :
    stunUsernameMatches (stunMessage h (as ++ mi :: bs)) (stunMessage h (as ++ mi :: bs)).length
      ufrag = false := by
  rw [stunUsernameMatches_of_forall_ne huser hmi hbs]
  rcases hloc : locate 0x0006 (stunHeaderSize + (encode (as ++ [mi])).length) bs with - | ⟨off, a⟩
  · rfl
  simp only [Bool.and_eq_false_iff]
  right
  by_contra hm
  have hlong := length_lt_of_usernameMatches (Bool.eq_true_of_not_eq_false hm)
  have hmem := length_bytes_le_of_locate hloc
  have hpad : pad4 (ufrag.length + 1) ≤ pad4 a.value.length := pad4_mono hlong
  have henc : (encode (as ++ mi :: bs)).length = (encode (as ++ [mi])).length + (encode bs).length := by
    simp only [encode_append, encode_cons, encode_nil, List.length_append, List.length_nil]
    omega
  rw [a.length_bytes] at hmem
  rw [RoomForUsername] at hroom
  rw [Fits] at hbs
  omega

/-! ### The boundary -/

/-- **What follows the first MESSAGE-INTEGRITY is irrelevant to acceptance exactly when** a USERNAME
stands in front of it, or the message cut off after it is not an authentic binding request, or the local
fragment is empty or too long for a matching USERNAME to fit behind it. -/
theorem stunAccepts_suffix_iff (hmac : HmacSha1) (password ufrag : List UInt8) (h : StunHeader)
    (as : List Attr) (mi : Attr) (has : ∀ a ∈ as, a.type ≠ 0x0008) (hmi : mi.type = 0x0008) :
    (∀ bs cs : List Attr, Fits (as ++ mi :: bs) → Fits (as ++ mi :: cs) →
      stunAccepts hmac password ufrag (stunMessage h (as ++ mi :: bs))
          (stunMessage h (as ++ mi :: bs)).length =
        stunAccepts hmac password ufrag (stunMessage h (as ++ mi :: cs))
          (stunMessage h (as ++ mi :: cs)).length) ↔
      (∃ a ∈ as, a.type = 0x0006) ∨
        stunAuthentic hmac password (stunMessage h (as ++ [mi])) = false ∨
        ufrag = [] ∨ ¬ RoomForUsername ufrag (as ++ [mi]) := by
  constructor
  · intro hirr
    by_contra hcon
    push Not at hcon
    obtain ⟨huser, hauth, hufrag, hroom⟩ := hcon
    have hauth := Bool.eq_true_of_not_eq_false hauth
    -- nothing behind `mi`, against a matching USERNAME behind it
    have hlen : ufrag.length + 1 < 2 ^ 16 := by
      have := le_pad4 (ufrag.length + 1)
      rw [RoomForUsername] at hroom
      omega
    have hnone : Fits (as ++ [mi]) := by
      rw [RoomForUsername] at hroom
      rw [Fits]
      omega
    have huname : (usernameAttr ufrag hlen).bytes.length = 4 + pad4 (ufrag.length + 1) := by
      rw [Attr.length_bytes]
      show 4 + pad4 (ufrag ++ [0x3A]).length = _
      rw [List.length_append]
      rfl
    have hsome : Fits (as ++ [mi, usernameAttr ufrag hlen]) := by
      have hsplit : as ++ [mi, usernameAttr ufrag hlen] = (as ++ [mi]) ++ [usernameAttr ufrag hlen] := by
        rw [List.append_assoc, List.singleton_append]
      rw [Fits, hsplit, encode_append, encode_singleton, List.length_append, huname]
      exact hroom
    have hboth := hirr [] [usernameAttr ufrag hlen] hnone hsome
    rw [stunAccepts_eq, stunAccepts_eq, hauth,
      ← stunAuthentic_suffix has hmi hnone hsome, hauth,
      stunUsernameMatches_of_forall_ne huser hmi hnone,
      stunUsernameMatches_of_forall_ne huser hmi hsome] at hboth
    have hmatch : usernameMatches (usernameAttr ufrag hlen).value ufrag = true :=
      usernameMatches_ufrag_colon
    have htype : (usernameAttr ufrag hlen).type = 0x0006 := rfl
    simp [locate, htype, hmatch, hufrag] at hboth
  · -- Only the USERNAME test can see the suffix; each condition takes its sight of it away.
    rintro hcond bs cs hbs hcs
    rw [stunAccepts_eq, stunAccepts_eq, stunAuthentic_suffix has hmi hbs hcs]
    rcases hcond with huser | hauth | hufrag | hroom
    · rw [stunUsernameMatches_of_mem huser hbs hcs]
    · rw [← stunAuthentic_suffix has hmi hbs.of_cons hcs, hauth]
      rfl
    · rw [hufrag]
      rfl
    · by_cases huser : ∃ a ∈ as, a.type = 0x0006
      · rw [stunUsernameMatches_of_mem huser hbs hcs]
      · push Not at huser
        rw [not_stunUsernameMatches_of_no_room huser hmi hroom hbs,
          not_stunUsernameMatches_of_no_room huser hmi hroom hcs]

/-! ### A request whose acceptance the suffix decides

A binding request with MESSAGE-INTEGRITY as its only attribute, `sampleMac` being its HMAC-SHA1 under
`samplePassword`. Behind it a USERNAME can be put that is not authenticated. -/

/-- A local password, as `generate_credentials` makes them. -/
def samplePassword : List UInt8 :=
  [0x6B, 0x51, 0x77, 0x45, 0x72, 0x54, 0x79, 0x55, 0x69, 0x4F, 0x70, 0x41, 0x73, 0x44, 0x66, 0x47,
    0x68, 0x4A, 0x6B, 0x4C, 0x7A, 0x58, 0x63, 0x56]

/-- A local fragment, `LCcIVVeF`. -/
def sampleUfrag : List UInt8 := [0x4C, 0x43, 0x63, 0x49, 0x56, 0x56, 0x65, 0x46]

/-- The MAC of the sample request. -/
def sampleMac : { mac : List UInt8 // mac.length = 20 } :=
  ⟨[0x1F, 0x28, 0x97, 0x56, 0x47, 0xF9, 0xA1, 0x33, 0x1D, 0x3A, 0x7B, 0x50, 0x38, 0x01, 0x55, 0x9A,
    0x6C, 0xB4, 0x19, 0xE4], rfl⟩

/-- Binding request, cookie, transaction id. -/
def sampleHeader : StunHeader :=
  ⟨0x0001, [0x21, 0x12, 0xA4, 0x42, 1, 2, 3, 4, 5, 6, 7, 8, 9, 10, 11, 12], by decide, rfl⟩

/-- A MESSAGE-INTEGRITY attribute. -/
def miAttr (mac : { mac : List UInt8 // mac.length = 20 }) : Attr where
  type := 0x0008
  value := mac.1
  padding := []
  type_lt := by decide
  length_lt := by rw [mac.2]; decide
  length_padding := by rw [mac.2]; rfl

theorem stunAccepts_suffix_iff_sample :
    (∀ bs cs : List Attr, Fits ([] ++ miAttr sampleMac :: bs) → Fits ([] ++ miAttr sampleMac :: cs) →
      stunAccepts (fun _ _ ↦ sampleMac) samplePassword sampleUfrag
          (stunMessage sampleHeader ([] ++ miAttr sampleMac :: bs))
          (stunMessage sampleHeader ([] ++ miAttr sampleMac :: bs)).length =
        stunAccepts (fun _ _ ↦ sampleMac) samplePassword sampleUfrag
          (stunMessage sampleHeader ([] ++ miAttr sampleMac :: cs))
          (stunMessage sampleHeader ([] ++ miAttr sampleMac :: cs)).length) ↔
      (∃ a ∈ ([] : List Attr), a.type = 0x0006) ∨
        stunAuthentic (fun _ _ ↦ sampleMac) samplePassword
          (stunMessage sampleHeader ([] ++ [miAttr sampleMac])) = false ∨
        sampleUfrag = [] ∨ ¬ RoomForUsername sampleUfrag ([] ++ [miAttr sampleMac]) :=
  stunAccepts_suffix_iff (fun _ _ ↦ sampleMac) samplePassword sampleUfrag sampleHeader []
    (miAttr sampleMac) (by simp) rfl

/-- The sample request alone is rejected; with an unauthenticated USERNAME behind its
MESSAGE-INTEGRITY it is accepted. -/
theorem not_stunAccepts_suffix_irrelevant :
    ¬ ∀ (hmac : HmacSha1) (password ufrag : List UInt8) (h : StunHeader) (as : List Attr) (mi : Attr),
      (∀ a ∈ as, a.type ≠ 0x0008) → mi.type = 0x0008 →
      ∀ bs cs : List Attr, Fits (as ++ mi :: bs) → Fits (as ++ mi :: cs) →
        stunAccepts hmac password ufrag (stunMessage h (as ++ mi :: bs))
            (stunMessage h (as ++ mi :: bs)).length =
          stunAccepts hmac password ufrag (stunMessage h (as ++ mi :: cs))
            (stunMessage h (as ++ mi :: cs)).length := by
  intro hall
  have h := hall (fun _ _ ↦ sampleMac) samplePassword sampleUfrag sampleHeader [] (miAttr sampleMac)
    (by simp) rfl [] [usernameAttr sampleUfrag (by decide)] (by decide +kernel) (by decide +kernel)
  revert h
  decide +kernel

/-! ### A request that is accepted -/

/-- A binding request as a peer that knows both credentials builds it: USERNAME, then the
MESSAGE-INTEGRITY over everything in front of it. -/
def bindingRequest (hmac : HmacSha1) (password ufrag : List UInt8)
    (hlen : ufrag.length + 1 < 2 ^ 16) : List UInt8 :=
  stunMessage sampleHeader [usernameAttr ufrag hlen,
    miAttr (hmac password (signedPart sampleHeader [usernameAttr ufrag hlen]))]

/-- **An authentic check is accepted**, whatever the MAC computes. -/
theorem stunAccepts_bindingRequest (hmac : HmacSha1) {password ufrag : List UInt8}
    (hlen : ufrag.length + 1 < 2 ^ 15) (hpassword : password ≠ []) (hufrag : ufrag ≠ []) :
    stunAccepts hmac password ufrag (bindingRequest hmac password ufrag (by omega))
      (bindingRequest hmac password ufrag (by omega)).length = true := by
  set user := usernameAttr ufrag (show ufrag.length + 1 < 2 ^ 16 by omega) with huser
  set mac := hmac password (signedPart sampleHeader [user]) with hmac'
  have hvalue : user.value = ufrag ++ [0x3A] := rfl
  have hfit : Fits ([user] ++ [miAttr mac]) := by
    have hpad : pad4 (ufrag.length + 1) ≤ 2 ^ 15 + 3 := by unfold pad4; omega
    have hmi : (miAttr mac).bytes.length = 24 := by
      rw [Attr.length_bytes]
      show 4 + pad4 mac.1.length = 24
      rw [mac.2]
      rfl
    have hu : user.bytes.length = 4 + pad4 (ufrag.length + 1) := by
      rw [Attr.length_bytes, hvalue, List.length_append]
      rfl
    rw [Fits, encode_append, encode_singleton, encode_singleton, List.length_append, hmi, hu]
    omega
  have hmi : stunVerifyMi hmac (stunMessage sampleHeader ([user] ++ [miAttr mac]))
      (stunMessage sampleHeader ([user] ++ [miAttr mac])).length password = true := by
    rw [stunVerifyMi_message hfit (by simp [huser, usernameAttr]) rfl, decide_eq_true_eq]
    exact ⟨hpassword, mac.2, rfl⟩
  have hloc : locate 0x0006 stunHeaderSize ([user] ++ [miAttr mac]) = some (stunHeaderSize, user) := rfl
  show stunAccepts hmac password ufrag (stunMessage sampleHeader ([user] ++ [miAttr mac]))
    (stunMessage sampleHeader ([user] ++ [miAttr mac])).length = true
  rw [stunAccepts, isSome_stunIsBindingRequest_message hfit, hmi, stunUsernameMatches_message hfit, hloc]
  have hheader : sampleHeader.type = 0x0001 ∧ readBe32 sampleHeader.rest 0 = stunMagicCookie := by
    decide
  simp only [hvalue, usernameMatches_ufrag_colon, decide_eq_true hheader, decide_eq_true hufrag]
  rfl

end Camstream
