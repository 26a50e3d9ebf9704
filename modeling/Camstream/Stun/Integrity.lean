import Camstream.Stun.Authentication

/-!
# Which messages verify

`stunVerifyMi_message` answers for messages that are well formed. Here the buffer is arbitrary: the walk
is described by the offsets it comes to (`StunWalkReaches`), and `stunVerifyMi_eq_true_iff` says that
the test passes exactly when the walk comes to a MESSAGE-INTEGRITY of twenty bytes that holds the MAC of
the bytes in front of it, taken with the length field the message would have if it ended there
(`SignedAt`).

A sender computes that MAC before it appends anything behind MESSAGE-INTEGRITY, so the length field on the
wire is usually another one: `stunVerifyMi_exactly_signed` includes that direction too, for every list of
attributes in front and behind.
-/

namespace Camstream

open Bytes Tlv

variable {buf : List UInt8} {wanted stop start : ℕ}

/-- The offsets the walk for a type comes to: where it starts, and from an attribute of another type that
ends within the message, the attribute behind it. -/
inductive StunWalkReaches (buf : List UInt8) (wanted stop start : ℕ) : ℕ → Prop
  | start : StunWalkReaches buf wanted stop start start
  | next {offset : ℕ} : StunWalkReaches buf wanted stop start offset →
      offset + 4 + readBe16 buf (offset + 2) ≤ stop → readBe16 buf offset ≠ wanted →
      StunWalkReaches buf wanted stop start (offset + (4 + pad4 (readBe16 buf (offset + 2))))

/-- The walk goes forward. -/
theorem StunWalkReaches.start_le {offset : ℕ} (h : StunWalkReaches buf wanted stop start offset) :
    start ≤ offset := by
  induction h with
  | start => exact Nat.le_refl _
  | next _ _ _ ih => exact Nat.le_trans ih (Nat.le_add_right _ _)

/-- The walk may be taken up at any offset it comes to. -/
theorem StunWalkReaches.stunWalk_eq {offset : ℕ}
    (h : StunWalkReaches buf wanted stop start offset) :
    stunWalk buf wanted stop start = stunWalk buf wanted stop offset := by
  induction h with
  | start => rfl
  | @next offset _ hend htype ih =>
    rw [ih, stunWalk, if_pos (by omega)]
    simp only []
    rw [if_neg (by omega), if_neg htype]

/-- What the walk returns is at an offset it comes to. -/
theorem StunWalkReaches.of_stunWalk {offset : ℕ} {r : ℕ × ℕ}
    (hreach : StunWalkReaches buf wanted stop start offset)
    (h : stunWalk buf wanted stop offset = some r) :
    ∃ found, StunWalkReaches buf wanted stop start found ∧
      found + 4 + readBe16 buf (found + 2) ≤ stop ∧ readBe16 buf found = wanted ∧
      r = (found + 4, readBe16 buf (found + 2)) := by
  fun_induction stunWalk buf wanted stop offset with
  | case1 => exact absurd h (by simp)
  | case2 offset _ _ hend htype =>
    exact ⟨offset, hreach, by omega, htype, (Option.some.inj h).symm⟩
  | case3 offset _ _ hend htype ih => exact ih (hreach.next (by omega) htype) h
  | case4 => exact absurd h (by simp)

/-- **What `stun_find_attribute` finds in any buffer**: the attribute of the type at the offset the walk
comes to. -/
theorem stunFindAttribute_eq_some_iff {len : ℕ} {r : ℕ × ℕ} :
    stunFindAttribute buf len wanted = some r ↔
      stunHeaderSize + readBe16 buf 2 ≤ len ∧ ∃ offset,
        StunWalkReaches buf wanted (stunHeaderSize + readBe16 buf 2) stunHeaderSize offset ∧
        offset + 4 + readBe16 buf (offset + 2) ≤ stunHeaderSize + readBe16 buf 2 ∧
        readBe16 buf offset = wanted ∧ r = (offset + 4, readBe16 buf (offset + 2)) := by
  rw [stunFindAttribute]
  simp only []
  by_cases hlen : stunHeaderSize + readBe16 buf 2 ≤ len
  · rw [if_neg (by omega), if_neg (by omega)]
    constructor
    · exact fun h ↦ ⟨hlen, StunWalkReaches.of_stunWalk .start h⟩
    · rintro ⟨-, offset, hreach, hend, htype, rfl⟩
      rw [hreach.stunWalk_eq, stunWalk, if_pos (by omega)]
      simp only []
      rw [if_neg (by omega), if_pos htype]
  · by_cases hheader : len < stunHeaderSize
    · simp [hheader, hlen]
    · rw [if_neg hheader, if_pos (by omega)]
      simp [hlen]

/-- The bytes in front of `offset` with the length field of a message that ends with an attribute of twenty
bytes standing there. -/
def patchedPrefix (buf : List UInt8) (offset : ℕ) : List UInt8 :=
  buf.take 2 ++ be16 (offset + 24 - stunHeaderSize) ++ (buf.take offset).drop 4

/-- The copy of the source is the prefix with its length field patched. -/
theorem stunScratch_eq_patchedPrefix {offset : ℕ} (h : 2 ≤ offset) :
    stunScratch buf offset = patchedPrefix buf offset := by
  rw [stunScratch, writeAt, List.take_take, Nat.min_eq_left h]
  rfl

/-- A MESSAGE-INTEGRITY of twenty bytes stands at `offset` and holds the MAC of what is in front of it. -/
def SignedAt (hmac : HmacSha1) (password buf : List UInt8) (offset : ℕ) : Prop :=
  readBe16 buf offset = 0x0008 ∧ readBe16 buf (offset + 2) = 20 ∧
    (buf.drop (offset + 4)).take 20 = (hmac password (patchedPrefix buf offset)).1

/-- **The messages that verify**, among all buffers. -/
theorem stunVerifyMi_eq_true_iff {hmac : HmacSha1} {password : List UInt8} {len : ℕ} :
    stunVerifyMi hmac buf len password = true ↔
      password ≠ [] ∧ stunHeaderSize + readBe16 buf 2 ≤ len ∧ ∃ offset,
        StunWalkReaches buf 0x0008 (stunHeaderSize + readBe16 buf 2) stunHeaderSize offset ∧
        offset + 24 ≤ stunHeaderSize + readBe16 buf 2 ∧ SignedAt hmac password buf offset := by
  constructor
  · intro h
    rw [stunVerifyMi] at h
    split_ifs at h with hguard
    rw [not_or] at hguard
    split at h
    · exact absurd h Bool.false_ne_true
    · rename_i mi miLen hfind
      obtain ⟨hlen, offset, hreach, hend, htype, hr⟩ := stunFindAttribute_eq_some_iff.1 hfind
      obtain ⟨rfl, rfl⟩ := Prod.mk.inj hr
      simp only [Nat.add_sub_cancel] at h
      split_ifs at h with h20
      rw [decide_eq_true_eq,
        stunScratch_eq_patchedPrefix (Nat.le_trans (by decide) hreach.start_le)] at h
      rw [not_not] at h20
      exact ⟨hguard.1, hlen, offset, hreach, by omega, htype, h20, h.symm⟩
  · rintro ⟨hpassword, hlen, offset, hreach, hend, htype, h20, hmac'⟩
    have hstart := hreach.start_le
    have hfind : stunFindAttribute buf len 0x0008 = some (offset + 4, 20) :=
      stunFindAttribute_eq_some_iff.2 ⟨hlen, offset, hreach, by omega, htype, by rw [h20]⟩
    rw [stunVerifyMi, if_neg (by rw [not_or]; exact ⟨hpassword, by omega⟩), hfind]
    simp only [ne_eq, not_true_eq_false, if_false, Nat.add_sub_cancel]
    rw [if_neg (by omega), stunScratch_eq_patchedPrefix (Nat.le_trans (by decide) hstart),
      decide_eq_true_eq, hmac']

/-- A signed message is accepted. -/
theorem stunVerifyMi_message_signed {hmac : HmacSha1} {password : List UInt8} (h : StunHeader)
    (as bs : List Attr) (hpassword : password ≠ []) (has : ∀ a ∈ as, a.type ≠ 0x0008)
    (hfit : Fits (as ++ miAttr (hmac password (signedPart h as)) :: bs)) :
    stunVerifyMi hmac (stunMessage h (as ++ miAttr (hmac password (signedPart h as)) :: bs))
      (stunMessage h (as ++ miAttr (hmac password (signedPart h as)) :: bs)).length password = true := by
  rw [stunVerifyMi_message hfit has rfl, decide_eq_true_eq]
  exact ⟨hpassword, (hmac password (signedPart h as)).2, rfl⟩

/-- **MESSAGE-INTEGRITY verification accepts exactly the signed messages.** A message whose attribute list
holds, behind attributes of other types, the MAC of header and those attributes, is accepted whatever
follows; and any buffer that is accepted holds such a MAC where the walk comes to it. -/
theorem stunVerifyMi_exactly_signed (hmac : HmacSha1) (password : List UInt8) :
    (∀ (h : StunHeader) (as bs : List Attr), password ≠ [] → (∀ a ∈ as, a.type ≠ 0x0008) →
      Fits (as ++ miAttr (hmac password (signedPart h as)) :: bs) →
      stunVerifyMi hmac (stunMessage h (as ++ miAttr (hmac password (signedPart h as)) :: bs))
        (stunMessage h (as ++ miAttr (hmac password (signedPart h as)) :: bs)).length password =
          true) ∧
    ∀ (buf : List UInt8) (len : ℕ), stunVerifyMi hmac buf len password = true ↔
      password ≠ [] ∧ stunHeaderSize + readBe16 buf 2 ≤ len ∧ ∃ offset,
        StunWalkReaches buf 0x0008 (stunHeaderSize + readBe16 buf 2) stunHeaderSize offset ∧
        offset + 24 ≤ stunHeaderSize + readBe16 buf 2 ∧ SignedAt hmac password buf offset :=
  ⟨stunVerifyMi_message_signed, fun _ _ ↦ stunVerifyMi_eq_true_iff⟩

/-- A request with a USERNAME in front of MESSAGE-INTEGRITY and another one behind. -/
theorem stunVerifyMi_exactly_signed_sample :
    stunVerifyMi (fun _ _ ↦ sampleMac)
      (stunMessage sampleHeader ([usernameAttr sampleUfrag (by decide)] ++
        miAttr sampleMac :: [usernameAttr sampleUfrag (by decide)]))
      (stunMessage sampleHeader ([usernameAttr sampleUfrag (by decide)] ++
        miAttr sampleMac :: [usernameAttr sampleUfrag (by decide)])).length samplePassword = true :=
  (stunVerifyMi_exactly_signed (fun _ _ ↦ sampleMac) samplePassword).1 sampleHeader
    [usernameAttr sampleUfrag (by decide)] [usernameAttr sampleUfrag (by decide)] (by decide)
    (by decide) (by decide +kernel)

end Camstream
