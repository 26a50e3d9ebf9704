import Camstream.Stun.Attributes
import Camstream.Stun.Integrity

/-!
# What the attribute walk reads

`stun_find_attribute` and `stun_username_matches` once more, with reads that have to stay inside the memory:
`none` is a read past its end. Over the first `len` bytes of a buffer alone they have the results they have
over the buffer, whatever stands in it.

On a message that is well formed the walk is a search through its attributes, also when bytes follow it, and
the comparison with the username is a statement about the text of the first USERNAME (`NamesFragment`).
`stunAttributes_exact` puts the two sides together.
-/

namespace Camstream

open Bytes Tlv

/-! ### Checked reads -/

/-- The loop of `stun_find_attribute`, in the memory `mem`. -/
def stunWalkChecked (mem : List UInt8) (wanted stop offset : ℕ) : Option (Option (ℕ × ℕ)) :=
  if offset + 4 ≤ stop then
    match readBe16? mem offset, readBe16? mem (offset + 2) with
    | some type, some attrLen =>
      if stop < offset + 4 + attrLen then some none
      else if type = wanted then some (some (offset + 4, attrLen))
      else stunWalkChecked mem wanted stop (offset + (4 + pad4 attrLen))
    | _, _ => none
  else some none
termination_by stop - offset

/-- `stun_find_attribute`, where every read is checked. -/
def stunFindAttributeChecked (mem : List UInt8) (len wanted : ℕ) : Option (Option (ℕ × ℕ)) :=
  if len < stunHeaderSize then some none
  else
    match readBe16? mem 2 with
    | none => none
    | some messageLen =>
      if len < messageLen + stunHeaderSize then some none
      else stunWalkChecked mem wanted (stunHeaderSize + messageLen) stunHeaderSize

/-- The comparison behind the first colon. -/
def secondMatchesChecked (mem : List UInt8) (offset usernameLen : ℕ) (localUfrag : List UInt8) :
    Option Bool :=
  match slice? mem offset usernameLen with
  | none => none
  | some username =>
    match username.idxOf? 0x3A with
    | none => some false
    | some colon =>
      if usernameLen - (colon + 1) = localUfrag.length then
        (slice? mem (offset + (colon + 1)) localUfrag.length).map fun second ↦ decide (second = localUfrag)
      else some false

/-- The comparison of `stun_username_matches` with the value at `offset`. -/
def usernameMatchesChecked (mem : List UInt8) (offset usernameLen : ℕ) (localUfrag : List UInt8) :
    Option Bool :=
  if localUfrag.length < usernameLen then
    match mem[offset + localUfrag.length]? with
    | none => none
    | some next =>
      if next = 0x3A then
        match slice? mem offset localUfrag.length with
        | none => none
        | some first =>
          if first = localUfrag then some true
          else secondMatchesChecked mem offset usernameLen localUfrag
      else secondMatchesChecked mem offset usernameLen localUfrag
  else secondMatchesChecked mem offset usernameLen localUfrag

/-- `stun_username_matches`, where every read is checked. -/
def stunUsernameMatchesChecked (mem : List UInt8) (len : ℕ) (localUfrag : List UInt8) : Option Bool :=
  if localUfrag = [] then some false
  else
    match stunFindAttributeChecked mem len 0x0006 with
    | none => none
    | some none => some false
    | some (some value) => usernameMatchesChecked mem value.1 value.2 localUfrag

variable {buf : List UInt8} {len stop : ℕ}

theorem readBe16?_take (h : len ≤ buf.length) {i : ℕ} (hi : i + 2 ≤ len) :
    readBe16? (buf.take len) i = some (readBe16 buf i) := by
  have hread := (matches_take h).readBe16? hi
  rwa [Nat.zero_add] at hread

/-- The walk reads nothing behind its stop. -/
theorem stunWalkChecked_take (h : len ≤ buf.length) (hstop : stop ≤ len) (wanted offset : ℕ) :
    stunWalkChecked (buf.take len) wanted stop offset = some (stunWalk buf wanted stop offset) := by
  fun_induction stunWalk buf wanted stop offset with
  | case1 offset hroom attrLen hlong =>
    rw [stunWalkChecked, if_pos hroom, readBe16?_take h (by omega), readBe16?_take h (by omega)]
    exact if_pos hlong
  | case2 offset hroom attrLen hlong htype =>
    rw [stunWalkChecked, if_pos hroom, readBe16?_take h (by omega), readBe16?_take h (by omega)]
    dsimp only
    rw [if_neg hlong]
    exact if_pos htype
  | case3 offset hroom attrLen hlong htype ih =>
    rw [stunWalkChecked, if_pos hroom, readBe16?_take h (by omega), readBe16?_take h (by omega)]
    dsimp only
    rw [if_neg hlong, if_neg htype]
    exact ih
  | case4 offset hroom =>
    rw [stunWalkChecked, if_neg hroom]

/-- **The walk reads the received bytes only.** -/
theorem stunFindAttributeChecked_take (h : len ≤ buf.length) (wanted : ℕ) :
    stunFindAttributeChecked (buf.take len) len wanted = some (stunFindAttribute buf len wanted) := by
  rw [stunFindAttributeChecked, stunFindAttribute]
  by_cases hheader : len < stunHeaderSize
  · rw [if_pos hheader, if_pos hheader]
  · have hsize : stunHeaderSize = 20 := rfl
    rw [if_neg hheader, if_neg hheader, readBe16?_take h (by omega)]
    dsimp only
    by_cases hlong : len < readBe16 buf 2 + stunHeaderSize
    · rw [if_pos hlong, if_pos hlong]
    · rw [if_neg hlong, if_neg hlong, stunWalkChecked_take h (by omega)]

/-- **What is found lies inside the declared message.** -/
theorem stunFindAttribute_bounds {wanted : ℕ} {r : ℕ × ℕ} (h : stunFindAttribute buf len wanted = some r) :
    stunHeaderSize + 4 ≤ r.1 ∧ r.1 + r.2 ≤ stunHeaderSize + readBe16 buf 2 ∧
      stunHeaderSize + readBe16 buf 2 ≤ len := by
  obtain ⟨hlen, offset, hreach, hend, -, rfl⟩ := stunFindAttribute_eq_some_iff.1 h
  exact ⟨Nat.add_le_add_right hreach.start_le 4, hend, hlen⟩

/-! ### The comparison -/

/-- A username with this fragment: our fragment, a colon and anything, or anything up to the first colon and
our fragment behind it. -/
def NamesFragment (ufrag username : List UInt8) : Prop :=
  (∃ x, username = ufrag ++ 0x3A :: x) ∨ ∃ y, 0x3A ∉ y ∧ username = y ++ 0x3A :: ufrag

/-- Our fragment in front, as the source tests it. -/
theorem first_iff {username ufrag : List UInt8} :
    (ufrag.length < username.length ∧ username.getD ufrag.length 0 = 0x3A ∧
      username.take ufrag.length = ufrag) ↔ ∃ x, username = ufrag ++ 0x3A :: x := by
  constructor
  · rintro ⟨hlt, hcolon, htake⟩
    rw [List.getD_eq_getElem _ _ hlt] at hcolon
    refine ⟨username.drop (ufrag.length + 1), ?_⟩
    conv_lhs => rw [← List.take_append_drop ufrag.length username, htake, List.drop_eq_getElem_cons hlt,
      hcolon]
  · rintro ⟨x, rfl⟩
    refine ⟨?_, ?_, List.take_left⟩
    · rw [List.length_append, List.length_cons]
      omega
    · rw [List.getD_append_right _ _ _ _ (Nat.le_refl _), Nat.sub_self, List.getD_cons_zero]

/-- The comparison behind the first colon. -/
def secondMatches (username localUfrag : List UInt8) : Bool :=
  match username.idxOf? 0x3A with
  | none => false
  | some colon => decide (username.drop (colon + 1) = localUfrag)

/-- The two ways to match, one after the other. -/
theorem usernameMatches_eq (username ufrag : List UInt8) :
    usernameMatches username ufrag =
      if ufrag.length < username.length ∧ username.getD ufrag.length 0 = 0x3A ∧
        username.take ufrag.length = ufrag then true
      else secondMatches username ufrag := rfl

/-- The part behind the first colon is the local name. -/
theorem secondMatches_eq_true {username ufrag : List UInt8} :
    secondMatches username ufrag = true ↔
      ∃ colon, username.idxOf? 0x3A = some colon ∧ username.drop (colon + 1) = ufrag := by
  rw [secondMatches]
  cases username.idxOf? 0x3A with
  | none => simp
  | some colon => simp

/-- Our fragment behind the first colon. -/
theorem secondMatches_iff {username ufrag : List UInt8} :
    secondMatches username ufrag = true ↔ ∃ y, 0x3A ∉ y ∧ username = y ++ 0x3A :: ufrag := by
  rw [secondMatches_eq_true]
  constructor
  · rintro ⟨colon, hfound, rfl⟩
    obtain ⟨hlt, hcolon, hbefore⟩ := List.idxOf?_eq_some_iff.1 hfound
    refine ⟨username.take colon, fun hmem ↦ ?_, ?_⟩
    · obtain ⟨j, hj, hget⟩ := List.mem_take_iff_getElem.1 hmem
      exact hbefore j (by omega) hget
    · conv_lhs => rw [← List.take_append_drop colon username, List.drop_eq_getElem_cons hlt, hcolon]
  · rintro ⟨y, hy, rfl⟩
    refine ⟨y.length, List.idxOf?_eq_some_iff.2 ⟨?_, ?_, fun j hj hget ↦ hy ?_⟩, ?_⟩
    · rw [List.length_append, List.length_cons]
      omega
    · rw [List.getElem_append_right (Nat.le_refl _)]
      simp only [Nat.sub_self, List.getElem_cons_zero]
    · rw [← hget, List.getElem_append_left hj]
      exact List.getElem_mem hj
    · rw [← List.drop_drop, List.drop_left, List.drop_one, List.tail_cons]

/-- **The comparison is exact.** -/
theorem usernameMatches_iff {username ufrag : List UInt8} :
    usernameMatches username ufrag = true ↔ NamesFragment ufrag username := by
  rw [NamesFragment, ← first_iff, ← secondMatches_iff, usernameMatches_eq]
  split_ifs with hfirst
  · exact iff_of_true rfl (Or.inl hfirst)
  · rw [or_iff_right hfirst]

theorem secondMatchesChecked_take (h : len ≤ buf.length) {offset n : ℕ} (hn : offset + n ≤ len)
    (ufrag : List UInt8) :
    secondMatchesChecked (buf.take len) offset n ufrag =
      some (secondMatches ((buf.drop offset).take n) ufrag) := by
  have hlength : ((buf.drop offset).take n).length = n := by
    rw [List.length_take, List.length_drop]
    omega
  rw [secondMatchesChecked, secondMatches, slice?_take hn h]
  dsimp only
  cases hfound : ((buf.drop offset).take n).idxOf? 0x3A with
  | none => rfl
  | some colon =>
    obtain ⟨hlt, -, -⟩ := List.idxOf?_eq_some_iff.1 hfound
    dsimp only
    split_ifs with hsecond
    · rw [slice?_take (by omega) h, Option.map_some, ← hsecond, List.drop_take, List.drop_drop]
    · rw [decide_eq_false]
      intro heq
      rw [← heq, List.length_drop, hlength] at hsecond
      exact hsecond rfl

/-- The comparison reads the value only. -/
theorem usernameMatchesChecked_take (h : len ≤ buf.length) {offset n : ℕ} (hn : offset + n ≤ len)
    (ufrag : List UInt8) :
    usernameMatchesChecked (buf.take len) offset n ufrag =
      some (usernameMatches ((buf.drop offset).take n) ufrag) := by
  have hlength : ((buf.drop offset).take n).length = n := by
    rw [List.length_take, List.length_drop]
    omega
  rw [usernameMatchesChecked, usernameMatches_eq, secondMatchesChecked_take h hn, hlength]
  by_cases hlt : ufrag.length < n
  · have hnext : (buf.take len)[offset + ufrag.length]? =
        some (((buf.drop offset).take n).getD ufrag.length 0) := by
      rw [List.getElem?_take_of_lt (by omega), List.getD_eq_getElem?_getD, List.getElem?_take_of_lt hlt,
        List.getElem?_drop, List.getElem?_eq_getElem (by omega), Option.getD_some]
    have hfirst : (buf.drop offset).take ufrag.length = ((buf.drop offset).take n).take ufrag.length := by
      rw [List.take_take, Nat.min_eq_left (by omega)]
    rw [if_pos hlt, hnext, slice?_take (by omega) h, hfirst]
    dsimp only
    rcases eq_or_ne (((buf.drop offset).take n).getD ufrag.length 0) 0x3A with hcolon | hcolon
    · rw [if_pos hcolon]
      rcases eq_or_ne (((buf.drop offset).take n).take ufrag.length) ufrag with hufrag | hufrag
      · rw [if_pos hufrag, if_pos ⟨hlt, hcolon, hufrag⟩]
      · rw [if_neg hufrag, if_neg fun hfirst ↦ hufrag hfirst.2.2]
    · rw [if_neg hcolon, if_neg fun hfirst ↦ hcolon hfirst.2.1]
  · rw [if_neg hlt, if_neg fun hfirst ↦ hlt hfirst.1]

/-- **The comparison of a message reads the received bytes only.** -/
theorem stunUsernameMatchesChecked_take (h : len ≤ buf.length) (ufrag : List UInt8) :
    stunUsernameMatchesChecked (buf.take len) len ufrag = some (stunUsernameMatches buf len ufrag) := by
  rw [stunUsernameMatchesChecked, stunUsernameMatches, stunFindAttributeChecked_take h]
  rcases eq_or_ne ufrag [] with hufrag | hufrag
  · rw [if_pos hufrag, if_pos hufrag]
  · rw [if_neg hufrag, if_neg hufrag]
    cases hfound : stunFindAttribute buf len 0x0006 with
    | none => rfl
    | some value =>
      obtain ⟨-, hend, hlen⟩ := stunFindAttribute_bounds hfound
      exact usernameMatchesChecked_take h (by omega) ufrag

/-! ### Well-formed messages -/

/-- The search by offsets, as a search for the attribute. -/
theorem map_locate (wanted off : ℕ) (as : List Attr) :
    (locate wanted off as).map Prod.snd = as.find? fun a ↦ a.type = wanted := by
  induction as generalizing off with
  | nil => rfl
  | cons a as ih =>
    rw [locate, List.find?_cons]
    split_ifs with htype
    · rw [decide_eq_true htype]
      rfl
    · rw [decide_eq_false htype, ih]

variable {h : StunHeader} {as : List Attr}

/-- The value found, as bytes of the buffer. -/
theorem value_stunFindAttribute (hfit : Fits as) (trailing : List UInt8)
    (hlen : (stunMessage h as).length ≤ len) (wanted : ℕ) :
    ((stunFindAttribute (stunMessage h as ++ trailing) len wanted).map fun r ↦
        ((stunMessage h as ++ trailing).drop r.1).take r.2) =
      (as.find? fun a ↦ a.type = wanted).map Attr.value := by
  have hfind := stunFindAttribute_trailing hfit trailing hlen wanted
  rw [hfind, ← map_locate wanted stunHeaderSize]
  cases hloc : locate wanted stunHeaderSize as with
  | none => rfl
  | some r =>
    have hvalue : ((stunMessage h as).drop (r.1 + 4)).take r.2.value.length = r.2.value :=
      take_of_locate (h.bytes (encode as).length) (by rw [StunHeader.length_bytes]; exact hloc)
    -- The value ends before the trailing bytes begin.
    rw [hloc] at hfind
    obtain ⟨-, hend, -⟩ := stunFindAttribute_bounds hfind
    have hmessage := length_stunMessage h as
    have hsize : stunHeaderSize = 20 := rfl
    rw [readBe16_append_left (by omega), readBe16_stunMessage_two hfit] at hend
    dsimp only [Option.map_some] at hend ⊢
    rw [List.drop_append_of_le_length (by omega),
      List.take_append_of_le_length (by rw [List.length_drop]; omega), hvalue]

/-- **The walk and the comparison**, endpoint. In any buffer they read the received bytes only, and what is
found lies inside the declared message; on a well-formed message, whatever follows it, the walk finds exactly
the first attribute of a type, and the comparison holds exactly of a first USERNAME that names the
fragment. -/
theorem stunAttributes_exact :
    (∀ (buf : List UInt8) (len : ℕ), len ≤ buf.length →
      (∀ wanted,
        stunFindAttributeChecked (buf.take len) len wanted = some (stunFindAttribute buf len wanted) ∧
        ∀ r, stunFindAttribute buf len wanted = some r →
          stunHeaderSize + 4 ≤ r.1 ∧ r.1 + r.2 ≤ stunHeaderSize + readBe16 buf 2 ∧
            stunHeaderSize + readBe16 buf 2 ≤ len) ∧
      ∀ ufrag,
        stunUsernameMatchesChecked (buf.take len) len ufrag = some (stunUsernameMatches buf len ufrag)) ∧
    ∀ (h : StunHeader) (as : List Attr) (trailing : List UInt8) (len : ℕ), Fits as →
      (stunMessage h as).length ≤ len → len ≤ (stunMessage h as ++ trailing).length →
      (∀ wanted,
        ((stunFindAttribute (stunMessage h as ++ trailing) len wanted).map fun r ↦
            ((stunMessage h as ++ trailing).drop r.1).take r.2) =
          (as.find? fun a ↦ a.type = wanted).map Attr.value) ∧
      ∀ ufrag, ufrag ≠ [] →
        (stunUsernameMatches (stunMessage h as ++ trailing) len ufrag = true ↔
          ∃ a, (as.find? fun a ↦ a.type = 0x0006) = some a ∧ NamesFragment ufrag a.value) := by
  refine ⟨fun buf len hlen ↦ ⟨fun wanted ↦ ⟨stunFindAttributeChecked_take hlen wanted,
    fun r ↦ stunFindAttribute_bounds⟩, stunUsernameMatchesChecked_take hlen⟩,
    fun h as trailing len hfit hlen _ ↦ ⟨value_stunFindAttribute hfit trailing hlen, fun ufrag hufrag ↦ ?_⟩⟩
  -- The walk gives the value of the first attribute of its type.
  have hvalue := value_stunFindAttribute (h := h) hfit trailing hlen 0x0006
  rw [stunUsernameMatches, if_neg hufrag]
  cases hfound : stunFindAttribute (stunMessage h as ++ trailing) len 0x0006 with
  | none =>
    rw [hfound, Option.map_none] at hvalue
    rw [Option.map_eq_none_iff.1 hvalue.symm]
    simp
  | some r =>
    rw [hfound, Option.map_some] at hvalue
    obtain ⟨a, ha, hslice⟩ := Option.map_eq_some_iff.1 hvalue.symm
    dsimp only
    rw [ha, ← hslice, usernameMatches_iff]
    simp

/-- A request with a USERNAME behind its MESSAGE-INTEGRITY: the value is found, and it matches with bytes
behind the message too. -/
theorem stunAttributes_exact_sample :
    stunFindAttributeChecked (stunMessage sampleHeader [miAttr sampleMac, usernameAttr [0x62] (by decide)])
        52 6 =
      some (stunFindAttribute (stunMessage sampleHeader [miAttr sampleMac, usernameAttr [0x62] (by decide)])
        52 6) ∧
    stunUsernameMatches
      (stunMessage sampleHeader [miAttr sampleMac, usernameAttr [0x62] (by decide)] ++ [0, 6]) 54 [0x62] =
        true := by
  refine ⟨((stunAttributes_exact.1 (stunMessage sampleHeader
    [miAttr sampleMac, usernameAttr [0x62] (by decide)]) 52 (by decide)).1 6).1, ?_⟩
  refine ((stunAttributes_exact.2 sampleHeader [miAttr sampleMac, usernameAttr [0x62] (by decide)] [0, 6] 54
    (by decide) (by decide) (by decide)).2 [0x62] (by decide)).2 ?_
  exact ⟨usernameAttr [0x62] (by decide), rfl, Or.inl ⟨[], rfl⟩⟩

end Camstream
