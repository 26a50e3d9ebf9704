import Camstream.Lib.Decimal
import Camstream.Sdp.Walk

/-!
# What the parser finds in an offer

What the visitor does with a line of each kind, and from there each field of a parsed offer in terms of
the text: whether there is audio (`hasAudio_eq`), which payload type is chosen (`find_h264Numbers`), and
that whatever the text is, a string field holds no byte that could end a line or a string, and fits its
buffer (`fits_of_sdpParseOffer`).
-/

namespace Camstream

open CString Lines

/-- What the walk over an offer leaves in the context. -/
def parsedContext (sdp : List UInt8) : ParseContext :=
  sdpForEachLine parseVisit sdp .none ⟨emptyOffer, false, false, false⟩

/-- The default of `a=setup:` -/
def SdpOffer.withSetup (offer : SdpOffer) : SdpOffer :=
  if offer.setup = [] then { offer with setup := ascii "actpass" } else offer

@[simp] theorem SdpOffer.withSetup_hasAudio (offer : SdpOffer) :
    offer.withSetup.hasAudio = offer.hasAudio := by
  rw [withSetup]
  split_ifs <;> rfl

@[simp] theorem SdpOffer.withSetup_h264PayloadType (offer : SdpOffer) :
    offer.withSetup.h264PayloadType = offer.h264PayloadType := by
  rw [withSetup]
  split_ifs <;> rfl

/-- The mandatory elements of an offer. -/
def ParseContext.Complete (ctx : ParseContext) : Prop :=
  ctx.haveUfrag = true ∧ ctx.havePwd = true ∧ ctx.haveFingerprint = true ∧
    0 ≤ ctx.offer.h264PayloadType

theorem sdpParseOffer_eq_some {sdp : List UInt8} {offer : SdpOffer} :
    sdpParseOffer sdp = some offer ↔
      (parsedContext sdp).Complete ∧ (parsedContext sdp).offer.withSetup = offer := by
  rw [sdpParseOffer, ← parsedContext, ParseContext.Complete]
  set ctx := parsedContext sdp
  have hlast : (if ctx.offer.setup = [] then some { ctx.offer with setup := ascii "actpass" }
      else some ctx.offer) = some ctx.offer.withSetup := (apply_ite some _ _ _).symm
  dsimp only
  rw [hlast]
  split_ifs with hhave hpt
  · refine iff_of_false not_false ?_
    rintro ⟨⟨hufrag, hpwd, hfp, -⟩, -⟩
    simp [hufrag, hpwd, hfp] at hhave
  · refine iff_of_false not_false ?_
    rintro ⟨⟨-, -, -, hpos⟩, -⟩
    exact absurd hpos (Int.not_le.2 hpt)
  · simp only [Bool.or_eq_true, Bool.not_eq_true', not_or, Bool.not_eq_false] at hhave
    rw [Option.some.injEq]
    exact (and_iff_right ⟨hhave.1.1, hhave.1.2, hhave.2, Int.not_lt.1 hpt⟩).symm

/-! ### One line -/

theorem startsWith_append_self (pre rest : List UInt8) : startsWith (pre ++ rest) pre = true :=
  List.isPrefixOf_iff_prefix.2 (List.prefix_append pre rest)

theorem startsWith_append_other {pre pre' : List UInt8} (hne : ¬ pre <+: pre' ∧ ¬ pre' <+: pre)
    (rest : List UInt8) : startsWith (pre ++ rest) pre' = false :=
  startsWith_unique (startsWith_append_self pre rest) hne

theorem not_startsWith_append {pre pre' : List UInt8} (hne : ¬ pre <+: pre' ∧ ¬ pre' <+: pre)
    (rest : List UInt8) : ¬ startsWith (pre ++ rest) pre' = true :=
  Bool.eq_false_iff.1 (startsWith_append_other hne rest)

/-- A line with another key is none of the attributes that `parse_visit` looks for in every section. -/
theorem not_startsWith_session {pre : List UInt8}
    (hne : ∀ pre' ∈ [ascii "a=ice-ufrag:", ascii "a=ice-pwd:", ascii "a=fingerprint:", ascii "a=setup:"],
      ¬ pre <+: pre' ∧ ¬ pre' <+: pre) (rest : List UInt8) :
    ¬ startsWith (pre ++ rest) (ascii "a=ice-ufrag:") = true ∧
      ¬ startsWith (pre ++ rest) (ascii "a=ice-pwd:") = true ∧
      ¬ startsWith (pre ++ rest) (ascii "a=fingerprint:") = true ∧
      ¬ startsWith (pre ++ rest) (ascii "a=setup:") = true := by
  simp only [List.forall_mem_cons] at hne
  obtain ⟨hufrag, hpwd, hfingerprint, hsetup, -⟩ := hne
  exact ⟨not_startsWith_append hufrag rest, not_startsWith_append hpwd rest,
    not_startsWith_append hfingerprint rest, not_startsWith_append hsetup rest⟩

section Attributes

variable (ctx : ParseContext) (media : SdpMedia) (v : List UInt8)

theorem parseVisit_iceUfrag :
    parseVisit ctx (ascii "a=ice-ufrag:" ++ v) media =
      { ctx with
        offer :=
          { ctx.offer with
            iceUfrag :=
              copyValue (ascii "a=ice-ufrag:" ++ v) (ascii "a=ice-ufrag:") ctx.offer.iceUfrag 80 }
        haveUfrag := true } := by
  rw [parseVisit, if_pos (startsWith_append_self _ v)]

theorem parseVisit_icePwd :
    parseVisit ctx (ascii "a=ice-pwd:" ++ v) media =
      { ctx with
        offer :=
          { ctx.offer with
            icePwd := copyValue (ascii "a=ice-pwd:" ++ v) (ascii "a=ice-pwd:") ctx.offer.icePwd 128 }
        havePwd := true } := by
  rw [parseVisit, if_neg (not_startsWith_append (by decide) v), if_pos (startsWith_append_self _ v)]

theorem parseVisit_fingerprint :
    parseVisit ctx (ascii "a=fingerprint:" ++ v) media =
      { ctx with
        offer :=
          { ctx.offer with
            fingerprint :=
              copyValue (ascii "a=fingerprint:" ++ v) (ascii "a=fingerprint:") ctx.offer.fingerprint
                128 }
        haveFingerprint := true } := by
  rw [parseVisit, if_neg (not_startsWith_append (by decide) v),
    if_neg (not_startsWith_append (by decide) v), if_pos (startsWith_append_self _ v)]

theorem parseVisit_setup :
    parseVisit ctx (ascii "a=setup:" ++ v) media =
      { ctx with
        offer :=
          { ctx.offer with
            setup := copyValue (ascii "a=setup:" ++ v) (ascii "a=setup:") ctx.offer.setup 24 } } := by
  rw [parseVisit, if_neg (not_startsWith_append (by decide) v),
    if_neg (not_startsWith_append (by decide) v), if_neg (not_startsWith_append (by decide) v),
    if_pos (startsWith_append_self _ v)]

theorem parseVisit_mid :
    parseVisit ctx (ascii "a=mid:" ++ v) media =
      match media with
      | .none => ctx
      | .audio =>
        { ctx with
          offer :=
            { ctx.offer with
              audioMid := copyValue (ascii "a=mid:" ++ v) (ascii "a=mid:") ctx.offer.audioMid 24
              hasAudio := true } }
      | .video =>
        { ctx with
          offer :=
            { ctx.offer with
              videoMid := copyValue (ascii "a=mid:" ++ v) (ascii "a=mid:") ctx.offer.videoMid 24 } } := by
  obtain ⟨hufrag, hpwd, hfingerprint, hsetup⟩ :=
    @not_startsWith_session (ascii "a=mid:") (forall_mem_of_all (by decide)) v
  rw [parseVisit, if_neg hufrag, if_neg hpwd, if_neg hfingerprint, if_neg hsetup, startsWith_append_self]
  cases media <;> rfl

/-- The number an `a=rtpmap:` line gives to H264, as `parse_visit` reads it. -/
def h264Number (line : List UInt8) : Option ℤ :=
  if startsWith line (ascii "a=rtpmap:") ∧ strstr line (ascii "H264/90000") then
    some (atoi (line.drop 9))
  else none

/-- The line that gives H264 the number `n`. -/
theorem h264Number_decimal {n : ℕ} (hn : n < 2 ^ 31) :
    h264Number (ascii "a=rtpmap:" ++ (decimal n ++ ascii " H264/90000")) = some (n : ℤ) := by
  have hdrop : (ascii "a=rtpmap:" ++ (decimal n ++ ascii " H264/90000")).drop 9 =
      decimal n ++ ascii " H264/90000" := List.drop_left' (by decide)
  have hstr : strstr (ascii "a=rtpmap:" ++ (decimal n ++ ascii " H264/90000"))
      (ascii "H264/90000") = true := by
    have h := strstr_append (ascii "a=rtpmap:" ++ decimal n ++ ascii " ") (ascii "H264/90000") []
    rw [List.append_nil, List.append_assoc, List.append_assoc] at h
    exact h
  have hspace : ∀ c ∈ (ascii " H264/90000").head?, isdigit c = false := by
    rintro c ⟨⟩
    rfl
  rw [h264Number, if_pos ⟨startsWith_append_self _ _, hstr⟩, hdrop, atoi_decimal hn hspace]

theorem parseVisit_rtpmap :
    parseVisit ctx (ascii "a=rtpmap:" ++ v) media =
      if media = .video ∧ ctx.offer.h264PayloadType < 0 then
        { ctx with
          offer :=
            { ctx.offer with
              h264PayloadType :=
                (h264Number (ascii "a=rtpmap:" ++ v)).getD ctx.offer.h264PayloadType } }
      else ctx := by
  have hmid (m : SdpMedia) :
      ¬ (media = m ∧ startsWith (ascii "a=rtpmap:" ++ v) (ascii "a=mid:") = true) :=
    fun h ↦ not_startsWith_append (by decide) v h.2
  obtain ⟨hufrag, hpwd, hfingerprint, hsetup⟩ :=
    @not_startsWith_session (ascii "a=rtpmap:") (forall_mem_of_all (by decide)) v
  rw [parseVisit, if_neg hufrag, if_neg hpwd, if_neg hfingerprint, if_neg hsetup, if_neg (hmid _),
    if_neg (hmid _), h264Number, startsWith_append_self]
  split_ifs <;> first | rfl | simp_all

theorem parseVisit_fmtp :
    parseVisit ctx (ascii "a=fmtp:" ++ v) media =
      if media = .video ∧ atoi v = ctx.offer.h264PayloadType ∧
          strstr (ascii "a=fmtp:" ++ v) (ascii "packetization-mode=0") = true then
        { ctx with offer := { ctx.offer with h264PacketizationMode := 0 } }
      else ctx := by
  have hdrop : (ascii "a=fmtp:" ++ v).drop 7 = v := List.drop_left' (by decide)
  have hmid (m : SdpMedia) :
      ¬ (media = m ∧ startsWith (ascii "a=fmtp:" ++ v) (ascii "a=mid:") = true) :=
    fun h ↦ not_startsWith_append (by decide) v h.2
  have hrtpmap : ¬ (media = .video ∧ startsWith (ascii "a=fmtp:" ++ v) (ascii "a=rtpmap:") = true) :=
    fun h ↦ not_startsWith_append (by decide) v h.2
  obtain ⟨hufrag, hpwd, hfingerprint, hsetup⟩ :=
    @not_startsWith_session (ascii "a=fmtp:") (forall_mem_of_all (by decide)) v
  rw [parseVisit, if_neg hufrag, if_neg hpwd, if_neg hfingerprint, if_neg hsetup, if_neg (hmid _),
    if_neg (hmid _), if_neg hrtpmap, startsWith_append_self, hdrop]
  split_ifs <;> first | rfl | simp_all

end Attributes

/-- What holds after each branch of `parse_visit` holds after the line. -/
theorem parseVisit_cases (P : ParseContext → Prop) {ctx : ParseContext} {line : List UInt8}
    {media : SdpMedia}
    (hufrag : P { ctx with
      offer := { ctx.offer with
        iceUfrag := copyValue line (ascii "a=ice-ufrag:") ctx.offer.iceUfrag 80 }
      haveUfrag := true })
    (hpwd : P { ctx with
      offer := { ctx.offer with icePwd := copyValue line (ascii "a=ice-pwd:") ctx.offer.icePwd 128 }
      havePwd := true })
    (hfp : P { ctx with
      offer := { ctx.offer with
        fingerprint := copyValue line (ascii "a=fingerprint:") ctx.offer.fingerprint 128 }
      haveFingerprint := true })
    (hsetup : P { ctx with
      offer := { ctx.offer with setup := copyValue line (ascii "a=setup:") ctx.offer.setup 24 } })
    (hvideo : startsWith line (ascii "a=mid:") = true → P { ctx with
      offer := { ctx.offer with videoMid := copyValue line (ascii "a=mid:") ctx.offer.videoMid 24 } })
    (haudio : startsWith line (ascii "a=mid:") = true → P { ctx with
      offer := { ctx.offer with
        audioMid := copyValue line (ascii "a=mid:") ctx.offer.audioMid 24
        hasAudio := true } })
    (hrtpmap : startsWith line (ascii "a=rtpmap:") = true → P { ctx with
      offer := { ctx.offer with h264PayloadType := atoi (line.drop 9) } })
    (hfmtp : P { ctx with offer := { ctx.offer with h264PacketizationMode := 0 } })
    (hsame : P ctx) : P (parseVisit ctx line media) :=
  iteInduction (fun _ ↦ hufrag) fun _ ↦ iteInduction (fun _ ↦ hpwd) fun _ ↦
    iteInduction (fun _ ↦ hfp) fun _ ↦ iteInduction (fun _ ↦ hsetup) fun _ ↦
    iteInduction (fun h ↦ hvideo h.2) fun _ ↦ iteInduction (fun h ↦ haudio h.2) fun _ ↦
    iteInduction (fun h ↦ iteInduction (fun _ ↦ hrtpmap h.2) fun _ ↦ hsame) fun _ ↦
    iteInduction (fun _ ↦ iteInduction (fun _ ↦ hfmtp) fun _ ↦ hsame) fun _ ↦ hsame

/-- The attributes `parse_visit` knows. -/
def sdpAttributes : List (List UInt8) :=
  [ascii "a=ice-ufrag:", ascii "a=ice-pwd:", ascii "a=fingerprint:", ascii "a=setup:",
    ascii "a=mid:", ascii "a=rtpmap:", ascii "a=fmtp:"]

/-- A line with none of them. -/
def IsInert (line : List UInt8) : Prop :=
  ∀ pre ∈ sdpAttributes, startsWith line pre = false

theorem isInert_append {pre : List UInt8}
    (h : ∀ pre' ∈ sdpAttributes, ¬ pre <+: pre' ∧ ¬ pre' <+: pre) (rest : List UInt8) :
    IsInert (pre ++ rest) :=
  fun pre' hpre' ↦ startsWith_append_other (h pre' hpre') rest

theorem parseVisit_of_isInert {line : List UInt8} (h : IsInert line) (ctx : ParseContext)
    (media : SdpMedia) : parseVisit ctx line media = ctx := by
  simp only [IsInert, sdpAttributes, List.forall_mem_cons] at h
  obtain ⟨h1, h2, h3, h4, h5, h6, h7, -⟩ := h
  simp only [parseVisit, h1, h2, h3, h4, h5, h6, h7, Bool.false_eq_true, and_false, if_false]

/-! ### One field -/

/-- A field that only the lines of one kind of section change is a fold over these sections. -/
theorem parsedContext_eq_foldl {β : Type} (field : ParseContext → β) (g : β → List UInt8 → β)
    {media : SdpMedia} (hmedia : media ≠ .none)
    (hvisit : ∀ ctx line m,
      field (parseVisit ctx line m) = if m = media then g (field ctx) line else field ctx)
    (sdp : List UInt8) :
    field (parsedContext sdp) =
      (sectionsOf media sdp).flatten.foldl (fun b line ↦ g b (lineBuffer line))
        (field ⟨emptyOffer, false, false, false⟩) := by
  have hfold : ∀ (ls : List (List UInt8 × SdpMedia)) (ctx : ParseContext),
      field (ls.foldl (fun u x ↦ parseVisit u (lineBuffer x.1) x.2) ctx) =
        ((ls.filter fun x ↦ x.2 = media).map Prod.fst).foldl (fun b line ↦ g b (lineBuffer line))
          (field ctx) := by
    intro ls
    induction ls with
    | nil => exact fun ctx ↦ rfl
    | cons x ls ih =>
      intro ctx
      rw [List.foldl_cons, ih, hvisit]
      by_cases hx : x.2 = media
      · rw [if_pos hx, List.filter_cons_of_pos (by simpa using hx), List.map_cons, List.foldl_cons]
      · rw [if_neg hx, List.filter_cons_of_neg (by simpa using hx)]
  rw [parsedContext, sdpForEachLine_eq_foldl, hfold, filter_mediaLines hmedia]

/-- The last value wins. -/
theorem foldl_getD {α β : Type} (f : α → Option β) (ls : List α) (b : β) :
    ls.foldl (fun b l ↦ (f l).getD b) b = (ls.filterMap f).getLast?.getD b := by
  induction ls using List.reverseRecOn with
  | nil => rfl
  | append_singleton ls l ih =>
    rw [List.foldl_append, List.foldl_cons, List.foldl_nil, ih, List.filterMap_append]
    rcases h : f l with - | a
    · simp [h]
    · simp [h]

/-! ### The mids -/

/-- The value of an `a=mid:` line. -/
def midValue (line : List UInt8) : Option (List UInt8) :=
  if startsWith line (ascii "a=mid:") then some (copyValue line (ascii "a=mid:") [] 24) else none

/-- The values of the `a=mid:` lines in the sections of one kind. -/
def mids (media : SdpMedia) (sdp : List UInt8) : List (List UInt8) :=
  (sectionsOf media sdp).flatten.filterMap fun line ↦ midValue (lineBuffer line)

/-- The mid the parser keeps for the sections of one kind. -/
def SdpOffer.mid (offer : SdpOffer) : SdpMedia → List UInt8
  | .none => []
  | .audio => offer.audioMid
  | .video => offer.videoMid

@[simp] theorem SdpOffer.withSetup_mid (offer : SdpOffer) (media : SdpMedia) :
    offer.withSetup.mid media = offer.mid media := by
  rw [withSetup]
  split_ifs
  · cases media <;> rfl
  · rfl

theorem mid_parseVisit {media : SdpMedia} (hmedia : media ≠ .none) (ctx : ParseContext)
    (line : List UInt8) (m : SdpMedia) :
    (parseVisit ctx line m).offer.mid media =
      if m = media then (midValue line).getD (ctx.offer.mid media) else ctx.offer.mid media := by
  by_cases hline : startsWith line (ascii "a=mid:") = true
  · rw [midValue, if_pos hline, Option.getD_some,
      copyValue_of_startsWith hline [] (ctx.offer.mid media)]
    obtain ⟨value, rfl⟩ := List.isPrefixOf_iff_prefix.1 hline
    rw [parseVisit_mid]
    cases media with
    | none => exact absurd rfl hmedia
    | audio | video => cases m <;> rfl
  · rw [midValue, if_neg hline, Option.getD_none, ite_self]
    have hkeep : ∀ c : ParseContext, c.offer.audioMid = ctx.offer.audioMid ∧
        c.offer.videoMid = ctx.offer.videoMid → c.offer.mid media = ctx.offer.mid media := by
      rintro c ⟨haudio, hvideo⟩
      cases media with
      | none => rfl
      | audio => exact haudio
      | video => exact hvideo
    exact hkeep _ (parseVisit_cases
      (fun c ↦ c.offer.audioMid = ctx.offer.audioMid ∧ c.offer.videoMid = ctx.offer.videoMid)
      ⟨rfl, rfl⟩ ⟨rfl, rfl⟩ ⟨rfl, rfl⟩ ⟨rfl, rfl⟩ (fun h ↦ absurd h hline) (fun h ↦ absurd h hline)
      (fun _ ↦ ⟨rfl, rfl⟩) ⟨rfl, rfl⟩ ⟨rfl, rfl⟩)

/-- **The mid of an offer** for a kind of section is the last one that these sections give. -/
theorem mid_eq {sdp : List UInt8} {offer : SdpOffer} (h : sdpParseOffer sdp = some offer)
    {media : SdpMedia} (hmedia : media ≠ .none) :
    offer.mid media = (mids media sdp).getLast?.getD [] := by
  obtain ⟨-, rfl⟩ := sdpParseOffer_eq_some.1 h
  have hempty : emptyOffer.mid media = [] := by cases media <;> rfl
  rw [SdpOffer.withSetup_mid, parsedContext_eq_foldl (fun ctx ↦ ctx.offer.mid media)
    (fun mid line ↦ (midValue line).getD mid) hmedia (mid_parseVisit hmedia) sdp, foldl_getD, hempty]
  rfl

/-! ### Audio -/

theorem hasAudio_parseVisit (ctx : ParseContext) (line : List UInt8) (media : SdpMedia) :
    (parseVisit ctx line media).offer.hasAudio =
      if media = .audio then ctx.offer.hasAudio || startsWith line (ascii "a=mid:")
      else ctx.offer.hasAudio := by
  by_cases hline : startsWith line (ascii "a=mid:") = true
  · rw [hline, Bool.or_true]
    obtain ⟨value, rfl⟩ := List.isPrefixOf_iff_prefix.1 hline
    rw [parseVisit_mid]
    cases media <;> rfl
  · rw [Bool.eq_false_iff.2 hline, Bool.or_false, ite_self]
    exact parseVisit_cases (fun c ↦ c.offer.hasAudio = ctx.offer.hasAudio) rfl rfl rfl rfl
      (fun _ ↦ rfl) (fun h ↦ absurd h hline) (fun _ ↦ rfl) rfl rfl

/-- **An offer has audio** if some audio section of it has an `a=mid:` line. -/
theorem hasAudio_eq {sdp : List UInt8} {offer : SdpOffer} (h : sdpParseOffer sdp = some offer) :
    offer.hasAudio =
      (sectionsOf .audio sdp).flatten.any fun line ↦ startsWith line (ascii "a=mid:") := by
  obtain ⟨-, rfl⟩ := sdpParseOffer_eq_some.1 h
  have hany : ∀ (ls : List (List UInt8)) (b : Bool),
      ls.foldl (fun b line ↦ b || startsWith (lineBuffer line) (ascii "a=mid:")) b =
        (b || ls.any fun line ↦ startsWith line (ascii "a=mid:")) := by
    intro ls
    induction ls with
    | nil => exact fun b ↦ (Bool.or_false b).symm
    | cons line ls ih =>
      intro b
      rw [List.foldl_cons, ih, startsWith_lineBuffer line (by decide) (by decide), List.any_cons,
        Bool.or_assoc]
  rw [SdpOffer.withSetup_hasAudio, parsedContext_eq_foldl (fun ctx ↦ ctx.offer.hasAudio)
    (fun b line ↦ b || startsWith line (ascii "a=mid:")) (by decide) hasAudio_parseVisit sdp, hany]
  rfl

/-! ### The payload type -/

/-- These numbers in the video sections of an offer, in order. -/
def h264Numbers (sdp : List UInt8) : List ℤ :=
  (sectionsOf .video sdp).flatten.filterMap fun line ↦ h264Number (lineBuffer line)

theorem h264PayloadType_parseVisit (ctx : ParseContext) (line : List UInt8) (media : SdpMedia) :
    (parseVisit ctx line media).offer.h264PayloadType =
      if media = .video then
        if ctx.offer.h264PayloadType < 0 then (h264Number line).getD ctx.offer.h264PayloadType
        else ctx.offer.h264PayloadType
      else ctx.offer.h264PayloadType := by
  by_cases hline : startsWith line (ascii "a=rtpmap:") = true
  · obtain ⟨value, rfl⟩ := List.isPrefixOf_iff_prefix.1 hline
    rw [parseVisit_rtpmap]
    cases media <;> split_ifs <;> simp_all
  · have hnone : h264Number line = none := if_neg fun h ↦ hline h.1
    rw [hnone, Option.getD_none, ite_self, ite_self]
    exact parseVisit_cases (fun c ↦ c.offer.h264PayloadType = ctx.offer.h264PayloadType) rfl rfl rfl
      rfl (fun _ ↦ rfl) (fun _ ↦ rfl) (fun h ↦ absurd h hline) rfl rfl

/-- Taking the first number that is not negative. -/
theorem foldl_first {ns : List ℤ} {p : ℤ} (hp : p < 0)
    (h : 0 ≤ ns.foldl (fun p n ↦ if p < 0 then n else p) p) :
    ns.find? (0 ≤ ·) = some (ns.foldl (fun p n ↦ if p < 0 then n else p) p) := by
  have hkeep : ∀ (ns : List ℤ) (p : ℤ), 0 ≤ p →
      ns.foldl (fun p n ↦ if p < 0 then n else p) p = p := by
    intro ns p hp
    induction ns with
    | nil => rfl
    | cons n ns ih => rw [List.foldl_cons, if_neg (Int.not_lt.2 hp), ih]
  induction ns generalizing p with
  | nil => exact absurd h (Int.not_le.2 hp)
  | cons n ns ih =>
    rw [List.foldl_cons, if_pos hp] at h ⊢
    by_cases hn : n < 0
    · rw [List.find?_cons_of_neg (by simpa using hn)]
      exact ih hn h
    · have hn : 0 ≤ n := Int.not_lt.1 hn
      rw [List.find?_cons_of_pos (by simpa using hn), hkeep ns n hn]

/-- **The payload type of an offer** is the first of its numbers for H264 that is not negative. -/
theorem find_h264Numbers {sdp : List UInt8} {offer : SdpOffer}
    (h : sdpParseOffer sdp = some offer) :
    (h264Numbers sdp).find? (0 ≤ ·) = some offer.h264PayloadType := by
  obtain ⟨⟨-, -, -, hpt⟩, rfl⟩ := sdpParseOffer_eq_some.1 h
  have hnumbers : ∀ (ls : List (List UInt8)) (p : ℤ),
      ls.foldl (fun p line ↦ if p < 0 then (h264Number (lineBuffer line)).getD p else p) p =
        (ls.filterMap fun line ↦ h264Number (lineBuffer line)).foldl
          (fun p n ↦ if p < 0 then n else p) p := by
    intro ls
    induction ls with
    | nil => exact fun p ↦ rfl
    | cons line ls ih =>
      intro p
      rw [List.foldl_cons, ih, List.filterMap_cons]
      rcases h264Number (lineBuffer line) with - | n
      · rw [Option.getD_none, ite_self]
      · rfl
  have hvalue : (parsedContext sdp).offer.h264PayloadType =
      (h264Numbers sdp).foldl (fun p n ↦ if p < 0 then n else p) (-1) := by
    rw [parsedContext_eq_foldl (fun ctx ↦ ctx.offer.h264PayloadType)
      (fun p line ↦ if p < 0 then (h264Number line).getD p else p) (by decide)
      h264PayloadType_parseVisit sdp, hnumbers]
    rfl
  rw [SdpOffer.withSetup_h264PayloadType, hvalue]
  exact foldl_first (by decide) (hvalue ▸ hpt)

/-- It is an `int`, and not negative. -/
theorem h264PayloadType_bounds {sdp : List UInt8} {offer : SdpOffer}
    (h : sdpParseOffer sdp = some offer) :
    0 ≤ offer.h264PayloadType ∧ offer.h264PayloadType < 2 ^ 31 := by
  have hfind := find_h264Numbers h
  refine ⟨by simpa using List.find?_some hfind, ?_⟩
  obtain ⟨line, -, hline⟩ := List.mem_filterMap.1 (List.mem_of_find?_eq_some hfind)
  rw [h264Number] at hline
  split_ifs at hline
  rw [← Option.some.inj hline]
  exact atoi_lt _

/-! ### The string fields -/

/-- A string that stays within one line: no zero, carriage return or line feed. -/
def IsValue (v : List UInt8) : Prop :=
  0 ∉ v ∧ IsLine v

/-- Such a string, short enough for a buffer of the given size with its terminating zero. -/
structure FitsField (size : ℕ) (v : List UInt8) : Prop where
  length_lt : v.length < size
  isValue : IsValue v

/-- Every string field fits its buffer. -/
structure SdpOffer.Fits (offer : SdpOffer) : Prop where
  iceUfrag : FitsField 80 offer.iceUfrag
  icePwd : FitsField 128 offer.icePwd
  fingerprint : FitsField 128 offer.fingerprint
  setup : FitsField 24 offer.setup
  videoMid : FitsField 24 offer.videoMid
  audioMid : FitsField 24 offer.audioMid

theorem FitsField.nil {size : ℕ} (h : 0 < size) : FitsField size [] :=
  ⟨h, List.not_mem_nil, List.not_mem_nil, List.not_mem_nil⟩

/-- Whatever a line holds, the copy fits. -/
theorem fitsField_copyValue {line : List UInt8} (hzero : 0 ∉ line) (pre : List UInt8) {size : ℕ}
    (hsize : 0 < size) {out : List UInt8} (hout : FitsField size out) :
    FitsField size (copyValue line pre out size) := by
  rw [copyValue]
  split_ifs
  · have hmem : ∀ c ∈ ((line.drop pre.length).takeWhile fun c ↦ c ≠ 13 ∧ c ≠ 10).take (size - 1),
        c ∈ line ∧ c ≠ 13 ∧ c ≠ 10 := fun c hc ↦ by
      have hc := List.mem_of_mem_take hc
      refine ⟨List.mem_of_mem_drop ((List.takeWhile_sublist _).subset hc), ?_⟩
      simpa using List.mem_takeWhile_imp hc
    refine ⟨Nat.lt_of_le_of_lt (List.length_take_le _ _) (Nat.sub_one_lt_of_lt hsize),
      fun h ↦ hzero (hmem 0 h).1, fun h ↦ (hmem 13 h).2.1 rfl, fun h ↦ (hmem 10 h).2.2 rfl⟩
  · exact hout

/-- One line keeps the fields fitting. -/
theorem fits_parseVisit {ctx : ParseContext} (h : ctx.offer.Fits) {line : List UInt8}
    (hzero : 0 ∉ line) (media : SdpMedia) : (parseVisit ctx line media).offer.Fits := by
  refine parseVisit_cases (fun c ↦ c.offer.Fits) ?_ ?_ ?_ ?_ (fun _ ↦ ?_) (fun _ ↦ ?_) (fun _ ↦ ?_) ?_ h
  · exact { h with iceUfrag := fitsField_copyValue hzero _ (by decide) h.iceUfrag }
  · exact { h with icePwd := fitsField_copyValue hzero _ (by decide) h.icePwd }
  · exact { h with fingerprint := fitsField_copyValue hzero _ (by decide) h.fingerprint }
  · exact { h with setup := fitsField_copyValue hzero _ (by decide) h.setup }
  · exact { h with videoMid := fitsField_copyValue hzero _ (by decide) h.videoMid }
  · exact { h with audioMid := fitsField_copyValue hzero _ (by decide) h.audioMid }
  -- The lines about the payload type leave the strings alone.
  all_goals exact { h with }

theorem notMem_lineBuffer (line : List UInt8) : 0 ∉ lineBuffer line :=
  fun h ↦ by simpa using List.mem_takeWhile_imp h

/-- **The fields of an accepted offer** fit their buffers, whatever the text was. -/
theorem fits_of_sdpParseOffer {sdp : List UInt8} {offer : SdpOffer}
    (h : sdpParseOffer sdp = some offer) : offer.Fits := by
  obtain ⟨-, rfl⟩ := sdpParseOffer_eq_some.1 h
  have hactpass : FitsField 24 (ascii "actpass") := ⟨by decide, by decide, by decide, by decide⟩
  have hempty : emptyOffer.Fits :=
    ⟨.nil (by decide), .nil (by decide), .nil (by decide), .nil (by decide), .nil (by decide),
      .nil (by decide)⟩
  have hwalk : (parsedContext sdp).offer.Fits := by
    rw [parsedContext, sdpForEachLine_eq_foldl]
    refine List.foldlRecOn (motive := fun ctx : ParseContext ↦ ctx.offer.Fits) _ _ hempty ?_
    exact fun ctx hctx x _ ↦ fits_parseVisit hctx (notMem_lineBuffer x.1) x.2
  rw [SdpOffer.withSetup]
  split_ifs
  · exact { hwalk with setup := hactpass }
  · exact hwalk

/-- A value that fits is copied as it is. -/
theorem copyValue_append {size : ℕ} {v : List UInt8} (h : FitsField size v) (pre out : List UInt8) :
    copyValue (pre ++ v) pre out size = v := by
  obtain ⟨hlen, -, hcr, hlf⟩ := h
  have hall : v.takeWhile (fun c ↦ decide (c ≠ 13 ∧ c ≠ 10)) = v :=
    List.takeWhile_eq_self_iff.2 fun c hc ↦
      decide_eq_true ⟨fun h ↦ hcr (h ▸ hc), fun h ↦ hlf (h ▸ hc)⟩
  rw [copyValue, if_pos (startsWith_append_self pre v), List.drop_left, hall,
    List.take_of_length_le (Nat.le_sub_one_of_lt hlen)]

end Camstream
