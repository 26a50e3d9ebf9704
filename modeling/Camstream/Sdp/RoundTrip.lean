import Camstream.Sdp.MediaSections

/-!
# An answer parses

An answer is a session description like an offer, and `sdp_parse_offer` reads back from it what
`sdp_build_answer_multi` put in (`sdpParseOffer_sdpBuildAnswerMulti`).

The walk over an answer is followed line by line. Every line is either one of the attributes the parser
knows or inert, and the section it stands in is known.
-/

namespace Camstream

open CString Lines

/-- What is read back: values that fit, and a payload type of seven bits. -/
structure RoundTrips (offer : SdpOffer) (args : SdpAnswerArgs) : Prop where
  localFingerprint : args.localFingerprint.length ≤ 103
  localUfrag : args.localUfrag.length ≤ 15
  localPwd : args.localPwd.length ≤ 43
  advertiseIp : args.advertiseIp.length ≤ 15
  extraCount : args.extraIps.length ≤ 16
  extraIps : ∀ ip, some ip ∈ args.extraIps → ip.length ≤ 15
  values : args.All IsValue
  videoMid : offer.videoMid.length ≤ 23 ∧ IsValue offer.videoMid
  audioMid : offer.audioMid.length ≤ 23 ∧ IsValue offer.audioMid
  h264PayloadType : 0 ≤ offer.h264PayloadType ∧ offer.h264PayloadType ≤ 127

namespace RoundTrips

variable {offer : SdpOffer} {args : SdpAnswerArgs} (h : RoundTrips offer args)

include h

theorem fits : args.Fits where
  localFingerprint := Nat.lt_of_le_of_lt h.localFingerprint (by decide)
  localUfrag := Nat.lt_succ_of_le h.localUfrag
  localPwd := Nat.lt_succ_of_le h.localPwd
  advertiseIp := Nat.lt_succ_of_le h.advertiseIp
  extraCount := h.extraCount
  extraIps := fun ip hip ↦ Nat.lt_succ_of_le (h.extraIps ip hip)

theorem printable : offer.Printable where
  videoMid := Nat.lt_succ_of_le h.videoMid.1
  audioMid := Nat.lt_succ_of_le h.audioMid.1
  h264PayloadType := ⟨h.h264PayloadType.1, Int.lt_of_le_of_lt h.h264PayloadType.2 (by decide)⟩

theorem fitsField_videoMid : FitsField 24 (Camstream.videoMid offer) := by
  refine ⟨Nat.lt_succ_of_le (length_videoMid h.printable.bounded), ?_⟩
  rw [Camstream.videoMid]
  split_ifs
  · exact h.videoMid.2
  · exact ⟨by decide, by decide⟩

theorem fitsField_audioMid : FitsField 24 (Camstream.audioMid offer) := by
  refine ⟨Nat.lt_succ_of_le (length_audioMid h.printable.bounded), ?_⟩
  rw [Camstream.audioMid]
  split_ifs
  · exact h.audioMid.2
  · exact ⟨by decide, by decide⟩

end RoundTrips

/-! ### Line by line -/

section Visits

variable (ctx : ParseContext) (media : SdpMedia)

theorem parseVisit_inert {pre : List UInt8}
    (h : ∀ pre' ∈ sdpAttributes, ¬ pre <+: pre' ∧ ¬ pre' <+: pre) (rest : List UInt8) :
    parseVisit ctx (pre ++ rest) media = ctx :=
  parseVisit_of_isInert (isInert_append h rest) ctx media

theorem parseVisit_literal {line : List UInt8}
    (h : ∀ pre' ∈ sdpAttributes, startsWith line pre' = false) : parseVisit ctx line media = ctx :=
  parseVisit_of_isInert h ctx media

/-- Lines that the parser does not know. -/
theorem foldl_parseVisit_inert {ls : List (List UInt8)}
    (h : ∀ l ∈ ls, ∀ c, parseVisit c l media = c) :
    ls.foldl (fun c l ↦ parseVisit c l media) ctx = ctx := by
  induction ls with
  | nil => rfl
  | cons l ls ih =>
    rw [List.forall_mem_cons] at h
    rw [List.foldl_cons, h.1, ih h.2]

/-- The candidates, and the end of them, leave the context alone. -/
theorem foldl_videoSection (offer : SdpOffer) (args : SdpAnswerArgs) (n : ℕ) :
    (videoSection offer args n).foldl (fun c l ↦ parseVisit c l .video) ctx =
      (videoLines offer args).foldl (fun c l ↦ parseVisit c l .video) ctx := by
  have hextra : ∀ l ∈ extraCandidateLines args 0 (args.extraIps.take n), ∀ c,
      parseVisit c l .video = c := by
    intro l hl c
    obtain ⟨j, ip, -, -, -, rfl⟩ := exists_of_mem_extraCandidateLines hl
    simp only [extraCandidateLine, List.append_assoc]
    exact parseVisit_inert c .video (by decide) _
  rw [videoSection, List.foldl_append, List.foldl_append, List.foldl_append,
    foldl_parseVisit_inert _ _ hextra]
  simp (disch := decide) only [List.foldl_cons, List.foldl_nil, candidateLine, List.append_assoc,
    parseVisit_literal, parseVisit_inert]

end Visits

namespace RoundTrips

variable {offer : SdpOffer} {args : SdpAnswerArgs} (h : RoundTrips offer args) (ctx : ParseContext)

include h

theorem copyValue_localUfrag (out : List UInt8) :
    copyValue (ascii "a=ice-ufrag:" ++ args.localUfrag) (ascii "a=ice-ufrag:") out 80 =
      args.localUfrag :=
  copyValue_append ⟨Nat.lt_of_le_of_lt h.localUfrag (by decide), h.values.localUfrag⟩ _ out

theorem copyValue_localPwd (out : List UInt8) :
    copyValue (ascii "a=ice-pwd:" ++ args.localPwd) (ascii "a=ice-pwd:") out 128 = args.localPwd :=
  copyValue_append ⟨Nat.lt_of_le_of_lt h.localPwd (by decide), h.values.localPwd⟩ _ out

theorem copyValue_localFingerprint (out : List UInt8) :
    copyValue (ascii "a=fingerprint:" ++ args.localFingerprint) (ascii "a=fingerprint:") out 128 =
      args.localFingerprint :=
  copyValue_append
    ⟨Nat.lt_of_le_of_lt h.localFingerprint (by decide), h.values.localFingerprint⟩ _ out

omit h in
theorem copyValue_passive (out : List UInt8) :
    copyValue (ascii "a=setup:" ++ ascii "passive") (ascii "a=setup:") out 24 = ascii "passive" :=
  copyValue_append ⟨by decide, by decide, by decide, by decide⟩ _ out

/-- The session level. -/
theorem foldl_headerLines :
    (headerLines offer args).foldl (fun c l ↦ parseVisit c l .none) ctx =
      { offer :=
          { ctx.offer with
            iceUfrag := args.localUfrag
            icePwd := args.localPwd
            fingerprint := args.localFingerprint
            setup := ascii "passive" }
        haveUfrag := true
        havePwd := true
        haveFingerprint := true } := by
  have hsetup : ascii "a=setup:passive" = ascii "a=setup:" ++ ascii "passive" := by decide
  simp (disch := decide) only [headerLines, List.foldl_cons, List.foldl_nil, parseVisit_literal,
    parseVisit_inert, hsetup, parseVisit_setup, parseVisit_fingerprint, parseVisit_iceUfrag,
    parseVisit_icePwd, copyValue_passive, h.copyValue_localUfrag, h.copyValue_localPwd,
    h.copyValue_localFingerprint]

/-- The audio section. -/
theorem foldl_audioLines :
    (audioLines offer).foldl (fun c l ↦ parseVisit c l .audio) ctx =
      { ctx with
        offer := { ctx.offer with audioMid := Camstream.audioMid offer, hasAudio := true } } := by
  simp (disch := decide) only [audioLines, List.foldl_cons, List.foldl_nil, parseVisit_literal,
    parseVisit_mid, copyValue_append h.fitsField_audioMid]

/-- The video section, up to the candidates. -/
theorem foldl_videoLines (hpt : ctx.offer.h264PayloadType < 0) :
    (videoLines offer args).foldl (fun c l ↦ parseVisit c l .video) ctx =
      { offer :=
          { ctx.offer with
            iceUfrag := args.localUfrag
            icePwd := args.localPwd
            fingerprint := args.localFingerprint
            setup := ascii "passive"
            videoMid := Camstream.videoMid offer
            h264PayloadType := offer.h264PayloadType }
        haveUfrag := true
        havePwd := true
        haveFingerprint := true } := by
  obtain ⟨n, hn⟩ := Int.eq_ofNat_of_zero_le h.h264PayloadType.1
  have hlt : n < 128 := by
    have := h.h264PayloadType.2
    omega
  have hsetup : ascii "a=setup:passive" = ascii "a=setup:" ++ ascii "passive" := by decide
  have hnumber := h264Number_decimal (n := n) (by omega)
  -- The payload type has no influence on the search for the other mode; there are 128 of them.
  have hmode : strstr (ascii "a=fmtp:" ++ (decimal n ++
      ascii " packetization-mode=1;profile-level-id=42e01f;level-asymmetry-allowed=1"))
      (ascii "packetization-mode=0") = false := by
    have hall : ∀ n < 128, strstr (ascii "a=fmtp:" ++ (decimal n ++
        ascii " packetization-mode=1;profile-level-id=42e01f;level-asymmetry-allowed=1"))
        (ascii "packetization-mode=0") = false := by decide +kernel
    exact hall n hlt
  simp (disch := decide) only [videoLines, hn, formatInt_natCast, List.foldl_cons, List.foldl_nil,
    List.append_assoc, parseVisit_literal, parseVisit_inert, hsetup, parseVisit_setup,
    parseVisit_fingerprint, parseVisit_iceUfrag, parseVisit_icePwd, parseVisit_mid,
    parseVisit_rtpmap, parseVisit_fmtp, hnumber, hmode, hpt, copyValue_passive,
    h.copyValue_localUfrag, h.copyValue_localPwd, h.copyValue_localFingerprint,
    copyValue_append h.fitsField_videoMid, Option.getD_some, Bool.false_eq_true, and_false, and_self,
    if_true, if_false]

/-- Every line of the answer fits the line buffer. -/
theorem fits_answerLines (n : ℕ) : ∀ l ∈ answerLines offer args n, l.length ≤ 511 ∧ 0 ∉ l := by
  have hvalue := forall_answerLines (P := IsValue)
    (fun _ _ hl hl' ↦ isValue_append.2 ⟨hl, hl'⟩) IsPrintable.isValue h.fitsField_videoMid.isValue (fun _ ↦ h.fitsField_audioMid.isValue) h.values n
  exact fun l hl ↦ ⟨Nat.le_trans (length_answerLines h.printable.bounded h.fits.bounded n l hl) (by decide),
    (hvalue l hl).1⟩

end RoundTrips

/-- What is read back. -/
def answerAsOffer (offer : SdpOffer) (args : SdpAnswerArgs) : SdpOffer where
  iceUfrag := args.localUfrag
  icePwd := args.localPwd
  fingerprint := args.localFingerprint
  setup := ascii "passive"
  videoMid := videoMid offer
  audioMid := if offer.hasAudio then audioMid offer else []
  hasAudio := offer.hasAudio
  h264PayloadType := offer.h264PayloadType
  h264PacketizationMode := 1

variable {offer : SdpOffer} {args : SdpAnswerArgs}

theorem sdpParseOffer_answerLines (h : RoundTrips offer args) (n : ℕ) :
    sdpParseOffer (crlf (answerLines offer args n)) = some (answerAsOffer offer args) := by
  have hfits := h.fits_answerLines n
  have hlines : lines (crlf (answerLines offer args n)) = answerLines offer args n :=
    lines_crlf (forall_answerLines (P := IsLine)
      (fun _ _ hl hl' ↦ isLine_append.2 ⟨hl, hl'⟩) IsPrintable.isLine
      h.fitsField_videoMid.isValue.2 (fun _ ↦ h.fitsField_audioMid.isValue.2)
      (h.values.imp fun _ hv ↦ hv.2) n)
  have hcontext : parsedContext (crlf (answerLines offer args n)) =
      ⟨answerAsOffer offer args, true, true, true⟩ := by
    rw [parsedContext, sdpForEachLine_of_lines parseVisit hlines hfits, labelled_answerLines,
      List.foldl_append, List.foldl_append, List.foldl_map, List.foldl_map, List.foldl_map]
    dsimp only
    have hunset : (-1 : ℤ) < 0 := by decide
    rw [h.foldl_headerLines, foldl_videoSection]
    rcases haudio : offer.hasAudio with - | -
    · rw [if_neg Bool.false_ne_true, List.foldl_nil, h.foldl_videoLines _ hunset, answerAsOffer,
        haudio]
      rfl
    · rw [if_pos rfl, h.foldl_audioLines, h.foldl_videoLines _ hunset, answerAsOffer, haudio]
      rfl
  refine sdpParseOffer_eq_some.2 ⟨?_, ?_⟩
  · rw [hcontext]
    exact ⟨rfl, rfl, rfl, h.h264PayloadType.1⟩
  · rw [hcontext]
    rfl

/-- **Parsing undoes building.** -/
theorem sdpParseOffer_sdpBuildAnswerMulti (h : RoundTrips offer args) :
    ∃ text, text.length < 8192 ∧
      (∀ outCapacity, text.length < outCapacity →
        sdpBuildAnswerMulti offer args outCapacity = .ok text) ∧
      sdpParseOffer text = some (answerAsOffer offer args) := by
  refine ⟨crlf (answerLines offer args args.extraIps.length),
    (sdpAnswerText_of_fits h.printable h.fits).2, fun outCapacity hcap ↦ ?_,
    sdpParseOffer_answerLines h _⟩
  rw [sdpBuildAnswerMulti_of_fits h.printable h.fits, if_pos hcap]

theorem roundTrips_sample : RoundTrips sampleParsedOffer sampleAnswerArgs where
  localFingerprint := by decide
  localUfrag := by decide
  localPwd := by decide
  advertiseIp := by decide
  extraCount := by decide
  extraIps := fun ip hip ↦ Nat.le_of_lt_succ (fits_sampleAnswerArgs.extraIps ip hip)
  values :=
    { localFingerprint := ⟨by decide, by decide⟩
      localUfrag := ⟨by decide, by decide⟩
      localPwd := ⟨by decide, by decide⟩
      advertiseIp := ⟨by decide, by decide⟩
      extraIps := fun ip hip ↦ by
        obtain rfl := Option.some.inj (List.mem_singleton.1 hip)
        exact ⟨by decide, by decide⟩ }
  videoMid := ⟨by decide, by decide, by decide⟩
  audioMid := ⟨by decide, by decide, by decide⟩
  h264PayloadType := ⟨by decide, by decide⟩

/-- The answer to the sample offer. -/
theorem sdpParseOffer_sdpBuildAnswerMulti_sample :
    ∃ text, sdpBuildAnswerMulti sampleParsedOffer sampleAnswerArgs 8192 = .ok text ∧
      sdpParseOffer text = some (answerAsOffer sampleParsedOffer sampleAnswerArgs) := by
  obtain ⟨text, hlen, hbuild, hparse⟩ := sdpParseOffer_sdpBuildAnswerMulti roundTrips_sample
  exact ⟨text, hbuild 8192 hlen, hparse⟩

end Camstream
