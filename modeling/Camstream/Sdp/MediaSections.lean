import Camstream.Sdp.Injection

/-!
# The media sections of an answer

An answer has one active section, for video. In front of it stands a rejected audio section, if an audio
section of the offer was noticed, which is when it has an `a=mid:` line (`hasAudio_iff`). No other section of
an offer has a counterpart, so the answer mirrors the offer for two layouts only (`mirrors_iff`). What is
stated of all offers leaves out those whose audio is not noticed.
-/

namespace Camstream

open CString Lines

/-- The media type of an `m=` line. -/
def mediaType (line : List UInt8) : List UInt8 :=
  (line.drop 2).takeWhile (· ≠ 32)

/-- The port of an `m=` line. -/
def mediaPort (line : List UInt8) : List UInt8 :=
  ((line.dropWhile (· ≠ 32)).tail).takeWhile (· ≠ 32)

/-- The media types of the sections of a description, in order. -/
def mediaTypes (sdp : List UInt8) : List (List UInt8) :=
  (mediaSections sdp).map fun s ↦ mediaType (s.headD [])

/-- An offer has an audio section. -/
def HasAudioSection (sdp : List UInt8) : Prop :=
  ∃ s ∈ mediaSections sdp, startsWith (s.headD []) (ascii "m=audio") = true

/-- Some audio section of an offer has an `a=mid:` line. -/
def HasAudioMid (sdp : List UInt8) : Prop :=
  ∃ s ∈ mediaSections sdp, startsWith (s.headD []) (ascii "m=audio") = true ∧
    ∃ line ∈ s, startsWith line (ascii "a=mid:") = true

/-- An answer has the sections of the offer, by type and in order, and all of them are rejected but one
for video. -/
def Mirrors (sdp answer : List UInt8) : Prop :=
  mediaTypes answer = mediaTypes sdp ∧
    ∃ before selected after, mediaSections answer = before ++ selected :: after ∧
      mediaType (selected.headD []) = ascii "video" ∧
      ∀ s ∈ before ++ after, mediaPort (s.headD []) = ascii "0"

/-! ### The offer -/

/-- What the parser takes for audio starts with `m=audio`. -/
theorem sdpMediaAfter_eq_audio_iff {line : List UInt8} (h : startsWith line (ascii "m=") = true) :
    sdpMediaAfter .none line = .audio ↔ startsWith line (ascii "m=audio") = true := by
  have haudio := startsWith_drop h (ascii "audio")
  rw [show ascii "m=" ++ ascii "audio" = ascii "m=audio" by decide] at haudio
  rw [sdpMediaAfter, if_pos h, haudio]
  split_ifs with h1 h2
  · exact iff_of_true rfl h1
  · exact iff_of_false not_false h1
  · exact iff_of_false not_false h1

theorem hasAudio_iff {sdp : List UInt8} {offer : SdpOffer} (h : sdpParseOffer sdp = some offer) :
    offer.hasAudio = true ↔ HasAudioMid sdp := by
  have hsection : ∀ s ∈ mediaSections sdp, (s.head?.map (sdpMediaAfter .none) = some .audio ↔
      startsWith (s.headD []) (ascii "m=audio") = true) := by
    intro s hs
    obtain ⟨line, body, rfl, hline⟩ := isStart_of_mem_sections hs
    rw [List.head?_cons, Option.map_some, Option.some.injEq]
    exact sdpMediaAfter_eq_audio_iff hline
  rw [hasAudio_eq h, List.any_eq_true, HasAudioMid]
  simp only [List.mem_flatten, sectionsOf, List.mem_filter, decide_eq_true_eq]
  constructor
  · rintro ⟨line, ⟨s, ⟨hs, hmedia⟩, hline⟩, hmid⟩
    exact ⟨s, hs, (hsection s hs).1 hmedia, line, hline, hmid⟩
  · rintro ⟨s, hs, hmedia, line, hline, hmid⟩
    exact ⟨line, ⟨s, ⟨hs, (hsection s hs).2 hmedia⟩, hline⟩, hmid⟩

/-- A section of type audio is one. -/
theorem hasAudioSection_of_mem {sdp : List UInt8} (h : ascii "audio" ∈ mediaTypes sdp) :
    HasAudioSection sdp := by
  obtain ⟨s, hs, htype⟩ := List.mem_map.1 h
  refine ⟨s, hs, ?_⟩
  obtain ⟨line, body, rfl, hline⟩ := isStart_of_mem_sections hs
  rw [List.headD_cons] at htype ⊢
  have haudio : startsWith (line.drop 2) (ascii "audio") = true := by
    rw [← htype]
    exact List.isPrefixOf_iff_prefix.2 (List.takeWhile_prefix _)
  have hdrop := startsWith_drop hline (ascii "audio")
  rw [show ascii "m=" ++ ascii "audio" = ascii "m=audio" by decide] at hdrop
  exact hdrop.symm.trans haudio

/-- Without a section of type audio there is no audio. -/
theorem not_hasAudioMid {sdp : List UInt8} (h : mediaTypes sdp = [ascii "video"]) :
    ¬ HasAudioMid sdp := by
  rintro ⟨s, hs, haudio, -⟩
  have hvideo : mediaType (s.headD []) = ascii "video" := by
    have hmem : mediaType (s.headD []) ∈ mediaTypes sdp := List.mem_map_of_mem hs
    rw [h] at hmem
    exact List.mem_singleton.1 hmem
  obtain ⟨rest, hrest⟩ := List.isPrefixOf_iff_prefix.1 haudio
  rw [← hrest, mediaType, show (ascii "m=audio" ++ rest).drop 2 = ascii "audio" ++ rest from
    List.drop_append_of_le_length (by decide),
    List.takeWhile_append_of_pos (List.all_eq_true.1 (by decide))] at hvideo
  have hhead := congrArg List.head? hvideo
  rw [List.head?_append_of_ne_nil _ (by decide)] at hhead
  exact absurd hhead (by decide)

/-! ### The answer -/

variable {offer : SdpOffer} {args : SdpAnswerArgs}

theorem isMediaLine_append {pre : List UInt8} (h : ¬ pre <+: ascii "m=" ∧ ¬ ascii "m=" <+: pre)
    (rest : List UInt8) : isMediaLine (pre ++ rest) = false :=
  startsWith_append_other h rest

theorem isMediaLine_extraCandidateLines (args : SdpAnswerArgs) (i : ℕ)
    (ips : List (Option (List UInt8))) :
    ∀ l ∈ extraCandidateLines args i ips, isMediaLine l = false := by
  intro l hl
  obtain ⟨j, ip, -, -, -, rfl⟩ := exists_of_mem_extraCandidateLines hl
  simp only [extraCandidateLine, List.append_assoc]
  exact isMediaLine_append (by decide) _

theorem isMediaLine_headerLines (offer : SdpOffer) (args : SdpAnswerArgs) :
    ∀ l ∈ headerLines offer args, isMediaLine l = false := by
  simp +decide (disch := decide) only [headerLines, List.forall_mem_cons, isMediaLine_append]

theorem audioLines_eq_cons (offer : SdpOffer) :
    ∃ m body, audioLines offer = m :: body ∧ isMediaLine m = true ∧
      sdpMediaAfter .none m = .audio ∧ ∀ l ∈ body, isMediaLine l = false := by
  refine ⟨(audioLines offer).head (List.cons_ne_nil _ _), (audioLines offer).tail, rfl, rfl, rfl, ?_⟩
  simp +decide (disch := decide) only [audioLines, List.tail_cons, List.forall_mem_cons,
    isMediaLine_append]

theorem videoSection_eq_cons (offer : SdpOffer) (args : SdpAnswerArgs) (n : ℕ) :
    ∃ m body, videoSection offer args n = m :: body ∧ isMediaLine m = true ∧
      sdpMediaAfter .none m = .video ∧ ∀ l ∈ body, isMediaLine l = false := by
  refine ⟨(videoLines offer args).head (List.cons_ne_nil _ _), (videoLines offer args).tail ++
    [candidateLine args] ++ extraCandidateLines args 0 (args.extraIps.take n) ++
      [ascii "a=end-of-candidates"], rfl, rfl, rfl, ?_⟩
  simp only [List.forall_mem_append]
  refine ⟨⟨⟨?_, ?_⟩, isMediaLine_extraCandidateLines args 0 _⟩, by decide⟩
  · simp +decide (disch := decide) only [videoLines, List.tail_cons, List.forall_mem_cons,
      isMediaLine_append, List.append_assoc]
  · simp +decide (disch := decide) only [candidateLine, List.forall_mem_cons, isMediaLine_append,
      List.append_assoc]

/-- The sections of an answer: only what looks like an `m=` line is one. -/
theorem sections_answerLines (offer : SdpOffer) (args : SdpAnswerArgs) (n : ℕ) :
    sections isMediaLine (answerLines offer args n) =
      (if offer.hasAudio then [audioLines offer] else []) ++ [videoSection offer args n] := by
  obtain ⟨m, body, hvideo, hm, -, hbody⟩ := videoSection_eq_cons offer args n
  have hvideoOnly : sections isMediaLine (videoSection offer args n) = [videoSection offer args n] := by
    rw [hvideo]
    exact sections_eq_singleton hm hbody
  rw [answerLines, List.append_assoc, sections_append_left (isMediaLine_headerLines offer args)]
  split_ifs
  · obtain ⟨m', body', haudio, hm', -, hbody'⟩ := audioLines_eq_cons offer
    rw [hvideo] at hvideoOnly ⊢
    rw [haudio, sections_cons_append hm' hbody' hm, hvideoOnly]
    rfl
  · exact hvideoOnly

/-- The lines of an answer with the sections they stand in. -/
theorem labelled_answerLines (offer : SdpOffer) (args : SdpAnswerArgs) (n : ℕ) :
    labelled isMediaLine (sdpMediaAfter .none) .none (answerLines offer args n) =
      (headerLines offer args).map (fun l ↦ (l, .none)) ++
        (if offer.hasAudio then audioLines offer else []).map (fun l ↦ (l, .audio)) ++
          (videoSection offer args n).map fun l ↦ (l, .video) := by
  obtain ⟨m, body, hvideo, hm, hlabel, hbody⟩ := videoSection_eq_cons offer args n
  have hvideoOnly (b : SdpMedia) : labelled isMediaLine (sdpMediaAfter .none) b
      (videoSection offer args n) = (videoSection offer args n).map fun l ↦ (l, .video) := by
    have h : labelled isMediaLine (sdpMediaAfter .none) b (m :: body ++ []) = _ :=
      labelled_section hm hbody b []
    rw [List.append_nil, hlabel, ← hvideo] at h
    exact h.trans (List.append_nil _)
  rw [answerLines, List.append_assoc, labelled_of_forall (isMediaLine_headerLines offer args),
    List.append_assoc]
  split_ifs
  · obtain ⟨m', body', haudio, hm', hlabel', hbody'⟩ := audioLines_eq_cons offer
    rw [haudio, labelled_section hm' hbody', hlabel', hvideoOnly]
  · rw [List.nil_append, hvideoOnly]
    rfl

/-- Type and port of each section of a description. -/
def mediaPorts (sdp : List UInt8) : List (List UInt8 × List UInt8) :=
  (mediaSections sdp).map fun s ↦ (mediaType (s.headD []), mediaPort (s.headD []))

variable {sdp text : List UInt8} {outCapacity : ℕ}

theorem mediaSections_answer (h : sdpParseOffer sdp = some offer) (ha : args.IsClean)
    (htext : sdpBuildAnswerMulti offer args outCapacity = .ok text) : ∃ n,
    mediaSections text =
      (if offer.hasAudio then [audioLines offer] else []) ++ [videoSection offer args n] := by
  obtain ⟨n, -, -, hlines⟩ := lines_answer h ha htext
  exact ⟨n, by rw [mediaSections, hlines, sections_answerLines]⟩

theorem mediaPorts_eq (h : sdpParseOffer sdp = some offer) (ha : args.IsClean)
    (htext : sdpBuildAnswerMulti offer args outCapacity = .ok text) :
    mediaPorts text =
      (if offer.hasAudio then [(ascii "audio", ascii "0")] else []) ++
        [(ascii "video", ascii "9")] := by
  obtain ⟨n, hsections⟩ := mediaSections_answer h ha htext
  rw [mediaPorts, hsections]
  rcases offer.hasAudio with - | - <;> rfl

theorem mediaTypes_eq (h : sdpParseOffer sdp = some offer) (ha : args.IsClean)
    (htext : sdpBuildAnswerMulti offer args outCapacity = .ok text) :
    mediaTypes text = (if offer.hasAudio then [ascii "audio"] else []) ++ [ascii "video"] := by
  obtain ⟨n, hsections⟩ := mediaSections_answer h ha htext
  rw [mediaTypes, hsections]
  rcases offer.hasAudio with - | - <;> rfl

/-- The layouts that are mirrored. -/
theorem mirrors_iff (h : sdpParseOffer sdp = some offer) (ha : args.IsClean)
    (htext : sdpBuildAnswerMulti offer args outCapacity = .ok text) :
    Mirrors sdp text ↔
      mediaTypes sdp = [ascii "video"] ∨
        mediaTypes sdp = [ascii "audio", ascii "video"] ∧ HasAudioMid sdp := by
  have htypes := mediaTypes_eq h ha htext
  obtain ⟨n, hsections⟩ := mediaSections_answer h ha htext
  have hrejected : ∃ before selected after, mediaSections text = before ++ selected :: after ∧
      mediaType (selected.headD []) = ascii "video" ∧
      ∀ s ∈ before ++ after, mediaPort (s.headD []) = ascii "0" := by
    refine ⟨_, _, [], hsections, rfl, fun s hs ↦ ?_⟩
    rw [List.append_nil] at hs
    split_ifs at hs
    · rw [List.mem_singleton.1 hs]
      rfl
    · exact absurd hs List.not_mem_nil
  rw [Mirrors, and_iff_left hrejected, htypes, ← hasAudio_iff h]
  rcases haudio : offer.hasAudio with - | -
  · refine ⟨fun heq ↦ Or.inl heq.symm, ?_⟩
    rintro (heq | ⟨-, hfalse⟩)
    · exact heq.symm
    · exact absurd hfalse Bool.false_ne_true
  · refine ⟨fun heq ↦ Or.inr ⟨heq.symm, rfl⟩, ?_⟩
    rintro (heq | ⟨heq, -⟩)
    · exact absurd ((hasAudio_iff h).1 haudio) (not_hasAudioMid heq)
    · exact heq.symm

/-- **The media sections of an answer** to an offer without audio, or with an `a=mid:` line for its audio, are
one for video, and before it one for audio with port 0 if the offer has an audio section. So such an offer
is mirrored if it has one section for video, or one for audio and then one for video, and not otherwise. -/
theorem sdpBuildAnswerMulti_mediaSections (h : sdpParseOffer sdp = some offer) (ha : args.IsClean)
    (hmid : HasAudioSection sdp → HasAudioMid sdp)
    (htext : sdpBuildAnswerMulti offer args outCapacity = .ok text) :
    (HasAudioSection sdp →
      mediaPorts text = [(ascii "audio", ascii "0"), (ascii "video", ascii "9")]) ∧
    (¬ HasAudioSection sdp → mediaPorts text = [(ascii "video", ascii "9")]) ∧
    (Mirrors sdp text ↔
      mediaTypes sdp = [ascii "video"] ∨ mediaTypes sdp = [ascii "audio", ascii "video"]) := by
  have hports := mediaPorts_eq h ha htext
  refine ⟨fun haudio ↦ ?_, fun haudio ↦ ?_, ?_⟩
  · rw [hports, (hasAudio_iff h).2 (hmid haudio)]
    rfl
  · have hnone : ¬ HasAudioMid sdp := fun ⟨s, hs, hstart, _⟩ ↦ haudio ⟨s, hs, hstart⟩
    rw [hports, Bool.eq_false_iff.2 (mt (hasAudio_iff h).1 hnone)]
    rfl
  · rw [mirrors_iff h ha htext]
    refine or_congr_right (and_iff_left_of_imp fun htypes ↦ hmid (hasAudioSection_of_mem ?_))
    rw [htypes]
    exact List.mem_cons_self

/-- The sample offer is mirrored. -/
theorem sdpBuildAnswerMulti_mediaSections_sample : ∃ text,
    sdpBuildAnswerMulti sampleParsedOffer sampleAnswerArgs 8192 = .ok text ∧
      Mirrors sampleOfferText text := by
  obtain ⟨text, htext⟩ := exists_sampleAnswer
  have hmid : HasAudioMid sampleOfferText := (hasAudio_iff sdpParseOffer_sampleOfferText).1 rfl
  obtain ⟨-, -, hmirrors⟩ := sdpBuildAnswerMulti_mediaSections sdpParseOffer_sampleOfferText
    isClean_sampleAnswerArgs (fun _ ↦ hmid) htext
  have htypes : mediaTypes sampleOfferText = [ascii "audio", ascii "video"] := by decide +kernel
  exact ⟨text, htext, hmirrors.2 (Or.inr htypes)⟩

/-- An offer with a data channel behind the video. -/
def dataChannelOfferText : List UInt8 :=
  crlf [ascii "v=0", ascii "a=ice-ufrag:u", ascii "a=ice-pwd:p", ascii "a=fingerprint:sha-256 01",
    ascii "m=video 9 X 96", ascii "a=mid:0", ascii "a=rtpmap:96 H264/90000",
    ascii "m=application 9 Y z", ascii "a=mid:1"]

/-- The answer to it has no section for the data channel. -/
theorem not_sdpBuildAnswerMulti_mirrors :
    ¬ ∀ (sdp : List UInt8) (offer : SdpOffer) (args : SdpAnswerArgs) (outCapacity : ℕ)
      (text : List UInt8), sdpParseOffer sdp = some offer → args.IsClean →
      sdpBuildAnswerMulti offer args outCapacity = .ok text → Mirrors sdp text := by
  intro hall
  have hparse : sdpParseOffer dataChannelOfferText =
      some { sampleParsedOffer with videoMid := ascii "0", audioMid := [], hasAudio := false } := by
    decide +kernel
  have hfits := (fits_of_sdpParseOffer hparse).printable (h264PayloadType_bounds hparse)
  have htext := (sdpBuildAnswerMulti_of_fits hfits fits_sampleAnswerArgs 8192).trans
    (if_pos (sdpAnswerText_of_fits hfits fits_sampleAnswerArgs).2)
  have hmirrors := (mirrors_iff hparse isClean_sampleAnswerArgs htext).1
    (hall _ _ _ _ _ hparse isClean_sampleAnswerArgs htext)
  have htypes : mediaTypes dataChannelOfferText = [ascii "video", ascii "application"] := by
    decide +kernel
  rw [htypes] at hmirrors
  rcases hmirrors with h | ⟨h, -⟩
  · exact absurd h (by decide)
  · exact absurd h (by decide)

end Camstream
