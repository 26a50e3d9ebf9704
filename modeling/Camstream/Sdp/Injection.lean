import Camstream.Sdp.Answer
import Camstream.Sdp.Parse

/-!
# What of an offer reaches the answer

The answer is a text in lines, and an offer that is echoed into it could try to end a line. It cannot:
the fields of a parsed offer hold no byte that would (`fits_of_sdpParseOffer`), and so the lines of an
answer are the lines the builder wrote (`lines_answer`).

The lines are compared with a template (`answerTemplate`) in which the values of the offer are holes. The
template is made of the server's arguments, of the one bit that says whether there is audio, and of the
number of extra addresses it lists. That number is where an offer can make a difference, by the length of
its mids, when there are more addresses than the buffer has room for.
-/

namespace Camstream

open CString Lines

/-- Every string of the server has the property `P`. -/
structure SdpAnswerArgs.All (P : List UInt8 → Prop) (args : SdpAnswerArgs) : Prop where
  localFingerprint : P args.localFingerprint
  localUfrag : P args.localUfrag
  localPwd : P args.localPwd
  advertiseIp : P args.advertiseIp
  extraIps : ∀ ip, some ip ∈ args.extraIps → P ip

theorem SdpAnswerArgs.All.imp {P Q : List UInt8 → Prop} {args : SdpAnswerArgs} (h : args.All P)
    (himp : ∀ l, P l → Q l) : args.All Q :=
  ⟨himp _ h.localFingerprint, himp _ h.localUfrag, himp _ h.localPwd, himp _ h.advertiseIp,
    fun ip hip ↦ himp ip (h.extraIps ip hip)⟩

/-- The strings of the server stay within one line. -/
abbrev SdpAnswerArgs.IsClean (args : SdpAnswerArgs) : Prop :=
  args.All IsLine

/-- Printable ASCII. -/
def IsPrintable (l : List UInt8) : Prop :=
  ∀ c ∈ l, 32 ≤ c ∧ c < 127

instance (l : List UInt8) : Decidable (IsPrintable l) :=
  List.decidableBAll (fun c ↦ 32 ≤ c ∧ c < 127) l

theorem IsPrintable.notMem {l : List UInt8} (h : IsPrintable l) {c : UInt8} (hc : ¬ 32 ≤ c) : c ∉ l :=
  fun hmem ↦ hc (h c hmem).1

theorem IsPrintable.isLine (l : List UInt8) (h : IsPrintable l) : IsLine l :=
  ⟨h.notMem (by decide), h.notMem (by decide)⟩

theorem IsPrintable.isValue (l : List UInt8) (h : IsPrintable l) : IsValue l :=
  ⟨h.notMem (by decide), isLine l h⟩

theorem isPrintable_decimal (n : ℕ) : IsPrintable (decimal n) := by
  intro c hc
  have hdigit := isdigit_of_mem_decimal hc
  rw [isdigit, Bool.and_eq_true, decide_eq_true_eq, decide_eq_true_eq] at hdigit
  grind

theorem isPrintable_formatInt (z : ℤ) : IsPrintable (formatInt z) := by
  rw [formatInt]
  split_ifs
  · exact List.forall_mem_cons.2 ⟨by decide, isPrintable_decimal _⟩
  · exact isPrintable_decimal _

/-! ### The template -/

/-- A piece of a line: text, or a value of the offer. -/
inductive AnswerPiece
  | text (bytes : List UInt8)
  | videoMid
  | audioMid
  | payloadType
  deriving DecidableEq, Repr

/-- The values of an offer that an answer mentions. -/
structure OfferValues where
  videoMid : List UInt8
  audioMid : List UInt8
  payloadType : ℤ
  deriving DecidableEq, Repr

/-- The values of an offer. -/
def SdpOffer.values (offer : SdpOffer) : OfferValues :=
  ⟨Camstream.videoMid offer, Camstream.audioMid offer, offer.h264PayloadType⟩

/-- The text of a piece. -/
def AnswerPiece.fill (v : OfferValues) : AnswerPiece → List UInt8
  | text bytes => bytes
  | videoMid => v.videoMid
  | audioMid => v.audioMid
  | payloadType => formatInt v.payloadType

/-- A line of a template, filled in. -/
def fillLine (v : OfferValues) (line : List AnswerPiece) : List UInt8 :=
  line.flatMap (AnswerPiece.fill v)

/-- The session level. -/
def headerTemplate (args : SdpAnswerArgs) : List (List AnswerPiece) :=
  [[.text (ascii "v=0")],
    [.text (ascii "o=- 1 1 IN IP4 "), .text args.advertiseIp],
    [.text (ascii "s=camstream")],
    [.text (ascii "t=0 0")],
    [.text (ascii "a=ice-lite")],
    [.text (ascii "a=ice-options:trickle")],
    [.text (ascii "a=group:BUNDLE "), .videoMid],
    [.text (ascii "a=msid-semantic: WMS camstream")],
    [.text (ascii "a=fingerprint:"), .text args.localFingerprint],
    [.text (ascii "a=setup:passive")],
    [.text (ascii "a=ice-ufrag:"), .text args.localUfrag],
    [.text (ascii "a=ice-pwd:"), .text args.localPwd]]

/-- The audio section. -/
def audioTemplate : List (List AnswerPiece) :=
  [[.text (ascii "m=audio 0 UDP/TLS/RTP/SAVPF 0")],
    [.text (ascii "c=IN IP4 0.0.0.0")],
    [.text (ascii "a=inactive")],
    [.text (ascii "a=mid:"), .audioMid]]

/-- The video section, up to the candidates. -/
def videoTemplate (args : SdpAnswerArgs) : List (List AnswerPiece) :=
  let ssrc := AnswerPiece.text (decimal args.ssrc.toNat)
  [[.text (ascii "m=video 9 UDP/TLS/RTP/SAVPF "), .payloadType],
    [.text (ascii "c=IN IP4 "), .text args.advertiseIp],
    [.text (ascii "a=mid:"), .videoMid],
    [.text (ascii "a=ice-ufrag:"), .text args.localUfrag],
    [.text (ascii "a=ice-pwd:"), .text args.localPwd],
    [.text (ascii "a=ice-options:trickle")],
    [.text (ascii "a=fingerprint:"), .text args.localFingerprint],
    [.text (ascii "a=setup:passive")],
    [.text (ascii "a=sendonly")],
    [.text (ascii "a=rtcp-mux")],
    [.text (ascii "a=msid:camstream camstream-video")],
    [.text (ascii "a=ssrc:"), ssrc, .text (ascii " cname:camstream")],
    [.text (ascii "a=ssrc:"), ssrc, .text (ascii " msid:camstream camstream-video")],
    [.text (ascii "a=rtpmap:"), .payloadType, .text (ascii " H264/90000")],
    [.text (ascii "a=fmtp:"), .payloadType,
      .text (ascii " packetization-mode=1;profile-level-id=42e01f;level-asymmetry-allowed=1")],
    [.text (ascii "a=rtcp-fb:"), .payloadType, .text (ascii " nack")],
    [.text (ascii "a=rtcp-fb:"), .payloadType, .text (ascii " nack pli")],
    [.text (ascii "a=rtcp-fb:"), .payloadType, .text (ascii " ccm fir")]]

/-- The template of an answer that lists the first `n` extra addresses. -/
def answerTemplate (args : SdpAnswerArgs) (hasAudio : Bool) (n : ℕ) : List (List AnswerPiece) :=
  headerTemplate args ++ (if hasAudio then audioTemplate else []) ++ videoTemplate args ++
    (candidateLine args :: extraCandidateLines args 0 (args.extraIps.take n) ++
      [ascii "a=end-of-candidates"]).map fun line ↦ [.text line]

/-- The lines of an answer are those of the template, filled in. -/
theorem answerLines_eq_map (offer : SdpOffer) (args : SdpAnswerArgs) (n : ℕ) :
    answerLines offer args n =
      (answerTemplate args offer.hasAudio n).map (fillLine offer.values) := by
  have hheader : (headerTemplate args).map (fillLine offer.values) = headerLines offer args := by
    simp [headerTemplate, headerLines, fillLine, AnswerPiece.fill, SdpOffer.values]
  have haudio : (if offer.hasAudio then audioTemplate else []).map (fillLine offer.values) =
      if offer.hasAudio then audioLines offer else [] := by
    split_ifs
    · simp [audioTemplate, audioLines, fillLine, AnswerPiece.fill, SdpOffer.values]
    · rfl
  have hvideo : (videoTemplate args).map (fillLine offer.values) = videoLines offer args := by
    simp [videoTemplate, videoLines, fillLine, AnswerPiece.fill, SdpOffer.values]
  have htext : ∀ ls : List (List UInt8),
      (ls.map fun line ↦ [AnswerPiece.text line]).map (fillLine offer.values) = ls := fun ls ↦ by
    rw [List.map_map]
    exact List.map_id'' (fun l ↦ List.append_nil l) ls
  rw [answerTemplate, List.map_append, List.map_append, List.map_append, hheader, haudio, hvideo, htext,
    answerLines, videoSection]
  simp only [List.append_assoc, List.cons_append, List.nil_append]

/-! ### The lines of an answer -/

variable {offer : SdpOffer} {args : SdpAnswerArgs}

section Printed

variable {P : List UInt8 → Prop} (happend : ∀ l l', P l → P l' → P (l ++ l'))
  (hprintable : ∀ l, IsPrintable l → P l)

include happend hprintable

theorem forall_extraCandidateLines (args : SdpAnswerArgs) {i : ℕ} {ips : List (Option (List UInt8))}
    (hips : ∀ ip, some ip ∈ ips → P ip) : ∀ l ∈ extraCandidateLines args i ips, P l := by
  intro l hl
  obtain ⟨j, ip, -, -, hmem, rfl⟩ := exists_of_mem_extraCandidateLines hl
  have hdecimal (n : ℕ) : P (decimal n) := hprintable _ (isPrintable_decimal n)
  have hfoundation := happend _ _ (hprintable (ascii "a=candidate:") (by decide)) (hdecimal (j + 2))
  have hpriority := happend _ _ (happend _ _ hfoundation (hprintable (ascii " 1 udp ") (by decide)))
    (hdecimal (extraPriority j).toNat)
  have haddress := happend _ _ (happend _ _ hpriority (hprintable (ascii " ") (by decide))) (hips ip hmem)
  have hport := happend _ _ (happend _ _ haddress (hprintable (ascii " ") (by decide)))
    (hdecimal args.udpPort.toNat)
  exact happend _ _ hport (hprintable (ascii " typ host generation 0") (by decide))

theorem fillLine_of_forall {v : OfferValues} {line : List AnswerPiece}
    (h : ∀ piece ∈ line, P (piece.fill v)) : P (fillLine v line) := by
  rw [fillLine]
  induction line with
  | nil => exact hprintable [] (by decide)
  | cons piece line ih =>
    rw [List.forall_mem_cons] at h
    rw [List.flatMap_cons]
    exact happend _ _ h.1 (ih h.2)

/-- A property of printable strings that is kept by appending holds of every line, if it holds of what is
filled in. -/
theorem forall_answerLines (hvideo : P (videoMid offer))
    (haudio : offer.hasAudio = true → P (audioMid offer)) (ha : args.All P) (n : ℕ) :
    ∀ l ∈ answerLines offer args n, P l := by
  have hextra := forall_extraCandidateLines happend hprintable args (i := 0)
    fun ip hip ↦ ha.extraIps ip (List.mem_of_mem_take (i := n) hip)
  have hdecimal (n : ℕ) : P (decimal n) := hprintable _ (isPrintable_decimal n)
  have hint (z : ℤ) : P (formatInt z) := hprintable _ (isPrintable_formatInt z)
  obtain ⟨hfp, hufrag, hpwd, hip, -⟩ := ha
  have hheader : ∀ line ∈ headerTemplate args, ∀ piece ∈ line, P (piece.fill offer.values) := by
    simp (disch := decide) only [headerTemplate, List.forall_mem_cons, List.not_mem_nil, false_imp_iff,
      implies_true, AnswerPiece.fill, SdpOffer.values, hprintable, hvideo, hfp, hufrag, hpwd, hip, and_self]
  have haudioLines : ∀ line ∈ if offer.hasAudio then audioTemplate else [], ∀ piece ∈ line,
      P (piece.fill offer.values) := by
    split_ifs with h
    · simp (disch := decide) only [audioTemplate, List.forall_mem_cons, List.not_mem_nil, false_imp_iff,
        implies_true, AnswerPiece.fill, SdpOffer.values, hprintable, haudio h, and_self]
    · exact List.forall_mem_nil _
  have hvideoLines : ∀ line ∈ videoTemplate args, ∀ piece ∈ line, P (piece.fill offer.values) := by
    simp (disch := decide) only [videoTemplate, List.forall_mem_cons, List.not_mem_nil, false_imp_iff,
      implies_true, AnswerPiece.fill, SdpOffer.values, hprintable, hdecimal, hint, hvideo, hfp, hufrag, hpwd,
      hip, and_self]
  have hcandidate : P (candidateLine args) := by
    have haddress := happend _ _ (hprintable (ascii "a=candidate:1 1 udp 2130706431 ") (by decide)) hip
    have hport := happend _ _ (happend _ _ haddress (hprintable (ascii " ") (by decide)))
      (hdecimal args.udpPort.toNat)
    exact happend _ _ hport (hprintable (ascii " typ host generation 0") (by decide))
  -- Every line is one of the template, and its pieces are printed or filled in.
  intro l hl
  rw [answerLines_eq_map] at hl
  obtain ⟨line, hline, rfl⟩ := List.mem_map.1 hl
  refine fillLine_of_forall happend hprintable fun piece hpiece ↦ ?_
  rw [answerTemplate] at hline
  rcases List.mem_append.1 hline with hline | hline
  · rcases List.mem_append.1 hline with hline | hline
    · exact (List.forall_mem_append.2 ⟨hheader, haudioLines⟩) line hline piece hpiece
    · exact hvideoLines line hline piece hpiece
  · obtain ⟨text, htext, rfl⟩ := List.mem_map.1 hline
    obtain rfl := List.mem_singleton.1 hpiece
    rcases List.mem_append.1 htext with htext | htext
    · rcases List.mem_cons.1 htext with rfl | htext
      · exact hcandidate
      · exact hextra text htext
    · obtain rfl := List.mem_singleton.1 htext
      exact hprintable (ascii "a=end-of-candidates") (by decide)

end Printed

theorem isValue_videoMid (h : offer.Fits) : IsValue (videoMid offer) := by
  rw [videoMid]
  split_ifs
  · exact h.videoMid.isValue
  · exact ⟨by decide, by decide⟩

theorem isValue_audioMid (h : offer.Fits) : IsValue (audioMid offer) := by
  rw [audioMid]
  split_ifs
  · exact h.audioMid.isValue
  · exact ⟨by decide, by decide⟩

theorem isValue_append {l l' : List UInt8} : IsValue (l ++ l') ↔ IsValue l ∧ IsValue l' := by
  rw [IsValue, List.mem_append, not_or, isLine_append]
  exact and_and_and_comm

/-- Nothing that is printed ends a line. -/
theorem isLine_answerLines (ho : offer.Fits) (ha : args.IsClean) (n : ℕ) :
    ∀ l ∈ answerLines offer args n, IsLine l :=
  forall_answerLines (fun _ _ hl hl' ↦ isLine_append.2 ⟨hl, hl'⟩) IsPrintable.isLine (isValue_videoMid ho).2
    (fun _ ↦ (isValue_audioMid ho).2) ha n

theorem SdpOffer.Fits.printable (h : offer.Fits)
    (hpt : 0 ≤ offer.h264PayloadType ∧ offer.h264PayloadType < 2 ^ 31) : offer.Printable :=
  ⟨h.videoMid.length_lt, h.audioMid.length_lt, hpt⟩

/-- **The lines of an answer** are those the builder wrote; arguments that fit are all written. -/
theorem lines_answer {sdp : List UInt8} (h : sdpParseOffer sdp = some offer) (ha : args.IsClean)
    {outCapacity : ℕ} {text : List UInt8}
    (htext : sdpBuildAnswerMulti offer args outCapacity = .ok text) :
    ∃ n ≤ args.extraIps.length, (args.Fits → n = args.extraIps.length) ∧
      lines text = answerLines offer args n := by
  have ho := fits_of_sdpParseOffer h
  by_cases hfits : args.Fits
  · rw [sdpBuildAnswerMulti_of_fits (ho.printable (h264PayloadType_bounds h)) hfits] at htext
    split_ifs at htext
    refine ⟨args.extraIps.length, Nat.le_refl _, fun _ ↦ rfl, ?_⟩
    rw [← Except.ok.inj htext, lines_crlf (isLine_answerLines ho ha _)]
  · obtain ⟨n, hn, rfl⟩ := sdpBuildAnswerMulti_eq_ok htext
    exact ⟨n, hn, fun h ↦ absurd h hfits, lines_crlf (isLine_answerLines ho ha n)⟩

/-! ### Where the values of the offer are -/

/-- The lines that mention a value of the offer. -/
def echoLines : List (List UInt8) :=
  [ascii "a=group:", ascii "a=mid:", ascii "m=video ", ascii "a=rtpmap:", ascii "a=fmtp:",
    ascii "a=rtcp-fb:"]

/-- A line without values of the offer, or one of those that mention them. -/
def IsEchoOrFixed (line : List AnswerPiece) : Prop :=
  (∀ piece ∈ line, ∃ bytes, piece = .text bytes) ∨
    ∃ pre ∈ echoLines, ∃ bytes rest, line = .text bytes :: rest ∧ startsWith bytes pre = true

theorem isEchoOrFixed_text (ls : List (List UInt8)) : IsEchoOrFixed (ls.map .text) :=
  Or.inl fun piece hpiece ↦ by
    obtain ⟨bytes, -, hbytes⟩ := List.mem_map.1 hpiece
    exact ⟨bytes, hbytes.symm⟩

theorem isEchoOrFixed_echo {bytes : List UInt8}
    (h : ∃ pre ∈ echoLines, startsWith bytes pre = true) (rest : List AnswerPiece) :
    IsEchoOrFixed (.text bytes :: rest) := by
  obtain ⟨pre, hpre, hbytes⟩ := h
  exact Or.inr ⟨pre, hpre, bytes, rest, rfl, hbytes⟩

/-- Every hole of the template is in one of those lines. -/
theorem isEchoOrFixed_of_mem (args : SdpAnswerArgs) (hasAudio : Bool) (n : ℕ) :
    ∀ line ∈ answerTemplate args hasAudio n, IsEchoOrFixed line := by
  -- Lines of the program's own text, and lines that echo one value behind a fixed beginning.
  have hone (b : List UInt8) : IsEchoOrFixed [.text b] := isEchoOrFixed_text [b]
  have htwo (b c : List UInt8) : IsEchoOrFixed [.text b, .text c] := isEchoOrFixed_text [b, c]
  have hthree (b c d : List UInt8) : IsEchoOrFixed [.text b, .text c, .text d] :=
    isEchoOrFixed_text [b, c, d]
  have hmid (rest : List AnswerPiece) : IsEchoOrFixed (.text (ascii "a=mid:") :: rest) :=
    isEchoOrFixed_echo (by decide) rest
  have hheader : ∀ line ∈ headerTemplate args, IsEchoOrFixed line := by
    have hgroup (rest : List AnswerPiece) : IsEchoOrFixed (.text (ascii "a=group:BUNDLE ") :: rest) :=
      isEchoOrFixed_echo (by decide) rest
    simp only [headerTemplate, List.forall_mem_cons, List.not_mem_nil, false_imp_iff, implies_true,
      hone, htwo, hgroup, and_self]
  have haudio : ∀ line ∈ if hasAudio then audioTemplate else [], IsEchoOrFixed line := by
    split_ifs
    · simp only [audioTemplate, List.forall_mem_cons, List.not_mem_nil, false_imp_iff, implies_true,
        hone, hmid, and_self]
    · exact fun line hline ↦ absurd hline List.not_mem_nil
  have hvideo : ∀ line ∈ videoTemplate args, IsEchoOrFixed line := by
    have hm (rest : List AnswerPiece) :
        IsEchoOrFixed (.text (ascii "m=video 9 UDP/TLS/RTP/SAVPF ") :: rest) :=
      isEchoOrFixed_echo (by decide) rest
    have hrtpmap (rest : List AnswerPiece) : IsEchoOrFixed (.text (ascii "a=rtpmap:") :: rest) :=
      isEchoOrFixed_echo (by decide) rest
    have hfmtp (rest : List AnswerPiece) : IsEchoOrFixed (.text (ascii "a=fmtp:") :: rest) :=
      isEchoOrFixed_echo (by decide) rest
    have hfb (rest : List AnswerPiece) : IsEchoOrFixed (.text (ascii "a=rtcp-fb:") :: rest) :=
      isEchoOrFixed_echo (by decide) rest
    simp only [videoTemplate, List.forall_mem_cons, List.not_mem_nil, false_imp_iff, implies_true,
      hone, htwo, hthree, hmid, hm, hrtpmap, hfmtp, hfb, and_self]
  rw [answerTemplate]
  simp only [List.forall_mem_append]
  refine ⟨⟨⟨hheader, haudio⟩, hvideo⟩, fun line hline ↦ ?_⟩
  obtain ⟨bytes, -, rfl⟩ := List.mem_map.1 hline
  exact hone bytes

/-- **An offer cannot inject lines.** Whatever text was accepted, its fields fit their buffers and hold
nothing that ends a line. An answer made of it has the lines of a template that depends on the server, on
`hasAudio` and on how many extra addresses fit, with the two mids and the payload type filled in, each
inside one of six kinds of lines. Arguments that fit are listed with all their addresses. -/
theorem sdpParseOffer_no_injection {sdp : List UInt8} (h : sdpParseOffer sdp = some offer) :
    offer.Fits ∧
      ∀ args : SdpAnswerArgs, args.IsClean → ∀ (outCapacity : ℕ) (text : List UInt8),
        sdpBuildAnswerMulti offer args outCapacity = .ok text →
        ∃ n ≤ args.extraIps.length, (args.Fits → n = args.extraIps.length) ∧
          lines text = (answerTemplate args offer.hasAudio n).map (fillLine offer.values) ∧
          ∀ line ∈ answerTemplate args offer.hasAudio n, IsEchoOrFixed line := by
  refine ⟨fits_of_sdpParseOffer h, fun args ha outCapacity text htext ↦ ?_⟩
  obtain ⟨n, hn, hall, hlines⟩ := lines_answer h ha htext
  exact ⟨n, hn, hall, hlines.trans (answerLines_eq_map offer args n),
    isEchoOrFixed_of_mem args offer.hasAudio n⟩

theorem isPrintable_sampleAnswerArgs : sampleAnswerArgs.All IsPrintable where
  localFingerprint := by decide
  localUfrag := by decide
  localPwd := by decide
  advertiseIp := by decide
  extraIps := fun ip hip ↦ by
    obtain rfl := Option.some.inj (List.mem_singleton.1 hip)
    decide

theorem isClean_sampleAnswerArgs : sampleAnswerArgs.IsClean :=
  isPrintable_sampleAnswerArgs.imp IsPrintable.isLine

/-- An offer with audio and video. -/
def sampleOfferText : List UInt8 :=
  crlf [ascii "v=0", ascii "a=ice-ufrag:u", ascii "a=ice-pwd:p", ascii "a=fingerprint:sha-256 01",
    ascii "m=audio 9 X 0", ascii "a=mid:0", ascii "m=video 9 X 96", ascii "a=mid:1",
    ascii "a=rtpmap:96 H264/90000", ascii "a=fmtp:96 packetization-mode=1"]

/-- What is parsed of it. -/
def sampleParsedOffer : SdpOffer where
  iceUfrag := ascii "u"
  icePwd := ascii "p"
  fingerprint := ascii "sha-256 01"
  setup := ascii "actpass"
  videoMid := ascii "1"
  audioMid := ascii "0"
  hasAudio := true
  h264PayloadType := 96
  h264PacketizationMode := 1

theorem sdpParseOffer_sampleOfferText : sdpParseOffer sampleOfferText = some sampleParsedOffer := by
  decide +kernel

/-- There is an answer to it. -/
theorem exists_sampleAnswer :
    ∃ text, sdpBuildAnswerMulti sampleParsedOffer sampleAnswerArgs 8192 = .ok text := by
  have hfits := (fits_of_sdpParseOffer sdpParseOffer_sampleOfferText).printable
    (h264PayloadType_bounds sdpParseOffer_sampleOfferText)
  refine ⟨_, (sdpBuildAnswerMulti_of_fits hfits fits_sampleAnswerArgs 8192).trans (if_pos ?_)⟩
  exact (sdpAnswerText_of_fits hfits fits_sampleAnswerArgs).2

/-- The sample offer and its answer. -/
theorem sdpParseOffer_no_injection_sample :
    sampleParsedOffer.Fits ∧
      ∃ text, sdpBuildAnswerMulti sampleParsedOffer sampleAnswerArgs 8192 = .ok text ∧
        lines text = (answerTemplate sampleAnswerArgs true 1).map
          (fillLine ⟨ascii "1", ascii "0", 96⟩) := by
  obtain ⟨hfits, h⟩ := sdpParseOffer_no_injection sdpParseOffer_sampleOfferText
  obtain ⟨text, htext⟩ := exists_sampleAnswer
  obtain ⟨n, -, hall, hlines, -⟩ := h sampleAnswerArgs isClean_sampleAnswerArgs 8192 text htext
  obtain rfl := hall fits_sampleAnswerArgs
  exact ⟨hfits, text, htext, hlines⟩

/-- Two extra addresses, the first of them so long that it nearly fills the buffer. -/
def crowdedAnswerArgs : SdpAnswerArgs :=
  { sampleAnswerArgs with extraIps := [some (List.replicate 7060 120), some (ascii "192.0.2.2")] }

theorem isClean_crowdedAnswerArgs : crowdedAnswerArgs.IsClean :=
  { isClean_sampleAnswerArgs with
    extraIps := fun ip hip ↦ by
      rcases List.mem_cons.1 hip with heq | hip
      · obtain rfl := Option.some.inj heq
        have hmem : ∀ c, c ∈ List.replicate 7060 120 → c = (120 : UInt8) := fun c hc ↦
          (List.mem_replicate.1 hc).2
        exact ⟨fun h ↦ absurd (hmem _ h) (by decide), fun h ↦ absurd (hmem _ h) (by decide)⟩
      · obtain rfl := Option.some.inj (List.mem_singleton.1 hip)
        exact IsPrintable.isLine _ (by decide) }

/-- An offer without audio, and with the mid `mid`. -/
def offerTextOfMid (mid : List UInt8) : List UInt8 :=
  crlf [ascii "v=0", ascii "a=ice-ufrag:u", ascii "a=ice-pwd:p", ascii "a=fingerprint:sha-256 01",
    ascii "m=video 9 X 96", ascii "a=mid:" ++ mid, ascii "a=rtpmap:96 H264/90000"]

/-- What is parsed of it. -/
def offerOfMid (mid : List UInt8) : SdpOffer :=
  { sampleParsedOffer with videoMid := mid, audioMid := [], hasAudio := false }

/-- **An answer that is nearly full after its first extra address** does not list the second one. -/
theorem sdpBuildAnswerMulti_crowded (offer : SdpOffer)
    (hbefore : (textBefore offer crowdedAnswerArgs).length ≤ 900) :
    sdpBuildAnswerMulti offer crowdedAnswerArgs 8192 = .ok (crlf (answerLines offer crowdedAnswerArgs
      (if 815 < (textBefore offer crowdedAnswerArgs).length then 1 else 2))) := by
  set args := crowdedAnswerArgs with hargs
  set first : List UInt8 := List.replicate 7060 120 with hfirst
  have hips : args.extraIps = [some first, some (ascii "192.0.2.2")] := rfl
  have hlong : (crlf [extraCandidateLine args 0 first]).length = 7121 := by
    simp only [crlf, extraCandidateLine, List.flatMap_cons, List.flatMap_nil, List.length_append, hfirst,
      List.length_replicate]
    decide +kernel
  have hshort : (crlf [extraCandidateLine args 1 (ascii "192.0.2.2")]).length = 70 := by decide +kernel
  have hnew : ¬ (first = [] ∨ first = args.advertiseIp) := by
    refine not_or.2 ⟨fun h ↦ ?_, fun h ↦ ?_⟩
    · exact absurd (congrArg List.length h) (by rw [hfirst, List.length_replicate]; decide)
    · exact absurd (congrArg List.length h) (by rw [hfirst, List.length_replicate]; decide)
  have hnew' : ¬ (ascii "192.0.2.2" = [] ∨ ascii "192.0.2.2" = args.advertiseIp) := by decide
  have hend : (crlf [ascii "a=end-of-candidates"]).length = 21 := by decide
  have hlen : (textBefore offer args ++ crlf [extraCandidateLine args 0 first]).length =
      (textBefore offer args).length + 7121 := by
    rw [List.length_append, hlong]
  -- The first address is printed; only when there is room left for another the second one is, too.
  have hloop := sdpCandidates_cons 0 [some (ascii "192.0.2.2")] hnew
    (show (textBefore offer args).length ≤ 8192 by omega) (by omega)
  rw [hlen, sdpBufferSize, ← hips] at hloop
  -- What the loop has printed is the rest of the answer, and it fits.
  have hbuild : ∀ n, (crlf (extraCandidateLines args 0 (args.extraIps.take n))).length ≤ 7191 →
      sdpCandidates args 0 args.extraIps (textBefore offer args) =
        .ok (textBefore offer args ++ crlf (extraCandidateLines args 0 (args.extraIps.take n))) →
      sdpBuildAnswerMulti offer args 8192 = .ok (crlf (answerLines offer args n)) := by
    intro n hn hloop
    have htext := sdpAnswerText_of_loop (by omega) hloop (by rw [List.length_append]; omega)
    rw [← crlf_answerLines] at htext
    have hfits : (crlf (answerLines offer args n)).length < 8192 := by
      rw [crlf_answerLines, List.length_append, List.length_append, hend]
      omega
    rw [sdpBuildAnswerMulti, htext]
    show (if _ then _ else if _ then _ else _) = _
    rw [if_neg (by omega), sdpBufferSize, if_neg (by omega)]
  split_ifs with hfull
  · have hone : extraCandidateLines args 0 (args.extraIps.take 1) = [extraCandidateLine args 0 first] :=
      if_neg hnew
    rw [if_pos (by omega)] at hloop
    exact hbuild 1 (by rw [hone]; omega) (by rw [hone]; exact hloop)
  · have htwo : extraCandidateLines args 0 (args.extraIps.take 2) =
        [extraCandidateLine args 0 first] ++ [extraCandidateLine args 1 (ascii "192.0.2.2")] :=
      (if_neg hnew).trans (congrArg _ (if_neg hnew'))
    have hlast := sdpCandidates_cons 1 [] hnew'
      (show (textBefore offer args ++ crlf [extraCandidateLine args 0 first]).length ≤ 8192 by omega) (by omega)
    rw [sdpCandidates, ite_self, List.append_assoc, ← crlf_append] at hlast
    rw [if_neg (by omega), hlast] at hloop
    refine hbuild 2 ?_ (by rw [htwo]; exact hloop)
    rw [htwo, crlf_append, List.length_append]
    omega

/-- Two offers without audio, of which one has a longer mid: the answer to the other one has a line more. -/
theorem not_sdpParseOffer_no_injection : ∃ sdp sdp' offer offer' text text',
    sdpParseOffer sdp = some offer ∧ sdpParseOffer sdp' = some offer' ∧
    offer.hasAudio = offer'.hasAudio ∧ crowdedAnswerArgs.IsClean ∧
    sdpBuildAnswerMulti offer crowdedAnswerArgs 8192 = .ok text ∧
    sdpBuildAnswerMulti offer' crowdedAnswerArgs 8192 = .ok text' ∧
    (lines text).length = 34 ∧ (lines text').length = 33 := by
  have hparse : sdpParseOffer (offerTextOfMid (ascii "0")) = some (offerOfMid (ascii "0")) := by
    decide +kernel
  have hparse' : sdpParseOffer (offerTextOfMid (List.replicate 23 97)) =
      some (offerOfMid (List.replicate 23 97)) := by decide +kernel
  have hbefore : (textBefore (offerOfMid (ascii "0")) crowdedAnswerArgs).length = 793 := by decide +kernel
  have hbefore' : (textBefore (offerOfMid (List.replicate 23 97)) crowdedAnswerArgs).length = 837 := by
    decide +kernel
  have htext := sdpBuildAnswerMulti_crowded (offerOfMid (ascii "0")) (by omega)
  have htext' := sdpBuildAnswerMulti_crowded (offerOfMid (List.replicate 23 97)) (by omega)
  rw [hbefore, if_neg (by decide)] at htext
  rw [hbefore', if_pos (by decide)] at htext'
  refine ⟨_, _, _, _, _, _, hparse, hparse', rfl, isClean_crowdedAnswerArgs, htext, htext', ?_, ?_⟩
  · rw [lines_crlf (isLine_answerLines (fits_of_sdpParseOffer hparse) isClean_crowdedAnswerArgs _)]
    decide +kernel
  · rw [lines_crlf (isLine_answerLines (fits_of_sdpParseOffer hparse') isClean_crowdedAnswerArgs _)]
    decide +kernel

end Camstream
