import Camstream.App.Signaling

/-!
# Is the reply JSON?

`json_escape_append` escapes the quotation mark, the backslash, CR, LF and TAB; every other byte goes out
as it is. An answer holds other control characters, or bytes that are no UTF-8, exactly if a mid of the offer
brings them in. Mids come from a request in which control characters are escaped, and they are cut to a number
of bytes, not of characters. `denotes_payloadAnswer_iff` says when the escaped answer is the body of a JSON
string.
-/

namespace Camstream

open Bytes CString Lines JsonString Utf8

/-- The bytes that are fine behind `json_escape_append`. -/
def IsJsonSafe (c : UInt8) : Prop :=
  0x20 ≤ c ∨ c = 9 ∨ c = 10 ∨ c = 13

instance : DecidablePred IsJsonSafe :=
  fun c ↦ inferInstanceAs (Decidable (0x20 ≤ c ∨ c = 9 ∨ c = 10 ∨ c = 13))

/-- What `json_escape_append` writes for a byte is a spelling of it. -/
theorem spells_jsonEscapeByte {c : UInt8} (h : IsJsonSafe c) : Spells c (jsonEscapeByte c) := by
  rw [jsonEscapeByte]
  split_ifs with hquote hbackslash hcr hlf htab
  · subst hquote
    exact .escape (by decide)
  · subst hbackslash
    exact .escape (by decide)
  · subst hcr
    exact .escape (by decide)
  · subst hlf
    exact .escape (by decide)
  · subst htab
    exact .escape (by decide)
  · have hle : 0x20 ≤ c := h.resolve_right fun h ↦ h.elim htab fun h ↦ h.elim hlf hcr
    exact .unescaped ⟨hle, hquote, hbackslash⟩

/-- Another byte is copied. -/
theorem jsonEscapeByte_of_not {c : UInt8} (h : ¬ IsJsonSafe c) : jsonEscapeByte c = [c] := by
  have hquote : c ≠ 0x22 := by
    rintro rfl
    exact h (by decide)
  have hbackslash : c ≠ 0x5C := by
    rintro rfl
    exact h (by decide)
  obtain ⟨-, htab, hlf, hcr⟩ : ¬ 0x20 ≤ c ∧ c ≠ 9 ∧ c ≠ 10 ∧ c ≠ 13 := by
    simpa only [IsJsonSafe, not_or] using h
  rw [jsonEscapeByte, if_neg hquote, if_neg hbackslash, if_neg hcr, if_neg hlf, if_neg htab]

/-- So are all bytes that are not ASCII, and ASCII stays ASCII. -/
theorem jsonEscapeByte_of_le {c : UInt8} (h : 0x80 ≤ c) : jsonEscapeByte c = [c] := by
  have hne : ∀ d < 0x80, c ≠ d := fun d hd heq ↦ absurd (heq ▸ h) (UInt8.not_le.2 hd)
  rw [jsonEscapeByte, if_neg (hne _ (by decide)), if_neg (hne _ (by decide)), if_neg (hne _ (by decide)),
    if_neg (hne _ (by decide)), if_neg (hne _ (by decide))]

/-- ASCII is escaped with ASCII. -/
theorem jsonEscapeByte_of_lt {c : UInt8} (h : c < 0x80) :
    jsonEscapeByte c ≠ [] ∧ ∀ d ∈ jsonEscapeByte c, d < 0x80 := by
  have hall : ∀ c, decide (c < 0x80) → jsonEscapeByte c ≠ [] ∧ ∀ d ∈ jsonEscapeByte c, d < 0x80 :=
    forall_byte (by decide +kernel)
  exact hall c (decide_eq_true h)

/-- A JSON string is written for safe bytes that are UTF-8, and for these it is the right one. -/
theorem safe_of_denotes {s v : List UInt8} (h : Denotes (jsonEscape s) v) :
    IsUtf8 s ∧ ∀ c ∈ s, IsJsonSafe c := by
  refine ⟨?_, fun c hc ↦ ?_⟩
  · exact (isUtf8_flatMap_iff (fun _ ↦ jsonEscapeByte_of_le) (fun _ ↦ jsonEscapeByte_of_lt) s).1 h.isUtf8
  · by_contra hsafe
    have hmem : c ∈ jsonEscape s :=
      List.mem_flatMap.2 ⟨c, hc, jsonEscapeByte_of_not hsafe ▸ List.mem_singleton_self c⟩
    exact hsafe (Or.inl (h.le c hmem))

/-- The escaped text denotes the text. -/
theorem denotes_jsonEscape {s : List UInt8} (h : IsUtf8 s ∧ ∀ c ∈ s, IsJsonSafe c) :
    Denotes (jsonEscape s) s :=
  denotes_flatMap (fun _ ↦ jsonEscapeByte_of_le) h.1 fun c hc ↦ spells_jsonEscapeByte (h.2 c hc)

/-! ### The bytes of an answer -/

/-- The mids that an answer repeats are UTF-8 and hold no control characters but TAB. -/
def MidsSafe (sdp : List UInt8) : Prop :=
  ∀ media ∈ [SdpMedia.audio, SdpMedia.video], ∀ mid ∈ (mids media sdp).getLast?,
    IsUtf8 mid ∧ ∀ c ∈ mid, 0x20 ≤ c ∨ c = 9

variable {sdp text : List UInt8} {offer : SdpOffer} {args : SdpAnswerArgs} {outCapacity : ℕ}

/-- A section with a mid makes an answer with audio. -/
theorem hasAudio_of_mem_mids (h : sdpParseOffer sdp = some offer) {mid : List UInt8}
    (hmid : mid ∈ mids .audio sdp) : offer.hasAudio = true := by
  obtain ⟨line, hline, hvalue⟩ := List.mem_filterMap.1 hmid
  rw [midValue] at hvalue
  split_ifs at hvalue with hstart
  rw [startsWith_lineBuffer line (by decide) (by decide)] at hstart
  rw [hasAudio_eq h]
  exact List.any_eq_true.2 ⟨line, hline, hstart⟩

/-- Printable ASCII is UTF-8, and safe. -/
theorem safe_of_isPrintable {l : List UInt8} (h : IsPrintable l) : IsUtf8 l ∧ ∀ c ∈ l, IsJsonSafe c := by
  have hlt : (127 : UInt8) < 0x80 := by decide
  exact ⟨isUtf8_of_ascii fun c hc ↦ UInt8.lt_trans (h c hc).2 hlt, fun c hc ↦ Or.inl (h c hc).1⟩

/-- A mid that is safe, or the default for an offer without one. -/
theorem MidsSafe.mid (h : sdpParseOffer sdp = some offer) (hmids : MidsSafe sdp)
    (media : SdpMedia) (hmedia : media ∈ [SdpMedia.audio, SdpMedia.video]) {name : List UInt8}
    (hname : IsPrintable name) :
    IsUtf8 (if offer.mid media ≠ [] then offer.mid media else name) ∧
      ∀ c ∈ if offer.mid media ≠ [] then offer.mid media else name, IsJsonSafe c := by
  have hnone : media ≠ .none := by
    rintro rfl
    exact absurd hmedia (by decide)
  rw [mid_eq h hnone]
  split_ifs with hne
  · rcases hlast : (mids media sdp).getLast? with - | mid
    · exact ⟨isUtf8_nil, List.forall_mem_nil _⟩
    · obtain ⟨hutf8, hbytes⟩ := hmids media hmedia mid hlast
      exact ⟨hutf8, fun c hc ↦ (hbytes c hc).imp_right Or.inl⟩
  · exact safe_of_isPrintable hname

/-- Safe mids make a safe answer. -/
theorem MidsSafe.safe (h : sdpParseOffer sdp = some offer) (ha : args.All IsPrintable)
    (htext : sdpBuildAnswerMulti offer args outCapacity = .ok text) (hmids : MidsSafe sdp) :
    IsUtf8 text ∧ ∀ c ∈ text, IsJsonSafe c := by
  obtain ⟨n, -, rfl⟩ := sdpBuildAnswerMulti_eq_ok htext
  have happend : ∀ l l' : List UInt8, (IsUtf8 l ∧ ∀ c ∈ l, IsJsonSafe c) →
      (IsUtf8 l' ∧ ∀ c ∈ l', IsJsonSafe c) → IsUtf8 (l ++ l') ∧ ∀ c ∈ l ++ l', IsJsonSafe c :=
    fun l l' hl hl' ↦ ⟨hl.1.append hl'.1, List.forall_mem_append.2 ⟨hl.2, hl'.2⟩⟩
  have hlines := forall_answerLines happend (fun l ↦ safe_of_isPrintable)
    (hmids.mid h .video (by decide) (by decide))
    (fun _ ↦ hmids.mid h .audio (by decide) (by decide))
    (ha.imp fun l ↦ safe_of_isPrintable) n
  have hcrlf : IsUtf8 [13, 10] ∧ ∀ c ∈ ([13, 10] : List UInt8), IsJsonSafe c :=
    ⟨isUtf8_of_ascii (forall_mem_of_all (by decide)), forall_mem_of_all (by decide)⟩
  generalize answerLines offer args n = ls at hlines
  induction ls with
  | nil => exact ⟨isUtf8_nil, List.forall_mem_nil _⟩
  | cons l ls ih =>
    rw [List.forall_mem_cons] at hlines
    exact happend _ _ (happend _ _ hlines.1 hcrlf) (ih hlines.2)

/-- The mids of the offer are part of the answer. -/
theorem midLine_mem_answerLines (args : SdpAnswerArgs) (h : sdpParseOffer sdp = some offer) {media : SdpMedia}
    (hmedia : media ∈ [SdpMedia.audio, SdpMedia.video]) {mid : List UInt8}
    (hmid : mid ∈ (mids media sdp).getLast?) (hne : mid ≠ []) (n : ℕ) :
    ascii "a=mid:" ++ mid ∈ answerLines offer args n := by
  rw [List.mem_pair] at hmedia
  rcases hmedia with rfl | rfl
  · have haudio := hasAudio_of_mem_mids h (List.mem_of_mem_getLast? hmid)
    have haudioMid : offer.audioMid = mid :=
      (mid_eq h (by decide)).trans (congrArg (Option.getD · []) hmid)
    have hvalue : audioMid offer = mid := by
      rw [audioMid, haudioMid, if_pos hne]
    rw [← hvalue, answerLines, if_pos haudio]
    refine List.mem_append_left _ (List.mem_append_right _ ?_)
    simp only [audioLines, List.mem_cons, true_or, or_true]
  · have hvideoMid : offer.videoMid = mid :=
      (mid_eq h (by decide)).trans (congrArg (Option.getD · []) hmid)
    have hvalue : videoMid offer = mid := by
      rw [videoMid, hvideoMid, if_pos hne]
    rw [← hvalue, answerLines, videoSection, videoLines]
    refine List.mem_append_right _ (List.mem_append_left _ (List.mem_append_left _
      (List.mem_append_left _ ?_)))
    simp only [List.mem_cons, true_or, or_true]

/-- The lines of a text are texts. -/
theorem isUtf8_of_mem_crlf {ls : List (List UInt8)} (h : IsUtf8 (crlf ls)) : ∀ l ∈ ls, IsUtf8 l := by
  induction ls with
  | nil => exact List.forall_mem_nil _
  | cons l ls ih =>
    rw [crlf, List.flatMap_cons, List.append_assoc, List.cons_append, isUtf8_append_cons_iff (by decide),
      List.cons_append, ← List.nil_append (10 :: _), isUtf8_append_cons_iff (by decide)] at h
    exact List.forall_mem_cons.2 ⟨h.1, ih h.2.2⟩

theorem isValue_of_mem_mids {media : SdpMedia} {mid : List UInt8} (h : mid ∈ mids media sdp) :
    IsValue mid := by
  obtain ⟨line, -, hvalue⟩ := List.mem_filterMap.1 h
  rw [midValue] at hvalue
  split_ifs at hvalue
  rw [← Option.some.inj hvalue]
  exact (fitsField_copyValue (notMem_lineBuffer line) _ (by decide) (.nil (by decide))).isValue

/-- A safe answer has safe mids. -/
theorem midsSafe_of_safe (h : sdpParseOffer sdp = some offer)
    (htext : sdpBuildAnswerMulti offer args outCapacity = .ok text)
    (hsafe : IsUtf8 text ∧ ∀ c ∈ text, IsJsonSafe c) : MidsSafe sdp := by
  intro media hmedia mid hmid
  rcases eq_or_ne mid [] with rfl | hne
  · exact ⟨isUtf8_nil, List.forall_mem_nil _⟩
  obtain ⟨n, -, rfl⟩ := sdpBuildAnswerMulti_eq_ok htext
  have hline := midLine_mem_answerLines args h hmedia hmid hne n
  refine ⟨?_, fun c hc ↦ ?_⟩
  · exact (isUtf8_append_iff_of_ascii (forall_mem_of_all (by decide))).1 (isUtf8_of_mem_crlf hsafe.1 _ hline)
  · have hvalue := isValue_of_mem_mids (List.mem_of_mem_getLast? hmid)
    have hmem : c ∈ crlf (answerLines offer args n) :=
      List.mem_flatMap.2 ⟨_, hline, List.mem_append_left _ (List.mem_append_right _ hc)⟩
    rcases hsafe.2 c hmem with hle | htab | rfl | rfl
    · exact Or.inl hle
    · exact Or.inr htab
    · exact absurd hc hvalue.2.2
    · exact absurd hc hvalue.2.1

/-! ### The reply -/

/-- **When the reply is JSON**: the text that is written for an answer is the body of a JSON string for
this answer if and only if the mids that the answer repeats are UTF-8 and hold no control characters but TAB.
Otherwise it is no JSON string at all. -/
theorem denotes_payloadAnswer_iff (h : sdpParseOffer sdp = some offer) (ha : args.All IsPrintable)
    (htext : sdpBuildAnswerMulti offer args answerSize = .ok text) (sessionId : UInt32)
    (udpPort : UInt16) :
    (Denotes (payloadAnswer sessionId udpPort text) text ↔ MidsSafe sdp) ∧
      ((∃ v, Denotes (payloadAnswer sessionId udpPort text) v) ↔ MidsSafe sdp) := by
  rw [payloadAnswer_eq (length_lt_of_sdpBuildAnswerMulti htext)]
  have hsafe : ∀ v, Denotes (jsonEscape text) v → MidsSafe sdp :=
    fun v hdenotes ↦ midsSafe_of_safe h htext (safe_of_denotes hdenotes)
  have hdenotes : MidsSafe sdp → Denotes (jsonEscape text) text :=
    fun hmids ↦ denotes_jsonEscape (hmids.safe h ha htext)
  refine ⟨⟨hsafe text, hdenotes⟩, ?_, fun hmids ↦ ⟨text, hdenotes hmids⟩⟩
  rintro ⟨v, hv⟩
  exact hsafe v hv

/-- The sample offer is answered in JSON. -/
theorem denotes_payloadAnswer_sample :
    ∃ text, sdpBuildAnswerMulti sampleParsedOffer sampleAnswerArgs 8192 = .ok text ∧
      Denotes (payloadAnswer 7 50000 text) text := by
  obtain ⟨text, htext⟩ := exists_sampleAnswer
  have haudio : mids .audio sampleOfferText = [ascii "0"] := by decide +kernel
  have hvideo : mids .video sampleOfferText = [ascii "1"] := by decide +kernel
  have hsafe : MidsSafe sampleOfferText := by
    intro media hmedia mid hmid
    rcases List.mem_pair.1 hmedia with rfl | rfl
    · rw [haudio] at hmid
      obtain rfl := Option.some.inj hmid
      exact ⟨isUtf8_of_ascii (forall_mem_of_all (by decide)), forall_mem_of_all (by decide)⟩
    · rw [hvideo] at hmid
      obtain rfl := Option.some.inj hmid
      exact ⟨isUtf8_of_ascii (forall_mem_of_all (by decide)), forall_mem_of_all (by decide)⟩
  exact ⟨text, htext, (denotes_payloadAnswer_iff sdpParseOffer_sampleOfferText
    isPrintable_sampleAnswerArgs htext 7 50000).1.2 hsafe⟩

/-- An offer whose mid is a backspace. -/
def backspaceOfferText : List UInt8 :=
  crlf [ascii "v=0", ascii "a=ice-ufrag:u", ascii "a=ice-pwd:p", ascii "a=fingerprint:sha-256 01",
    ascii "m=video 9 X 96", ascii "a=mid:" ++ [8], ascii "a=rtpmap:96 H264/90000"]

/-- The request it comes in. -/
def backspaceRequest : List UInt8 :=
  ascii "\x7b\"type\":\"offer\",\"sdp\":\"" ++
    backspaceOfferText.flatMap (fun c ↦ if c = 8 then ascii "\\b" else jsonEscapeByte c) ++
    ascii "\"\x7d"

/-- The backspace is sent back as it is, also when the offer came in a request. -/
theorem not_denotes_payloadAnswer : ¬ ∀ (request sdp : List UInt8) (offer : SdpOffer)
    (args : SdpAnswerArgs) (text : List UInt8) (sessionId : UInt32) (udpPort : UInt16),
    jsonGetString (request ++ [0]) (ascii "sdp") answerSize = .stored sdp true →
    sdpParseOffer (cstring sdp) = some offer → args.All IsPrintable →
    sdpBuildAnswerMulti offer args answerSize = .ok text →
    Denotes (payloadAnswer sessionId udpPort text) text := by
  intro hall
  have hget : jsonGetString (backspaceRequest ++ [0]) (ascii "sdp") answerSize =
      .stored backspaceOfferText true := by
    decide +kernel
  have hcstring : cstring backspaceOfferText = backspaceOfferText := by decide +kernel
  set offer : SdpOffer := { sampleParsedOffer with
    videoMid := [8], audioMid := [], hasAudio := false }
  have hparse : sdpParseOffer backspaceOfferText = some offer := by decide +kernel
  have hfits := (fits_of_sdpParseOffer hparse).printable (h264PayloadType_bounds hparse)
  have htext := (sdpBuildAnswerMulti_of_fits hfits fits_sampleAnswerArgs answerSize).trans
    (if_pos (sdpAnswerText_of_fits hfits fits_sampleAnswerArgs).2)
  have hdenotes := hall _ _ offer _ _ 7 50000 hget (hcstring.symm ▸ hparse) isPrintable_sampleAnswerArgs
    htext
  rw [payloadAnswer_eq (length_lt_of_sdpBuildAnswerMulti htext)] at hdenotes
  have hsafe := midsSafe_of_safe hparse htext (safe_of_denotes hdenotes)
  have hvideo : mids .video backspaceOfferText = [[8]] := by decide +kernel
  have hbytes := (hsafe .video (by decide) [8] (by rw [hvideo]; rfl)).2
  exact absurd (hbytes 8 List.mem_cons_self) (by decide)

end Camstream
