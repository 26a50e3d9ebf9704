import Camstream.Sdp.MediaSections
import Camstream.Session.PayloadType

/-!
# The format a session commits to

Offer, answer and packets name the format of the video. The answer repeats the number that the parser
reads off the first `a=rtpmap:` line for H264, whatever that number is, and always states packetization
mode 1; the packets carry the low seven bits of the number. So the three agree when the offer declares
this number with mode 1, and a number of seven bits: `commits_iff`.

What a description declares is read off its lines here, not off the parser.
-/

namespace Camstream

open CString Lines

/-! ### Formats in a description -/

/-- The formats of an `m=` line: what stands behind the media type, the port and the protocol. -/
def mediaFormats (line : List UInt8) : List (List UInt8) :=
  (split 32 line).drop 3

/-- The video sections of a description. -/
def videoSections (sdp : List UInt8) : List (List (List UInt8)) :=
  (mediaSections sdp).filter fun s ↦ mediaType (s.headD []) = ascii "video"

/-- `a=rtpmap:<pt> H264/90000`, and encoding parameters if there are any. -/
def declaresH264 (pt : ℕ) (line : List UInt8) : Bool :=
  let pre := ascii "a=rtpmap:" ++ decimal pt ++ ascii " H264/90000"
  startsWith line pre && decide ((line.drop pre.length).head?.all (· = 47))

/-- The parameters a line `a=fmtp:<pt> …` states. -/
def fmtpParams (pt : ℕ) (line : List UInt8) : List (List UInt8) :=
  let pre := ascii "a=fmtp:" ++ decimal pt ++ ascii " "
  if startsWith line pre then (split 59 (line.drop pre.length)).map (List.dropWhile (· = 32)) else []

/-- The packetization mode a section states for a format; `0` if it states none. -/
def packetizationMode (pt : ℕ) (s : List (List UInt8)) : List UInt8 :=
  let key := ascii "packetization-mode="
  (((s.flatMap (fmtpParams pt)).find? fun param ↦ startsWith param key).map
    (List.drop key.length)).getD (ascii "0")

/-- Offer, answer and session agree: the answer has one format, a number of seven bits that is in every
packet of the session, and some video section of the offer declares it as H264, with the packetization
mode that the answer states. -/
def Commits (sdp answer : List UInt8) (lib : Libraries) (s₀ : RtcSession) : Prop :=
  ∃ pt : ℕ, pt ≤ 127 ∧ ∃ a, videoSections answer = [a] ∧ mediaFormats (a.headD []) = [decimal pt] ∧
    (∀ (es : List RtcEvent) (s : RtcSession), Run.exec (rtcStep lib) s₀ es = some s →
      ∀ (accessUnit : List UInt8) (ptsUs : UInt64), ∀ call ∈ sinkCalls s.rtp accessUnit ptsUs,
        (call.packet.getD 1 0 &&& 0x7F).toNat = pt) ∧
    ∃ v ∈ videoSections sdp, (∃ line ∈ v, declaresH264 pt line = true) ∧
      packetizationMode pt a = packetizationMode pt v

/-- The first number for H264 in an offer is one of seven bits, and some video section declares it, with
packetization mode 1. -/
def OffersMode1 (sdp : List UInt8) : Prop :=
  ∃ pt : ℕ, pt ≤ 127 ∧ (h264Numbers sdp).find? (0 ≤ ·) = some (pt : ℤ) ∧
    ∃ v ∈ videoSections sdp, (∃ line ∈ v, declaresH264 pt line = true) ∧
      packetizationMode pt v = ascii "1"

/-! ### The answer -/

variable {sdp text : List UInt8} {offer : SdpOffer} {args : SdpAnswerArgs} {outCapacity pt : ℕ}

/-- Another line states no parameters. -/
theorem fmtpParams_of_not_startsWith {line : List UInt8}
    (h : startsWith line (ascii "a=fmtp:") = false) (pt : ℕ) : fmtpParams pt line = [] := by
  refine if_neg fun hpre ↦ ?_
  rw [startsWith, List.isPrefixOf_iff_prefix, List.append_assoc] at hpre
  have := List.isPrefixOf_iff_prefix.2 ((List.prefix_append _ _).trans hpre)
  exact Bool.false_ne_true (h.symm.trans this)

/-- An answer has one video section, that of the offer. -/
theorem videoSections_answer (h : sdpParseOffer sdp = some offer) (ha : args.IsClean)
    (htext : sdpBuildAnswerMulti offer args outCapacity = .ok text) :
    ∃ n, videoSections text = [videoSection offer args n] := by
  obtain ⟨n, hsections⟩ := mediaSections_answer h ha htext
  refine ⟨n, ?_⟩
  have hvideo : mediaType ((videoSection offer args n).headD []) = ascii "video" := rfl
  have haudio : mediaType ((audioLines offer).headD []) ≠ ascii "video" := by
    show ascii "audio" ≠ ascii "video"
    decide
  have hone : [videoSection offer args n].filter
      (fun s ↦ decide (mediaType (s.headD []) = ascii "video")) = [videoSection offer args n] :=
    List.filter_cons_of_pos (decide_eq_true hvideo)
  rw [videoSections, hsections, List.filter_append, hone]
  split_ifs
  · rw [List.filter_cons_of_neg (by simpa using haudio)]
    rfl
  · rfl

/-- The format of an answer is the number of the offer. -/
theorem mediaFormats_videoSection (hpt : offer.h264PayloadType = pt) (args : SdpAnswerArgs) (n : ℕ) :
    mediaFormats ((videoSection offer args n).headD []) = [decimal pt] := by
  have hhead : (videoSection offer args n).headD [] = ascii "m=video" ++ 32 :: (ascii "9" ++
      32 :: (ascii "UDP/TLS/RTP/SAVPF" ++ 32 :: decimal pt)) := by
    show ascii "m=video 9 UDP/TLS/RTP/SAVPF " ++ formatInt offer.h264PayloadType = _
    rw [hpt, formatInt_natCast, show ascii "m=video 9 UDP/TLS/RTP/SAVPF " = ascii "m=video" ++ 32 ::
      (ascii "9" ++ 32 :: (ascii "UDP/TLS/RTP/SAVPF" ++ [32])) by decide]
    simp only [List.append_assoc, List.cons_append, List.nil_append]
  rw [mediaFormats, hhead, split_append_sep (by decide), split_append_sep (by decide),
    split_append_sep (by decide),
    split_of_notMem (decimal_ne_nil pt) (notMem_decimal (by decide) pt)]
  rfl

/-- The answer states mode 1: of its lines, the first `a=fmtp:` line does. -/
theorem packetizationMode_videoSection (hpt : offer.h264PayloadType = pt) (args : SdpAnswerArgs)
    (n : ℕ) : packetizationMode pt (videoSection offer args n) = ascii "1" := by
  set fmtp := ascii "a=fmtp:" ++ formatInt offer.h264PayloadType ++
    ascii " packetization-mode=1;profile-level-id=42e01f;level-asymmetry-allowed=1" with hfmtp
  obtain ⟨rest, hrest⟩ : ∃ rest, videoSection offer args n =
      (videoLines offer args).take 14 ++ fmtp :: rest := ⟨_, rfl⟩
  have hbefore : ((videoLines offer args).take 14).flatMap (fmtpParams pt) = [] := by
    refine List.flatMap_eq_nil_iff.2 fun l hl ↦ fmtpParams_of_not_startsWith ?_ pt
    revert l
    simp +decide (disch := decide) only [videoLines, List.take_succ_cons, List.take_zero,
      List.forall_mem_cons, startsWith_append_other, List.append_assoc]
  have hparams : fmtpParams pt fmtp = [ascii "packetization-mode=1",
      ascii "profile-level-id=42e01f", ascii "level-asymmetry-allowed=1"] := by
    have hline : fmtp = ascii "a=fmtp:" ++ decimal pt ++ ascii " " ++
        ascii "packetization-mode=1;profile-level-id=42e01f;level-asymmetry-allowed=1" := by
      rw [hfmtp, hpt, formatInt_natCast, List.append_assoc _ (ascii " ")]
      rfl
    rw [fmtpParams, hline, if_pos (startsWith_append_self _ _), List.drop_left]
    decide
  rw [packetizationMode, hrest, List.flatMap_append, hbefore, List.nil_append, List.flatMap_cons,
    hparams]
  rfl

/-! ### Agreement -/

/-- What the answer commits to was offered. -/
theorem Commits.offersMode1 (h : sdpParseOffer sdp = some offer) (ha : args.IsClean)
    (htext : sdpBuildAnswerMulti offer args outCapacity = .ok text) {lib : Libraries} {s₀ : RtcSession}
    (hcommits : Commits sdp text lib s₀) : OffersMode1 sdp := by
  obtain ⟨n, hn⟩ := Int.eq_ofNat_of_zero_le (h264PayloadType_bounds h).1
  have hfind := find_h264Numbers h
  rw [hn] at hfind
  obtain ⟨k, hvideo⟩ := videoSections_answer h ha htext
  obtain ⟨pt, hle, a, hanswer, hformats, -, v, hv, hdeclares, hmode⟩ := hcommits
  obtain rfl := List.singleton_inj.1 (hvideo.symm.trans hanswer)
  rw [mediaFormats_videoSection hn] at hformats
  obtain rfl := decimal_injective (List.singleton_inj.1 hformats)
  rw [packetizationMode_videoSection hn] at hmode
  exact ⟨n, hle, hfind, v, hv, hdeclares, hmode.symm⟩

/-- What was offered in mode 1, the answer and the packets keep. -/
theorem OffersMode1.commits (h : sdpParseOffer sdp = some offer) (ha : args.IsClean)
    (htext : sdpBuildAnswerMulti offer args outCapacity = .ok text) (lib : Libraries)
    {env : CreateAnswers} {config : RtcSessionConfig} (hconfig : config.offer = offer) {s₀ : RtcSession}
    (hcreate : rtcSessionCreate env config = some s₀) (hmode1 : OffersMode1 sdp) :
    Commits sdp text lib s₀ := by
  obtain ⟨pt, hle, hfirst, v, hv, hdeclares, hmode⟩ := hmode1
  have hpt : offer.h264PayloadType = pt :=
    Option.some.inj ((find_h264Numbers h).symm.trans hfirst)
  obtain ⟨k, hvideo⟩ := videoSections_answer h ha htext
  refine ⟨pt, hle, _, hvideo, mediaFormats_videoSection hpt args k, ?_, v, hv, hdeclares,
    (packetizationMode_videoSection hpt args k).trans hmode.symm⟩
  intro es s hrun accessUnit ptsUs call hcall
  have hall : ∀ n : ℕ, n < 128 → (UInt32.ofInt n &&& 0x7F).toUInt8.toNat = n := by decide +kernel
  rw [payloadType_of_mem_sinkCalls hcreate hrun hcall, hconfig, hpt]
  exact hall pt (Nat.lt_succ_of_le hle)

/-- **When offer, answer and session agree**: if the first number for H264 in the offer has seven bits,
and is declared as H264 with packetization mode 1. -/
theorem commits_iff (h : sdpParseOffer sdp = some offer) (ha : args.IsClean)
    (htext : sdpBuildAnswerMulti offer args outCapacity = .ok text) (lib : Libraries)
    {env : CreateAnswers} {config : RtcSessionConfig} (hconfig : config.offer = offer) {s₀ : RtcSession}
    (hcreate : rtcSessionCreate env config = some s₀) :
    Commits sdp text lib s₀ ↔ OffersMode1 sdp :=
  ⟨Commits.offersMode1 h ha htext, OffersMode1.commits h ha htext lib hconfig hcreate⟩

/-- The sample offer is answered as it should be. -/
theorem commits_iff_sample : ∃ text s₀,
    sdpBuildAnswerMulti sampleParsedOffer sampleAnswerArgs 8192 = .ok text ∧
      rtcSessionCreate sampleCreate ⟨sampleParsedOffer, true, true⟩ = some s₀ ∧
      Commits sampleOfferText text sampleLibraries s₀ := by
  obtain ⟨text, htext⟩ := exists_sampleAnswer
  obtain ⟨s₀, hcreate⟩ : ∃ s₀, rtcSessionCreate sampleCreate ⟨sampleParsedOffer, true, true⟩ = some s₀ :=
    ⟨_, rfl⟩
  have hconfig : (⟨sampleParsedOffer, true, true⟩ : RtcSessionConfig).offer = sampleParsedOffer := rfl
  refine ⟨text, s₀, htext, hcreate, (commits_iff sdpParseOffer_sampleOfferText isClean_sampleAnswerArgs
    htext sampleLibraries hconfig hcreate).2 ?_⟩
  have hsections : videoSections sampleOfferText = [[ascii "m=video 9 X 96", ascii "a=mid:1",
      ascii "a=rtpmap:96 H264/90000", ascii "a=fmtp:96 packetization-mode=1"]] := by
    decide +kernel
  refine ⟨96, by decide, by decide +kernel, _, hsections ▸ List.mem_singleton_self _,
    ⟨ascii "a=rtpmap:96 H264/90000", by decide, by decide⟩, by decide⟩

/-- An offer whose format is for packetization mode 0. -/
def mode0OfferText : List UInt8 :=
  crlf [ascii "v=0", ascii "a=ice-ufrag:u", ascii "a=ice-pwd:p", ascii "a=fingerprint:sha-256 01",
    ascii "m=video 9 X 96", ascii "a=mid:1", ascii "a=rtpmap:96 H264/90000",
    ascii "a=fmtp:96 packetization-mode=0"]

/-- The answer states mode 1 all the same. -/
theorem not_commits : ¬ ∀ (sdp : List UInt8) (offer : SdpOffer) (args : SdpAnswerArgs)
    (outCapacity : ℕ) (text : List UInt8) (lib : Libraries) (env : CreateAnswers)
    (config : RtcSessionConfig) (s₀ : RtcSession), sdpParseOffer sdp = some offer → args.IsClean →
    sdpBuildAnswerMulti offer args outCapacity = .ok text → config.offer = offer →
    rtcSessionCreate env config = some s₀ → Commits sdp text lib s₀ := by
  intro hall
  set offer : SdpOffer := { sampleParsedOffer with
    audioMid := [], hasAudio := false, h264PacketizationMode := 0 }
  have hparse : sdpParseOffer mode0OfferText = some offer := by decide +kernel
  have hfits := (fits_of_sdpParseOffer hparse).printable (h264PayloadType_bounds hparse)
  have htext := (sdpBuildAnswerMulti_of_fits hfits fits_sampleAnswerArgs 8192).trans
    (if_pos (sdpAnswerText_of_fits hfits fits_sampleAnswerArgs).2)
  obtain ⟨pt, -, hfirst, v, hv, -, hmode⟩ := Commits.offersMode1 hparse isClean_sampleAnswerArgs htext
    (hall _ _ _ _ _ sampleLibraries sampleCreate ⟨offer, true, true⟩ _ hparse isClean_sampleAnswerArgs
      htext rfl rfl)
  have hpt : (96 : ℤ) = pt := Option.some.inj ((by decide +kernel : some (96 : ℤ) =
    (h264Numbers mode0OfferText).find? (0 ≤ ·)).trans hfirst)
  obtain rfl : 96 = pt := Int.ofNat.inj hpt
  have hsections : videoSections mode0OfferText = [[ascii "m=video 9 X 96", ascii "a=mid:1",
      ascii "a=rtpmap:96 H264/90000", ascii "a=fmtp:96 packetization-mode=0"]] := by
    decide +kernel
  rw [hsections, List.mem_singleton] at hv
  rw [hv] at hmode
  exact absurd hmode (by decide)

end Camstream
