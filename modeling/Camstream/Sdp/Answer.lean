import Camstream.Lib.Decimal
import Camstream.Lib.Lines
import Camstream.Sdp.Offer

/-!
# Building the SDP answer

The second half of `src/webrtc/sdp.c`. The answer is printed piece by piece into a buffer of 8192 bytes;
`offset` is the sum of what the calls of `snprintf` return, so it is the length of the text whether or not
the text fits. Here the text itself is passed on, and a call with an offset outside the buffer is an
`overrun`.

`sdpBuildAnswerMulti_eq` says that an answer, if there is one, is the text of a list of lines
(`answerLines`), and `sdpBuildAnswerMulti_of_fits` that there is one when the arguments fit the arrays
the server keeps them in.
-/

namespace Camstream

open CString Lines

/-- What the server puts into an answer. The strings are C strings; `none` is a null pointer. -/
structure SdpAnswerArgs where
  localFingerprint : List UInt8
  localUfrag : List UInt8
  localPwd : List UInt8
  advertiseIp : List UInt8
  extraIps : List (Option (List UInt8))
  udpPort : UInt16
  ssrc : UInt32
  deriving DecidableEq, Repr

/-- Why there is no answer. -/
inductive SdpFailure
  /-- A write or a read outside `buffer`. -/
  | overrun
  /-- The return value `0`. -/
  | zero
  deriving DecidableEq, Repr

/-- `sizeof(buffer)` -/
def sdpBufferSize : ℕ := 8192

/-- `written = snprintf(buffer + offset, sizeof(buffer) - offset, …)` and the lines after it. -/
def sdpPrint (text printed : List UInt8) : Except SdpFailure (List UInt8) :=
  if sdpBufferSize < text.length then .error .overrun
  else if 2 ^ 31 ≤ printed.length then .error .zero
  else .ok (text ++ printed)

/-- `video_mid` -/
def videoMid (offer : SdpOffer) : List UInt8 :=
  if offer.videoMid ≠ [] then offer.videoMid else ascii "video"

/-- `audio_mid` -/
def audioMid (offer : SdpOffer) : List UInt8 :=
  if offer.audioMid ≠ [] then offer.audioMid else ascii "audio"

/-- The session level. -/
def headerLines (offer : SdpOffer) (args : SdpAnswerArgs) : List (List UInt8) :=
  [ascii "v=0",
    ascii "o=- 1 1 IN IP4 " ++ args.advertiseIp,
    ascii "s=camstream",
    ascii "t=0 0",
    ascii "a=ice-lite",
    ascii "a=ice-options:trickle",
    ascii "a=group:BUNDLE " ++ videoMid offer,
    ascii "a=msid-semantic: WMS camstream",
    ascii "a=fingerprint:" ++ args.localFingerprint,
    ascii "a=setup:passive",
    ascii "a=ice-ufrag:" ++ args.localUfrag,
    ascii "a=ice-pwd:" ++ args.localPwd]

/-- The rejected audio section. -/
def audioLines (offer : SdpOffer) : List (List UInt8) :=
  [ascii "m=audio 0 UDP/TLS/RTP/SAVPF 0",
    ascii "c=IN IP4 0.0.0.0",
    ascii "a=inactive",
    ascii "a=mid:" ++ audioMid offer]

/-- The video section, up to the candidates. -/
def videoLines (offer : SdpOffer) (args : SdpAnswerArgs) : List (List UInt8) :=
  let pt := formatInt offer.h264PayloadType
  let ssrc := decimal args.ssrc.toNat
  [ascii "m=video 9 UDP/TLS/RTP/SAVPF " ++ pt,
    ascii "c=IN IP4 " ++ args.advertiseIp,
    ascii "a=mid:" ++ videoMid offer,
    ascii "a=ice-ufrag:" ++ args.localUfrag,
    ascii "a=ice-pwd:" ++ args.localPwd,
    ascii "a=ice-options:trickle",
    ascii "a=fingerprint:" ++ args.localFingerprint,
    ascii "a=setup:passive",
    ascii "a=sendonly",
    ascii "a=rtcp-mux",
    ascii "a=msid:camstream camstream-video",
    ascii "a=ssrc:" ++ ssrc ++ ascii " cname:camstream",
    ascii "a=ssrc:" ++ ssrc ++ ascii " msid:camstream camstream-video",
    ascii "a=rtpmap:" ++ pt ++ ascii " H264/90000",
    ascii "a=fmtp:" ++ pt ++
      ascii " packetization-mode=1;profile-level-id=42e01f;level-asymmetry-allowed=1",
    ascii "a=rtcp-fb:" ++ pt ++ ascii " nack",
    ascii "a=rtcp-fb:" ++ pt ++ ascii " nack pli",
    ascii "a=rtcp-fb:" ++ pt ++ ascii " ccm fir"]

/-- The candidate of the advertised address. -/
def candidateLine (args : SdpAnswerArgs) : List UInt8 :=
  ascii "a=candidate:1 1 udp 2130706431 " ++ args.advertiseIp ++ ascii " " ++
    decimal args.udpPort.toNat ++ ascii " typ host generation 0"

/-- The priority of the extra address number `i`. -/
def extraPriority (i : ℕ) : UInt32 :=
  let prio := 2130706431 - UInt32.ofNat (i + 1) * 10
  if prio < 1000 then 1000 else prio

/-- The candidate of the extra address number `i`. -/
def extraCandidateLine (args : SdpAnswerArgs) (i : ℕ) (ip : List UInt8) : List UInt8 :=
  ascii "a=candidate:" ++ decimal (i + 2) ++ ascii " 1 udp " ++ decimal (extraPriority i).toNat ++
    ascii " " ++ ip ++ ascii " " ++ decimal args.udpPort.toNat ++ ascii " typ host generation 0"

/-- The loop over the extra addresses, from number `i` on. -/
def sdpCandidates (args : SdpAnswerArgs) :
    ℕ → List (Option (List UInt8)) → List UInt8 → Except SdpFailure (List UInt8)
  | _, [], text => .ok text
  | i, none :: ips, text => sdpCandidates args (i + 1) ips text
  | i, some ip :: ips, text =>
    if ip = [] then sdpCandidates args (i + 1) ips text
    else if ip = args.advertiseIp then sdpCandidates args (i + 1) ips text
    else do
      let text ← sdpPrint text (crlf [extraCandidateLine args i ip])
      if sdpBufferSize < text.length + 256 then .ok text
      else sdpCandidates args (i + 1) ips text

/-- The audio section, if there is one. -/
def sdpPrintAudio (offer : SdpOffer) (text : List UInt8) : Except SdpFailure (List UInt8) :=
  if offer.hasAudio then sdpPrint text (crlf (audioLines offer)) else .ok text

/-- The text in `buffer`. -/
def sdpAnswerText (offer : SdpOffer) (args : SdpAnswerArgs) : Except SdpFailure (List UInt8) := do
  let text ← sdpPrint [] (crlf (headerLines offer args))
  let text ← sdpPrintAudio offer text
  let text ← sdpPrint text (crlf (videoLines offer args))
  let text ← sdpPrint text (crlf [candidateLine args])
  let text ← sdpCandidates args 0 args.extraIps text
  sdpPrint text (crlf [ascii "a=end-of-candidates"])

/-- `sdp_build_answer_multi`: the answer, up to its terminating zero. -/
def sdpBuildAnswerMulti (offer : SdpOffer) (args : SdpAnswerArgs) (outCapacity : ℕ) :
    Except SdpFailure (List UInt8) := do
  let text ← sdpAnswerText offer args
  if outCapacity < text.length + 1 then .error .zero
  else if sdpBufferSize < text.length + 1 then .error .overrun
  else .ok text

/-- `sdp_build_answer` -/
def sdpBuildAnswer (offer : SdpOffer) (args : SdpAnswerArgs) (outCapacity : ℕ) :
    Except SdpFailure (List UInt8) :=
  sdpBuildAnswerMulti offer { args with extraIps := [] } outCapacity

/-! ### The lines of an answer -/

/-- The candidates of extra addresses, from number `i` on. -/
def extraCandidateLines (args : SdpAnswerArgs) : ℕ → List (Option (List UInt8)) → List (List UInt8)
  | _, [] => []
  | i, none :: ips => extraCandidateLines args (i + 1) ips
  | i, some ip :: ips =>
    if ip = [] ∨ ip = args.advertiseIp then extraCandidateLines args (i + 1) ips
    else extraCandidateLine args i ip :: extraCandidateLines args (i + 1) ips

/-- The lines below the session level and the audio section, with the first `n` extra addresses. -/
def videoSection (offer : SdpOffer) (args : SdpAnswerArgs) (n : ℕ) : List (List UInt8) :=
  videoLines offer args ++ [candidateLine args] ++
    extraCandidateLines args 0 (args.extraIps.take n) ++ [ascii "a=end-of-candidates"]

/-- The lines of an answer that lists the first `n` extra addresses. -/
def answerLines (offer : SdpOffer) (args : SdpAnswerArgs) (n : ℕ) : List (List UInt8) :=
  headerLines offer args ++ (if offer.hasAudio then audioLines offer else []) ++
    videoSection offer args n

theorem except_bind_eq_ok {ε α β : Type} {x : Except ε α} {f : α → Except ε β} {b : β} :
    (x >>= f) = .ok b ↔ ∃ a, x = .ok a ∧ f a = .ok b := by
  cases x with
  | error e =>
    have hbind : (Except.error e >>= f) = .error e := rfl
    rw [hbind]
    constructor
    · intro h
      cases h
    · rintro ⟨a, ha, -⟩
      cases ha
  | ok a =>
    refine ⟨fun h ↦ ⟨a, rfl, h⟩, ?_⟩
    rintro ⟨a', ha', h⟩
    rwa [Except.ok.inj ha']

theorem sdpPrint_eq_ok {text printed text' : List UInt8} (h : sdpPrint text printed = .ok text') :
    text' = text ++ printed := by
  rw [sdpPrint] at h
  split_ifs at h
  exact (Except.ok.inj h).symm

/-- The loop over the extra addresses stops somewhere. -/
theorem sdpCandidates_eq_ok {args : SdpAnswerArgs} {i : ℕ} {ips : List (Option (List UInt8))}
    {text text' : List UInt8} (h : sdpCandidates args i ips text = .ok text') :
    ∃ n ≤ ips.length, text' = text ++ crlf (extraCandidateLines args i (ips.take n)) := by
  fun_induction sdpCandidates args i ips text with
  | case1 i text => exact ⟨0, Nat.le_refl 0, by simpa [crlf, extraCandidateLines] using h.symm⟩
  | case2 i ips text ih =>
    obtain ⟨n, hn, htext⟩ := ih h
    exact ⟨n + 1, Nat.succ_le_succ hn, htext⟩
  | case3 i ips text ih =>
    obtain ⟨n, hn, htext⟩ := ih h
    refine ⟨n + 1, Nat.succ_le_succ hn, ?_⟩
    rw [List.take_succ_cons, extraCandidateLines, if_pos (Or.inl rfl)]
    exact htext
  | case4 i ips text hne ih =>
    obtain ⟨n, hn, htext⟩ := ih h
    refine ⟨n + 1, Nat.succ_le_succ hn, ?_⟩
    rw [List.take_succ_cons, extraCandidateLines, if_pos (Or.inr rfl)]
    exact htext
  | case5 i ip ips text hne hip ih =>
    obtain ⟨t, ht, h⟩ := except_bind_eq_ok.1 h
    obtain rfl := sdpPrint_eq_ok ht
    have hskip : ¬ (ip = [] ∨ ip = args.advertiseIp) := not_or.2 ⟨hne, hip⟩
    split_ifs at h
    · refine ⟨1, Nat.succ_le_succ (Nat.zero_le _), ?_⟩
      rw [List.take_succ_cons, extraCandidateLines, if_neg hskip, List.take_zero]
      exact (Except.ok.inj h).symm
    · obtain ⟨n, hn, htext⟩ := ih _ h
      refine ⟨n + 1, Nat.succ_le_succ hn, ?_⟩
      rw [List.take_succ_cons, extraCandidateLines, if_neg hskip, htext, List.append_assoc,
        ← crlf_append]
      rfl

/-- The text in the buffer is that of the lines. -/
theorem sdpAnswerText_eq_ok {offer : SdpOffer} {args : SdpAnswerArgs} {text : List UInt8}
    (h : sdpAnswerText offer args = .ok text) :
    ∃ n ≤ args.extraIps.length, text = crlf (answerLines offer args n) := by
  rw [sdpAnswerText] at h
  obtain ⟨header, hheader, h⟩ := except_bind_eq_ok.1 h
  obtain ⟨audio, haudio, h⟩ := except_bind_eq_ok.1 h
  obtain ⟨video, hvideo, h⟩ := except_bind_eq_ok.1 h
  obtain ⟨first, hfirst, h⟩ := except_bind_eq_ok.1 h
  obtain ⟨all, hall, h⟩ := except_bind_eq_ok.1 h
  obtain ⟨n, hn, rfl⟩ := sdpCandidates_eq_ok hall
  refine ⟨n, hn, ?_⟩
  obtain rfl := sdpPrint_eq_ok h
  obtain rfl := sdpPrint_eq_ok hfirst
  obtain rfl := sdpPrint_eq_ok hvideo
  obtain rfl : audio = header ++ crlf (if offer.hasAudio then audioLines offer else []) := by
    rw [sdpPrintAudio] at haudio
    split_ifs at haudio ⊢
    · exact sdpPrint_eq_ok haudio
    · exact (Except.ok.inj haudio).symm.trans (List.append_nil _).symm
  obtain rfl := sdpPrint_eq_ok hheader
  rw [answerLines, videoSection]
  simp only [crlf_append, List.nil_append, List.append_assoc]

/-- **An answer is the text of its lines.** -/
theorem sdpBuildAnswerMulti_eq_ok {offer : SdpOffer} {args : SdpAnswerArgs} {outCapacity : ℕ}
    {text : List UInt8} (h : sdpBuildAnswerMulti offer args outCapacity = .ok text) :
    ∃ n ≤ args.extraIps.length, text = crlf (answerLines offer args n) := by
  obtain ⟨text', htext, h⟩ := except_bind_eq_ok.1 h
  split_ifs at h
  obtain rfl := Except.ok.inj h
  exact sdpAnswerText_eq_ok htext

/-! ### Arguments that fit -/

/-- The arguments fit the arrays the server keeps them in. -/
structure SdpAnswerArgs.Fits (args : SdpAnswerArgs) : Prop where
  localFingerprint : args.localFingerprint.length < 128
  localUfrag : args.localUfrag.length < 16
  localPwd : args.localPwd.length < 44
  advertiseIp : args.advertiseIp.length < 16
  extraCount : args.extraIps.length ≤ 16
  extraIps : ∀ ip, some ip ∈ args.extraIps → ip.length < 16

/-- So do the values of an offer that are printed. -/
structure SdpOffer.Printable (offer : SdpOffer) : Prop where
  videoMid : offer.videoMid.length < 24
  audioMid : offer.audioMid.length < 24
  h264PayloadType : 0 ≤ offer.h264PayloadType ∧ offer.h264PayloadType < 2 ^ 31

/-- The arguments are within the bounds of `sdp_build_answer_multi`: an address is a text of 45 bytes at
most, and the numbers of the extra addresses do not wrap. -/
structure SdpAnswerArgs.Bounded (args : SdpAnswerArgs) : Prop where
  localFingerprint : args.localFingerprint.length ≤ 127
  localUfrag : args.localUfrag.length ≤ 15
  localPwd : args.localPwd.length ≤ 43
  advertiseIp : args.advertiseIp.length ≤ 45
  extraCount : args.extraIps.length ≤ 10 ^ 8
  extraIps : ∀ ip, some ip ∈ args.extraIps → ip.length ≤ 45

/-- So are the values of an offer, with any `int` for the payload type. -/
structure SdpOffer.Bounded (offer : SdpOffer) : Prop where
  videoMid : offer.videoMid.length ≤ 23
  audioMid : offer.audioMid.length ≤ 23
  h264PayloadType : -2 ^ 31 ≤ offer.h264PayloadType ∧ offer.h264PayloadType < 2 ^ 31

theorem SdpAnswerArgs.Fits.bounded {args : SdpAnswerArgs} (h : args.Fits) : args.Bounded where
  localFingerprint := Nat.le_of_lt_succ h.localFingerprint
  localUfrag := Nat.le_of_lt_succ h.localUfrag
  localPwd := Nat.le_of_lt_succ h.localPwd
  advertiseIp := Nat.le_trans h.advertiseIp.le (by decide)
  extraCount := Nat.le_trans h.extraCount (by decide)
  extraIps ip hip := Nat.le_trans (h.extraIps ip hip).le (by decide)

theorem SdpOffer.Printable.bounded {offer : SdpOffer} (h : offer.Printable) : offer.Bounded where
  videoMid := Nat.le_of_lt_succ h.videoMid
  audioMid := Nat.le_of_lt_succ h.audioMid
  h264PayloadType := ⟨by have := h.h264PayloadType.1; omega, h.h264PayloadType.2⟩

theorem length_decimal_uint16 (n : UInt16) : (decimal n.toNat).length ≤ 5 :=
  (length_decimal_le_iff (by decide)).2 (Nat.lt_trans n.toNat_lt (by decide))

theorem length_decimal_uint32 (n : UInt32) : (decimal n.toNat).length ≤ 10 :=
  (length_decimal_le_iff (by decide)).2 (Nat.lt_trans n.toNat_lt (by decide))

variable {offer : SdpOffer} {args : SdpAnswerArgs}

theorem SdpOffer.Bounded.length_pt (h : offer.Bounded) :
    (formatInt offer.h264PayloadType).length ≤ 11 := by
  have hbounds := h.h264PayloadType
  have hdigits : (decimal offer.h264PayloadType.natAbs).length ≤ 10 :=
    (length_decimal_le_iff (by decide)).2 (by omega)
  rw [formatInt]
  split_ifs
  · rw [List.length_cons]
    omega
  · omega

theorem length_videoMid (h : offer.Bounded) : (videoMid offer).length ≤ 23 := by
  rw [videoMid]
  split_ifs
  · exact h.videoMid
  · decide

theorem length_audioMid (h : offer.Bounded) : (audioMid offer).length ≤ 23 := by
  rw [audioMid]
  split_ifs
  · exact h.audioMid
  · decide

/-- No line is longer than 150 bytes. -/
theorem length_headerLines (ho : offer.Bounded) (ha : args.Bounded) :
    ∀ l ∈ headerLines offer args, l.length ≤ 150 := by
  have hmid := length_videoMid ho
  obtain ⟨hfp, hufrag, hpwd, hip, -, -⟩ := ha
  simp only [headerLines, List.forall_mem_cons, List.length_append]
  simp [ascii]
  omega

theorem length_audioLines (ho : offer.Bounded) : ∀ l ∈ audioLines offer, l.length ≤ 150 := by
  have hmid := length_audioMid ho
  simp only [audioLines, List.forall_mem_cons, List.length_append]
  simp [ascii]
  omega

theorem length_videoLines (ho : offer.Bounded) (ha : args.Bounded) :
    ∀ l ∈ videoLines offer args, l.length ≤ 150 := by
  have hmid := length_videoMid ho
  have hpt := ho.length_pt
  have hssrc := length_decimal_uint32 args.ssrc
  obtain ⟨hfp, hufrag, hpwd, hip, -, -⟩ := ha
  simp only [videoLines, List.forall_mem_cons, List.length_append]
  simp [ascii]
  omega

theorem length_candidateLine (ha : args.Bounded) : (candidateLine args).length ≤ 150 := by
  have hport := length_decimal_uint16 args.udpPort
  have hip := ha.advertiseIp
  simp only [candidateLine, List.length_append]
  simp [ascii]
  omega

theorem length_extraCandidateLine {i : ℕ} (hi : i < 10 ^ 8) {ip : List UInt8} (hip : ip.length ≤ 45) :
    (extraCandidateLine args i ip).length ≤ 150 := by
  have hport := length_decimal_uint16 args.udpPort
  have hprio := length_decimal_uint32 (extraPriority i)
  have hfoundation : (decimal (i + 2)).length ≤ 9 := (length_decimal_le_iff (by decide)).2 (by omega)
  simp only [extraCandidateLine, List.length_append]
  simp [ascii]
  omega

/-- Every line for an extra address is the candidate of one of them. -/
theorem exists_of_mem_extraCandidateLines {i : ℕ} {ips : List (Option (List UInt8))} {l : List UInt8}
    (h : l ∈ extraCandidateLines args i ips) :
    ∃ j ip, i ≤ j ∧ j < i + ips.length ∧ some ip ∈ ips ∧ l = extraCandidateLine args j ip := by
  fun_induction extraCandidateLines args i ips with
  | case1 => exact absurd h List.not_mem_nil
  | case2 i ips ih | case3 i ip ips hskip ih =>
    obtain ⟨j, ip, hij, hj, hip, hl⟩ := ih h
    exact ⟨j, ip, by omega, by rw [List.length_cons]; omega, List.mem_cons_of_mem _ hip, hl⟩
  | case4 i ip ips hskip ih =>
    rcases List.mem_cons.1 h with rfl | h
    · exact ⟨i, ip, Nat.le_refl i, by rw [List.length_cons]; omega, List.mem_cons_self, rfl⟩
    · obtain ⟨j, ip', hij, hj, hip, hl⟩ := ih h
      exact ⟨j, ip', by omega, by rw [List.length_cons]; omega, List.mem_cons_of_mem _ hip, hl⟩

theorem length_answerLines (ho : offer.Bounded) (ha : args.Bounded) (n : ℕ) :
    ∀ l ∈ answerLines offer args n, l.length ≤ 150 := by
  have haudio : ∀ l ∈ if offer.hasAudio then audioLines offer else [], l.length ≤ 150 := by
    split_ifs
    · exact length_audioLines ho
    · exact fun l hl ↦ absurd hl List.not_mem_nil
  rw [answerLines, videoSection]
  simp only [List.forall_mem_append, List.forall_mem_singleton]
  refine ⟨⟨length_headerLines ho ha, haudio⟩,
    ⟨⟨length_videoLines ho ha, length_candidateLine ha⟩, fun l hl ↦ ?_⟩, by decide⟩
  obtain ⟨j, ip, -, hj, hip, rfl⟩ := exists_of_mem_extraCandidateLines hl
  have hcount := ha.extraCount
  rw [List.length_take] at hj
  exact length_extraCandidateLine (by omega) (ha.extraIps ip (List.mem_of_mem_take hip))

theorem sdpPrint_of_length_le {text printed : List UInt8} (htext : text.length ≤ 8192)
    (hprinted : printed.length ≤ 8192) : sdpPrint text printed = .ok (text ++ printed) := by
  have htext : ¬ sdpBufferSize < text.length := Nat.not_lt.2 htext
  rw [sdpPrint, if_neg htext, if_neg (by omega)]

/-- One turn of the loop: an address that is printed, and the break when the buffer is nearly full. -/
theorem sdpCandidates_cons {args : SdpAnswerArgs} (i : ℕ) {ip : List UInt8} (ips : List (Option (List UInt8)))
    {text : List UInt8} (hnew : ¬ (ip = [] ∨ ip = args.advertiseIp)) (htext : text.length ≤ 8192)
    (hline : (crlf [extraCandidateLine args i ip]).length ≤ 8192) :
    sdpCandidates args i (some ip :: ips) text =
      if sdpBufferSize < (text ++ crlf [extraCandidateLine args i ip]).length + 256 then
        .ok (text ++ crlf [extraCandidateLine args i ip])
      else sdpCandidates args (i + 1) ips (text ++ crlf [extraCandidateLine args i ip]) := by
  obtain ⟨hnil, hip⟩ := not_or.1 hnew
  rw [sdpCandidates, if_neg hnil, if_neg hip, sdpPrint_of_length_le htext hline]
  rfl

/-- With room for every address the loop goes through all of them. -/
theorem sdpCandidates_of_fits (args : SdpAnswerArgs) {i : ℕ} {ips : List (Option (List UInt8))}
    (text : List UInt8)
    (hcount : i + ips.length ≤ 16) (hips : ∀ ip, some ip ∈ ips → ip.length < 16)
    (htext : text.length + 152 * ips.length ≤ 7936) :
    sdpCandidates args i ips text = .ok (text ++ crlf (extraCandidateLines args i ips)) ∧
      (crlf (extraCandidateLines args i ips)).length ≤ 152 * ips.length := by
  induction ips generalizing i text with
  | nil => exact ⟨by rw [sdpCandidates, extraCandidateLines, crlf, List.flatMap_nil, List.append_nil],
      Nat.zero_le _⟩
  | cons ip ips ih =>
    rw [List.length_cons] at hcount htext
    have hrest : ∀ ip, some ip ∈ ips → ip.length < 16 :=
      fun ip hip ↦ hips ip (List.mem_cons_of_mem _ hip)
    have hskip := ih (i := i + 1) text (by omega) hrest (by omega)
    -- An empty slot, an address that is not printed, or one line more.
    cases ip with
    | none => exact ⟨hskip.1, Nat.le_trans hskip.2 (by rw [List.length_cons]; omega)⟩
    | some ip =>
      rw [extraCandidateLines]
      by_cases hsame : ip = [] ∨ ip = args.advertiseIp
      · rw [sdpCandidates, if_pos hsame, List.length_cons]
        refine ⟨?_, Nat.le_trans hskip.2 (by omega)⟩
        rcases hsame with hnil | hip
        · rw [if_pos hnil]
          exact hskip.1
        · rw [if_pos hip, ite_self]
          exact hskip.1
      · have hline : (crlf [extraCandidateLine args i ip]).length ≤ 1 * 152 := by
          refine length_crlf_le ?_
          simpa using length_extraCandidateLine (by omega)
            (Nat.le_trans (hips ip List.mem_cons_self).le (by decide))
        have hlen : (text ++ crlf [extraCandidateLine args i ip]).length ≤ text.length + 152 := by
          rw [List.length_append]
          omega
        obtain ⟨hok, hrestLen⟩ := ih (i := i + 1)
          (text ++ crlf [extraCandidateLine args i ip]) (by omega) hrest (by omega)
        have hcons : crlf (extraCandidateLine args i ip :: extraCandidateLines args (i + 1) ips) =
            crlf [extraCandidateLine args i ip] ++ crlf (extraCandidateLines args (i + 1) ips) :=
          crlf_append [_] _
        rw [sdpCandidates_cons i ips hsame (by omega) (by omega), if_neg hsame, hcons, List.length_cons,
          ← List.append_assoc, sdpBufferSize, if_neg (by omega)]
        refine ⟨hok, ?_⟩
        rw [List.length_append]
        omega

/-- The text in front of the extra addresses. -/
def textBefore (offer : SdpOffer) (args : SdpAnswerArgs) : List UInt8 :=
  crlf (headerLines offer args) ++ crlf (if offer.hasAudio then audioLines offer else []) ++
    crlf (videoLines offer args) ++ crlf [candidateLine args]

theorem crlf_answerLines (offer : SdpOffer) (args : SdpAnswerArgs) (n : ℕ) :
    crlf (answerLines offer args n) =
      textBefore offer args ++ crlf (extraCandidateLines args 0 (args.extraIps.take n)) ++
        crlf [ascii "a=end-of-candidates"] := by
  rw [answerLines, videoSection, textBefore]
  simp only [crlf_append, List.append_assoc]

theorem length_textBefore (ho : offer.Bounded) (ha : args.Bounded) :
    (textBefore offer args).length ≤ 35 * 152 := by
  have hheader : (crlf (headerLines offer args)).length ≤ 12 * 152 :=
    length_crlf_le (length_headerLines ho ha)
  have haudio : (crlf (if offer.hasAudio then audioLines offer else [])).length ≤ 4 * 152 := by
    split_ifs
    · exact length_crlf_le (length_audioLines ho)
    · exact Nat.zero_le _
  have hvideo : (crlf (videoLines offer args)).length ≤ 18 * 152 := length_crlf_le (length_videoLines ho ha)
  have hfirst : (crlf [candidateLine args]).length ≤ 1 * 152 :=
    length_crlf_le (by simpa using length_candidateLine ha)
  simp only [textBefore, List.length_append]
  omega

/-- The text in the buffer, given what the loop makes of the text in front of it. -/
theorem sdpAnswerText_of_loop (hbefore : (textBefore offer args).length ≤ 8192) {text : List UInt8}
    (hloop : sdpCandidates args 0 args.extraIps (textBefore offer args) = .ok text)
    (htext : text.length ≤ 8192) :
    sdpAnswerText offer args = .ok (text ++ crlf [ascii "a=end-of-candidates"]) := by
  rw [textBefore] at hloop hbefore
  set header := crlf (headerLines offer args) with hheader
  set audio := crlf (if offer.hasAudio then audioLines offer else []) with haudio
  set video := crlf (videoLines offer args) with hvideo
  set first := crlf [candidateLine args] with hfirst
  simp only [List.length_append] at hbefore
  -- Every part fits behind those in front of it, as the whole does.
  have hprintAudio : sdpPrintAudio offer header = .ok (header ++ audio) := by
    rw [sdpPrintAudio, haudio]
    split_ifs with h
    · rw [if_pos h] at haudio
      rw [haudio] at hbefore
      exact sdpPrint_of_length_le (by omega) (by omega)
    · exact congrArg _ (List.append_nil header).symm
  rw [sdpAnswerText]
  refine except_bind_eq_ok.2 ⟨header, ?_, ?_⟩
  · exact sdpPrint_of_length_le (Nat.zero_le _) (show header.length ≤ 8192 by omega)
  refine except_bind_eq_ok.2 ⟨header ++ audio, hprintAudio, ?_⟩
  refine except_bind_eq_ok.2 ⟨header ++ audio ++ video, ?_, ?_⟩
  · exact sdpPrint_of_length_le (by rw [List.length_append]; omega) (show video.length ≤ 8192 by omega)
  refine except_bind_eq_ok.2 ⟨header ++ audio ++ video ++ first, ?_, ?_⟩
  · exact sdpPrint_of_length_le (by simp only [List.length_append]; omega)
      (show first.length ≤ 8192 by omega)
  exact except_bind_eq_ok.2 ⟨text, hloop, sdpPrint_of_length_le htext (by decide)⟩

/-- The text in the buffer, with every address. -/
theorem sdpAnswerText_of_fits (ho : offer.Printable) (ha : args.Fits) :
    sdpAnswerText offer args = .ok (crlf (answerLines offer args args.extraIps.length)) ∧
      (crlf (answerLines offer args args.extraIps.length)).length < sdpBufferSize := by
  have hbefore := length_textBefore ho.bounded ha.bounded
  have hcount := ha.extraCount
  obtain ⟨hloop, hextra⟩ := sdpCandidates_of_fits args (i := 0) (textBefore offer args) (by omega)
    ha.extraIps (by omega)
  have hend : (crlf [ascii "a=end-of-candidates"]).length = 21 := by decide
  have hlines := crlf_answerLines offer args args.extraIps.length
  rw [List.take_length] at hlines
  rw [hlines]
  refine ⟨sdpAnswerText_of_loop (by omega) hloop (by rw [List.length_append]; omega), ?_⟩
  rw [List.length_append, List.length_append, hend, sdpBufferSize]
  omega

/-- **Arguments that fit are answered**, with every address, when the output has room for the answer. -/
theorem sdpBuildAnswerMulti_of_fits (ho : offer.Printable) (ha : args.Fits) (outCapacity : ℕ) :
    sdpBuildAnswerMulti offer args outCapacity =
      if (crlf (answerLines offer args args.extraIps.length)).length < outCapacity then
        .ok (crlf (answerLines offer args args.extraIps.length))
      else .error .zero := by
  obtain ⟨htext, hlen⟩ := sdpAnswerText_of_fits ho ha
  rw [sdpBuildAnswerMulti, htext]
  show (if _ then _ else if _ then _ else _) = _
  by_cases hcap : (crlf (answerLines offer args args.extraIps.length)).length < outCapacity
  · rw [if_neg (Nat.not_lt.2 hcap), if_neg (Nat.not_lt.2 hlen), if_pos hcap]
  · rw [if_pos (Nat.lt_succ_of_le (Nat.not_lt.1 hcap)), if_neg hcap]

/-- A server with one more address. -/
def sampleAnswerArgs : SdpAnswerArgs where
  localFingerprint := ascii "sha-256 AB:CD"
  localUfrag := ascii "abcdefgh"
  localPwd := ascii "abcdefghijklmnopqrstuvwx"
  advertiseIp := ascii "192.0.2.1"
  extraIps := [some (ascii "192.0.2.2")]
  udpPort := 50000
  ssrc := 7

theorem fits_sampleAnswerArgs : sampleAnswerArgs.Fits where
  localFingerprint := by decide
  localUfrag := by decide
  localPwd := by decide
  advertiseIp := by decide
  extraCount := by decide
  extraIps := fun ip hip ↦ by
    obtain rfl := Option.some.inj (List.mem_singleton.1 hip)
    decide

end Camstream
