import Camstream.Lib.CBuffer
import Camstream.Sdp.Injection

/-!
# The answer in its buffer

`sdp_build_answer_multi` with the array of 8192 bytes it prints into, whose contents are arbitrary at first.
The results of `snprintf` are added to the offset whether or not the text was cut, so nothing but the sizes
keeps the offset inside the array: every piece in front of the loop is short, and the loop ends as soon as
fewer than 256 bytes are left, which is more than a candidate and the last line need
(`exists_sdpCandidates`).

`sdpBuildAnswerMulti_bounded` is for lists of extra addresses of any length up to the one where the
priorities would wrap.
-/

namespace Camstream

open CString CBuffer Lines

/-! ### The function -/

/-- `written = snprintf(buffer + offset, sizeof(buffer) - offset, …)` and the lines after it. The size that
is left is a `size_t`. -/
def sdpPrintTo (s : List UInt8 × ℕ) (text : List UInt8) : Except SdpFailure (List UInt8 × ℕ) :=
  let size := (s.1.length + (2 ^ 64 - s.2)) % 2 ^ 64
  match snprintf s.1 s.2 size text with
  | none => .error .overrun
  | some buffer => if 2 ^ 31 ≤ text.length then .error .zero else .ok (buffer, s.2 + text.length)

/-- The loop over the extra addresses, from number `i` on. -/
def sdpCandidatesTo (args : SdpAnswerArgs) :
    ℕ → List (Option (List UInt8)) → List UInt8 × ℕ → Except SdpFailure (List UInt8 × ℕ)
  | _, [], s => .ok s
  | i, none :: ips, s => sdpCandidatesTo args (i + 1) ips s
  | i, some ip :: ips, s =>
    if ip = [] then sdpCandidatesTo args (i + 1) ips s
    else if ip = args.advertiseIp then sdpCandidatesTo args (i + 1) ips s
    else do
      let s ← sdpPrintTo s (crlf [extraCandidateLine args i ip])
      if s.1.length < s.2 + 256 then .ok s
      else sdpCandidatesTo args (i + 1) ips s

/-- The audio section, if there is one. -/
def sdpPrintAudioTo (offer : SdpOffer) (s : List UInt8 × ℕ) : Except SdpFailure (List UInt8 × ℕ) :=
  if offer.hasAudio then sdpPrintTo s (crlf (audioLines offer)) else .ok s

/-- `buffer` and `offset` in front of the last test. -/
def sdpAnswerTo (offer : SdpOffer) (args : SdpAnswerArgs) (buffer : List UInt8) :
    Except SdpFailure (List UInt8 × ℕ) := do
  let s ← sdpPrintTo (buffer, 0) (crlf (headerLines offer args))
  let s ← sdpPrintAudioTo offer s
  let s ← sdpPrintTo s (crlf (videoLines offer args))
  let s ← sdpPrintTo s (crlf [candidateLine args])
  let s ← sdpCandidatesTo args 0 args.extraIps s
  sdpPrintTo s (crlf [ascii "a=end-of-candidates"])

/-- The last test, and the copy to `out`. -/
def sdpCopyOut (out : List UInt8) (outCapacity : ℕ) :
    Except SdpFailure (List UInt8 × ℕ) → Option (List UInt8 × ℕ)
  | .error .overrun => none
  | .error .zero => some (out, 0)
  | .ok (buffer, offset) =>
    if outCapacity < offset + 1 then some (out, 0)
    else if buffer.length < offset + 1 ∨ out.length < offset + 1 then none
    else some (Bytes.writeAt out 0 (buffer.take (offset + 1)), offset)

/-- `sdp_build_answer_multi`: `out` and the return value, `none` for an access outside the arrays. -/
def sdpBuildAnswerMultiTo (offer : SdpOffer) (args : SdpAnswerArgs) (buffer : Vector UInt8 sdpBufferSize)
    (out : List UInt8) (outCapacity : ℕ) : Option (List UInt8 × ℕ) :=
  sdpCopyOut out outCapacity (sdpAnswerTo offer args buffer.toList)

/-! ### The text in the buffer -/

/-- The buffer begins with a text, and the offset is its length. -/
structure HoldsText (s : List UInt8 × ℕ) (text : List UInt8) : Prop where
  length : s.1.length = sdpBufferSize
  offset : s.2 = text.length
  text : text <+: s.1

/-- **A piece that fits** is printed behind the others, with a zero behind it. -/
theorem exists_sdpPrintTo {s : List UInt8 × ℕ} {text printed text' : List UInt8} (h : HoldsText s text)
    (hprint : sdpPrint text printed = .ok text') (hfit : text'.length < sdpBufferSize) :
    ∃ s', sdpPrintTo s printed = .ok s' ∧ HoldsText s' text' ∧ text' ++ [0] <+: s'.1 := by
  obtain ⟨buffer, offset⟩ := s
  obtain ⟨hlength, rfl, htext⟩ := h
  have hsize : sdpBufferSize = 8192 := rfl
  have htext' := sdpPrint_eq_ok hprint
  have hlen : text'.length = text.length + printed.length := by rw [htext', List.length_append]
  dsimp only at hlength htext
  have hleft : (buffer.length + (2 ^ 64 - text.length)) % 2 ^ 64 = buffer.length - text.length := by omega
  obtain ⟨buffer', hbuffer', hholds, hlength'⟩ := exists_snprintf htext
    (show text.length + printed.length < buffer.length by omega)
  rw [← htext'] at hholds
  refine ⟨(buffer', text.length + printed.length), ?_,
    ⟨hlength'.trans hlength, hlen.symm, (List.prefix_append _ _).trans hholds⟩, hholds⟩
  rw [sdpPrintTo]
  dsimp only
  rw [hleft, hbuffer']
  dsimp only
  rw [if_neg (by omega)]

/-- The loop only appends. -/
theorem length_le_of_sdpCandidates {args : SdpAnswerArgs} {i : ℕ} {ips : List (Option (List UInt8))}
    {text text' : List UInt8} (h : sdpCandidates args i ips text = .ok text') :
    text.length ≤ text'.length := by
  obtain ⟨n, -, rfl⟩ := sdpCandidates_eq_ok h
  rw [List.length_append]
  omega

/-- The loop in the buffer does what the loop over the text does. -/
theorem exists_sdpCandidatesTo {args : SdpAnswerArgs} {i : ℕ} {ips : List (Option (List UInt8))}
    {s : List UInt8 × ℕ} {text text' : List UInt8} (h : HoldsText s text)
    (hloop : sdpCandidates args i ips text = .ok text') (hfit : text'.length < sdpBufferSize) :
    ∃ s', sdpCandidatesTo args i ips s = .ok s' ∧ HoldsText s' text' := by
  -- Both loops go along the same addresses. They stop together, since the buffer holds the text.
  fun_induction sdpCandidates args i ips text generalizing s with
  | case1 i text => exact ⟨s, rfl, Except.ok.inj hloop ▸ h⟩
  | case2 i ips text ih => exact ih h hloop
  | case3 i ips text ih =>
    rw [sdpCandidatesTo, if_pos rfl]
    exact ih h hloop
  | case4 i ips text hne ih =>
    rw [sdpCandidatesTo, if_neg hne, if_pos rfl]
    exact ih h hloop
  | case5 i ip ips text hne hip ih =>
    obtain ⟨text₁, hprint, hrest⟩ := except_bind_eq_ok.1 hloop
    have hlen : text₁.length ≤ text'.length := by
      split_ifs at hrest
      · exact (congrArg List.length (Except.ok.inj hrest)).le
      · exact length_le_of_sdpCandidates hrest
    obtain ⟨s₁, hs₁, hholds, -⟩ := exists_sdpPrintTo h hprint (Nat.lt_of_le_of_lt hlen hfit)
    rw [sdpCandidatesTo, if_neg hne, if_neg hip, hs₁]
    show ∃ s', (if s₁.1.length < s₁.2 + 256 then _ else _) = _ ∧ _
    rw [hholds.length, hholds.offset]
    split_ifs at hrest ⊢
    · exact ⟨s₁, rfl, Except.ok.inj hrest ▸ hholds⟩
    · exact ih text₁ hholds hrest

/-- **The buffer holds the text**, when all of it fits. -/
theorem exists_sdpAnswerTo {offer : SdpOffer} {args : SdpAnswerArgs} {text : List UInt8}
    (htext : sdpAnswerText offer args = .ok text) (hfit : text.length < sdpBufferSize)
    {buffer : List UInt8} (hbuffer : buffer.length = sdpBufferSize) :
    ∃ s, sdpAnswerTo offer args buffer = .ok s ∧ HoldsText s text ∧ text ++ [0] <+: s.1 := by
  obtain ⟨header, hheader, htext⟩ := except_bind_eq_ok.1 htext
  obtain ⟨audio, haudio, htext⟩ := except_bind_eq_ok.1 htext
  obtain ⟨video, hvideo, htext⟩ := except_bind_eq_ok.1 htext
  obtain ⟨first, hfirst, htext⟩ := except_bind_eq_ok.1 htext
  obtain ⟨all, hall, htext⟩ := except_bind_eq_ok.1 htext
  -- Each text is a part of the next one, so all of them fit.
  have hprintLen : ∀ {t p t' : List UInt8}, sdpPrint t p = .ok t' → t.length ≤ t'.length := by
    intro t p t' h
    rw [sdpPrint_eq_ok h, List.length_append]
    omega
  have haudioLen : header.length ≤ audio.length := by
    rw [sdpPrintAudio] at haudio
    split_ifs at haudio
    · exact hprintLen haudio
    · exact (congrArg List.length (Except.ok.inj haudio)).le
  have hvideoLen := hprintLen hvideo
  have hfirstLen := hprintLen hfirst
  have hallLen := length_le_of_sdpCandidates hall
  have hendLen := hprintLen htext
  have hempty : HoldsText (buffer, 0) [] := ⟨hbuffer, rfl, List.nil_prefix⟩
  obtain ⟨s₁, hs₁, hholds₁, -⟩ := exists_sdpPrintTo hempty hheader (by omega)
  have hs₂ : ∃ s₂, sdpPrintAudioTo offer s₁ = .ok s₂ ∧ HoldsText s₂ audio := by
    rw [sdpPrintAudio] at haudio
    rw [sdpPrintAudioTo]
    split_ifs at haudio ⊢
    · obtain ⟨s₂, hs₂, hholds₂, -⟩ := exists_sdpPrintTo hholds₁ haudio (by omega)
      exact ⟨s₂, hs₂, hholds₂⟩
    · exact ⟨s₁, rfl, Except.ok.inj haudio ▸ hholds₁⟩
  obtain ⟨s₂, hs₂, hholds₂⟩ := hs₂
  obtain ⟨s₃, hs₃, hholds₃, -⟩ := exists_sdpPrintTo hholds₂ hvideo (by omega)
  obtain ⟨s₄, hs₄, hholds₄, -⟩ := exists_sdpPrintTo hholds₃ hfirst (by omega)
  obtain ⟨s₅, hs₅, hholds₅⟩ := exists_sdpCandidatesTo hholds₄ hall (by omega)
  obtain ⟨s₆, hs₆, hholds₆, hzero⟩ := exists_sdpPrintTo hholds₅ htext hfit
  refine ⟨s₆, ?_, hholds₆, hzero⟩
  exact except_bind_eq_ok.2 ⟨s₁, hs₁, except_bind_eq_ok.2 ⟨s₂, hs₂, except_bind_eq_ok.2 ⟨s₃, hs₃,
    except_bind_eq_ok.2 ⟨s₄, hs₄, except_bind_eq_ok.2 ⟨s₅, hs₅, hs₆⟩⟩⟩⟩⟩

/-- What is copied to `out` is the text with its zero, if there is room for both. -/
theorem sdpBuildAnswerMultiTo_of_text {offer : SdpOffer} {args : SdpAnswerArgs} {text : List UInt8}
    (htext : sdpAnswerText offer args = .ok text) (hfit : text.length < sdpBufferSize)
    (buffer : Vector UInt8 sdpBufferSize) {out : List UInt8} {outCapacity : ℕ} (hout : outCapacity ≤ out.length) :
    sdpBuildAnswerMultiTo offer args buffer out outCapacity =
      some (if text.length < outCapacity then (text ++ 0 :: out.drop (text.length + 1), text.length)
        else (out, 0)) := by
  have hbuffer : buffer.toList.length = sdpBufferSize := buffer.length_toList
  obtain ⟨⟨buffer', offset⟩, hs, ⟨hlength, rfl, -⟩, hzero⟩ := exists_sdpAnswerTo htext hfit hbuffer
  dsimp only at hlength hzero
  rw [sdpBuildAnswerMultiTo, hs, sdpCopyOut]
  rcases Nat.lt_or_ge text.length outCapacity with hroom | hroom
  · have htake : buffer'.take (text.length + 1) = text ++ [0] := by
      have h := List.prefix_iff_eq_take.1 hzero
      rwa [List.length_append, eq_comm] at h
    rw [if_neg (by omega), if_neg (by rw [hlength]; omega), if_pos hroom, htake, Bytes.writeAt,
      List.take_zero, List.nil_append, List.length_append, Nat.zero_add, List.append_assoc]
    rfl
  · rw [if_pos (by omega), if_neg (by omega)]

/-! ### The sizes -/

/-- **The loop leaves room for the last line**: it goes on only while 256 bytes are left, and one candidate
takes at most 152 of them. -/
theorem exists_sdpCandidates {args : SdpAnswerArgs} {i : ℕ} {ips : List (Option (List UInt8))}
    {text : List UInt8} (hcount : i + ips.length ≤ 10 ^ 8) (hips : ∀ ip, some ip ∈ ips → ip.length ≤ 45)
    (htext : text.length ≤ 7936) :
    ∃ text', sdpCandidates args i ips text = .ok text' ∧ text'.length ≤ 8088 := by
  fun_induction sdpCandidates args i ips text with
  | case1 i text => exact ⟨text, rfl, by omega⟩
  | case2 i ips text ih | case3 i ips text ih | case4 i ips text _ ih =>
    rw [List.length_cons] at hcount
    exact ih (by omega) (fun ip hip ↦ hips ip (List.mem_cons_of_mem _ hip)) htext
  | case5 i ip ips text hne hip ih =>
    rw [List.length_cons] at hcount
    have hline : (crlf [extraCandidateLine args i ip]).length ≤ 1 * 152 := by
      refine length_crlf_le ?_
      simpa using length_extraCandidateLine (by omega) (hips ip List.mem_cons_self)
    have hlen : (text ++ crlf [extraCandidateLine args i ip]).length ≤ 8088 := by
      rw [List.length_append]
      omega
    rw [sdpPrint_of_length_le (by omega) (by omega)]
    show ∃ text', (if sdpBufferSize < _ + 256 then _ else _) = _ ∧ _
    rw [sdpBufferSize]
    split_ifs with hfull
    · exact ⟨_, rfl, hlen⟩
    · exact ih _ (by omega) (fun ip hip ↦ hips ip (List.mem_cons_of_mem _ hip)) (by omega)

/-- **The text fits the buffer** with its terminating zero. -/
theorem exists_sdpAnswerText {offer : SdpOffer} {args : SdpAnswerArgs} (ho : offer.Bounded)
    (ha : args.Bounded) :
    ∃ text, sdpAnswerText offer args = .ok text ∧ text.length < sdpBufferSize := by
  have hbefore := length_textBefore ho ha
  obtain ⟨text, hloop, hlen⟩ := exists_sdpCandidates
    (show 0 + args.extraIps.length ≤ 10 ^ 8 by rw [Nat.zero_add]; exact ha.extraCount) ha.extraIps
    (show (textBefore offer args).length ≤ 7936 by omega)
  refine ⟨_, sdpAnswerText_of_loop (by omega) hloop (by omega), ?_⟩
  have hend : (crlf [ascii "a=end-of-candidates"]).length = 21 := by decide
  rw [List.length_append, hend, sdpBufferSize]
  omega

/-! ### The candidates -/

/-- The candidates among some lines. -/
def candidateLines (ls : List (List UInt8)) : List (List UInt8) :=
  ls.filter fun line ↦ startsWith line (ascii "a=candidate:")

/-- The foundation of a candidate: the first word, behind the name of the attribute. -/
def candidateFoundation (line : List UInt8) : List UInt8 :=
  (line.drop 12).takeWhile (· ≠ 32)

/-- Its priority: the fourth word. -/
def candidatePriority (line : List UInt8) : ℤ :=
  digitsValue ((split 32 line).getD 3 [])

/-- No two candidates have one foundation, and the priorities go down. -/
structure CandidatesDistinct (ls : List (List UInt8)) : Prop where
  foundations : ((candidateLines ls).map candidateFoundation).Nodup
  priorities : (candidateLines ls).Pairwise fun l l' ↦ candidatePriority l' < candidatePriority l

theorem space_notMem_decimal (n : ℕ) : 32 ∉ decimal n :=
  notMem_decimal (by decide) n

/-- The words of a candidate. -/
theorem candidate_words (foundation priority : ℕ) (rest : List UInt8) :
    let line := ascii "a=candidate:" ++ decimal foundation ++ ascii " 1 udp " ++ decimal priority ++
      ascii " " ++ rest
    candidateFoundation line = decimal foundation ∧ candidatePriority line = priority := by
  intro line
  have hline : line = (ascii "a=candidate:" ++ decimal foundation) ++ 32 :: (ascii "1" ++ 32 ::
      (ascii "udp" ++ 32 :: (decimal priority ++ 32 :: rest))) := by
    simp only [line, List.append_assoc]
    rfl
  have hdrop : line.drop 12 = decimal foundation ++ 32 :: (ascii "1" ++ 32 ::
      (ascii "udp" ++ 32 :: (decimal priority ++ 32 :: rest))) := by
    rw [hline, List.append_assoc]
    exact List.drop_left' (by decide)
  have hfirst : 32 ∉ ascii "a=candidate:" ++ decimal foundation := by
    rw [List.mem_append, not_or]
    exact ⟨by decide, space_notMem_decimal foundation⟩
  constructor
  · rw [candidateFoundation, hdrop]
    exact takeWhile_ne_append (space_notMem_decimal foundation) _
  · rw [candidatePriority, hline, split_append_sep hfirst, split_append_sep (by decide),
      split_append_sep (by decide), split_append_sep (space_notMem_decimal priority)]
    exact digitsValue_decimal priority

/-- The priority of an extra address does not wrap. -/
theorem toNat_extraPriority {i : ℕ} (hi : i < 10 ^ 8) :
    (extraPriority i).toNat = 2130706431 - 10 * (i + 1) := by
  have hprio : (2130706431 - UInt32.ofNat (i + 1) * 10).toNat = 2130706431 - 10 * (i + 1) := by
    have hten : (10 : UInt32).toNat = 10 := rfl
    have htop : (2130706431 : UInt32).toNat = 2130706431 := rfl
    rw [UInt32.toNat_sub, UInt32.toNat_mul, UInt32.toNat_ofNat', hten, htop]
    omega
  have hbig : ¬ 2130706431 - UInt32.ofNat (i + 1) * 10 < 1000 := by
    rw [UInt32.lt_iff_toNat_lt, hprio]
    show ¬ _ < 1000
    omega
  rw [extraPriority, if_neg hbig, hprio]

theorem extraCandidate_words (args : SdpAnswerArgs) {i : ℕ} (hi : i < 10 ^ 8) (ip : List UInt8) :
    candidateFoundation (extraCandidateLine args i ip) = decimal (i + 2) ∧
      candidatePriority (extraCandidateLine args i ip) = 2130706431 - 10 * (i + 1) := by
  obtain ⟨hfoundation, hpriority⟩ := candidate_words (i + 2) (extraPriority i).toNat
    (ip ++ ascii " " ++ decimal args.udpPort.toNat ++ ascii " typ host generation 0")
  simp only [← List.append_assoc] at hfoundation hpriority
  refine ⟨hfoundation, hpriority.trans ?_⟩
  rw [toNat_extraPriority hi]
  omega

theorem candidateLine_words (args : SdpAnswerArgs) :
    candidateFoundation (candidateLine args) = decimal 1 ∧
      candidatePriority (candidateLine args) = 2130706431 := by
  have hpre : ascii "a=candidate:1 1 udp 2130706431 " = ascii "a=candidate:" ++ decimal 1 ++
      ascii " 1 udp " ++ decimal 2130706431 ++ ascii " " := by decide +kernel
  have h := candidate_words 1 2130706431
    (args.advertiseIp ++ ascii " " ++ decimal args.udpPort.toNat ++ ascii " typ host generation 0")
  simp only [← List.append_assoc, ← hpre] at h
  exact h

/-- The lines that are no candidates. -/
theorem candidateLines_eq_nil {ls : List (List UInt8)}
    (h : ∀ l ∈ ls, startsWith l (ascii "a=candidate:") = false) : candidateLines ls = [] :=
  List.filter_eq_nil_iff.2 fun l hl ↦ by rw [h l hl]; decide

/-- The candidates of an answer: the advertised address, and then the extra ones. -/
theorem candidateLines_answerLines (offer : SdpOffer) (args : SdpAnswerArgs) (n : ℕ) :
    candidateLines (answerLines offer args n) =
      candidateLine args :: extraCandidateLines args 0 (args.extraIps.take n) := by
  have hheader : candidateLines (headerLines offer args) = [] := candidateLines_eq_nil (by
    simp +decide (disch := decide) only [headerLines, List.forall_mem_cons, startsWith_append_other])
  have haudio : candidateLines (if offer.hasAudio then audioLines offer else []) = [] := by
    split_ifs
    · exact candidateLines_eq_nil (by
        simp +decide (disch := decide) only [audioLines, List.forall_mem_cons, startsWith_append_other])
    · rfl
  have hvideo : candidateLines (videoLines offer args) = [] := candidateLines_eq_nil (by
    simp +decide (disch := decide) only [videoLines, List.forall_mem_cons, startsWith_append_other,
      List.append_assoc])
  have hcandidate : candidateLines [candidateLine args] = [candidateLine args] := rfl
  have hextra : candidateLines (extraCandidateLines args 0 (args.extraIps.take n)) =
      extraCandidateLines args 0 (args.extraIps.take n) := by
    refine List.filter_eq_self.2 fun l hl ↦ ?_
    obtain ⟨j, ip, -, -, -, rfl⟩ := exists_of_mem_extraCandidateLines hl
    rfl
  have hend : candidateLines [ascii "a=end-of-candidates"] = [] := by decide
  simp only [candidateLines] at *
  rw [answerLines, videoSection]
  simp only [List.filter_append, hheader, haudio, hvideo, hcandidate, hextra, hend, List.nil_append,
    List.append_nil, List.singleton_append]

/-- Two candidates in order. -/
def Precedes (l l' : List UInt8) : Prop :=
  candidateFoundation l ≠ candidateFoundation l' ∧ candidatePriority l' < candidatePriority l

/-- The extra candidates are in order, since each one has its own number. -/
theorem pairwise_extraCandidateLines (args : SdpAnswerArgs) {i : ℕ} {ips : List (Option (List UInt8))}
    (hcount : i + ips.length ≤ 10 ^ 8) : (extraCandidateLines args i ips).Pairwise Precedes := by
  fun_induction extraCandidateLines args i ips with
  | case1 => exact List.Pairwise.nil
  | case2 i ips ih | case3 i ip ips _ ih =>
    rw [List.length_cons] at hcount
    exact ih (by omega)
  | case4 i ip ips _ ih =>
    rw [List.length_cons] at hcount
    refine List.pairwise_cons.2 ⟨fun l hl ↦ ?_, ih (by omega)⟩
    obtain ⟨j, ip', hij, hj, -, rfl⟩ := exists_of_mem_extraCandidateLines hl
    obtain ⟨hfoundation, hpriority⟩ := extraCandidate_words args (show i < 10 ^ 8 by omega) ip
    obtain ⟨hfoundation', hpriority'⟩ := extraCandidate_words args (show j < 10 ^ 8 by omega) ip'
    rw [Precedes, hfoundation, hfoundation', hpriority, hpriority']
    exact ⟨fun h ↦ by have := decimal_injective h; omega, by omega⟩

/-- **The candidates of an answer are distinct**, and their priorities go down. -/
theorem candidatesDistinct_answerLines (offer : SdpOffer) {args : SdpAnswerArgs}
    (hcount : args.extraIps.length ≤ 10 ^ 8) (n : ℕ) : CandidatesDistinct (answerLines offer args n) := by
  have htake : 0 + (args.extraIps.take n).length ≤ 10 ^ 8 := by
    rw [Nat.zero_add]
    exact Nat.le_trans (List.length_take_le' _ _) hcount
  have hordered : (candidateLines (answerLines offer args n)).Pairwise Precedes := by
    rw [candidateLines_answerLines]
    refine List.pairwise_cons.2 ⟨fun l hl ↦ ?_, pairwise_extraCandidateLines args htake⟩
    obtain ⟨j, ip, -, hj, -, rfl⟩ := exists_of_mem_extraCandidateLines hl
    obtain ⟨hfoundation, hpriority⟩ := candidateLine_words args
    obtain ⟨hfoundation', hpriority'⟩ := extraCandidate_words args (show j < 10 ^ 8 by omega) ip
    rw [Precedes, hfoundation, hfoundation', hpriority, hpriority']
    exact ⟨fun h ↦ by have := decimal_injective h; omega, by omega⟩
  exact ⟨List.pairwise_map.2 (hordered.imp And.left), hordered.imp And.right⟩

/-- **Building an answer is bounded, and its candidates are distinct.** For arguments within the bounds,
whatever the buffer held: no access is outside the buffer or the output; if the output has no room nothing
is written to it and the result is `0`, and otherwise it holds complete lines, the last of them
`a=end-of-candidates`, with a zero behind them, and the result is their length. The candidates among the
lines have different foundations and decreasing priorities. -/
theorem sdpBuildAnswerMulti_bounded {offer : SdpOffer} {args : SdpAnswerArgs} (ho : offer.Bounded)
    (ha : args.Bounded) (buffer : Vector UInt8 sdpBufferSize) {out : List UInt8} {outCapacity : ℕ}
    (hout : outCapacity ≤ out.length) :
    ∃ n ≤ args.extraIps.length, ∃ text, text = crlf (answerLines offer args n) ∧
      0 < text.length ∧ text.length < sdpBufferSize ∧
      sdpBuildAnswerMultiTo offer args buffer out outCapacity =
        some (if text.length < outCapacity then (text ++ 0 :: out.drop (text.length + 1), text.length)
          else (out, 0)) ∧
      (answerLines offer args n).getLast? = some (ascii "a=end-of-candidates") ∧
      (0 ∉ videoMid offer → 0 ∉ audioMid offer → args.All (0 ∉ ·) → 0 ∉ text) ∧
      CandidatesDistinct (answerLines offer args n) := by
  obtain ⟨text, htext, hfit⟩ := exists_sdpAnswerText ho ha
  obtain ⟨n, hn, rfl⟩ := sdpAnswerText_eq_ok htext
  refine ⟨n, hn, _, rfl, ?_, hfit, sdpBuildAnswerMultiTo_of_text htext hfit buffer hout, ?_, ?_,
    candidatesDistinct_answerLines offer ha.extraCount n⟩
  · have hend : (crlf [ascii "a=end-of-candidates"]).length = 21 := by decide
    rw [answerLines, videoSection, ← List.append_assoc, crlf_append, List.length_append]
    omega
  · rw [answerLines, videoSection, ← List.append_assoc]
    exact List.getLast?_concat
  · intro hvideo haudio hargs hzero
    -- No line has a zero in it if the values that are echoed have none.
    have hlines := forall_answerLines (P := (0 ∉ ·))
      (fun _ _ hl hl' hmem ↦ (List.mem_append.1 hmem).elim hl hl')
      (fun l hl ↦ hl.notMem (by decide)) hvideo (fun _ ↦ haudio) hargs n
    obtain ⟨l, hl, hmem⟩ := List.mem_flatMap.1 hzero
    rcases List.mem_append.1 hmem with hmem | hmem
    · exact hlines l hl hmem
    · exact absurd hmem (by decide)

/-- The sample offer and arguments, with room for 4095 bytes. -/
theorem sdpBuildAnswerMulti_bounded_sample :
    ∃ n ≤ sampleAnswerArgs.extraIps.length, ∃ text,
      text = crlf (answerLines sampleParsedOffer sampleAnswerArgs n) ∧
      0 < text.length ∧ text.length < sdpBufferSize ∧
      sdpBuildAnswerMultiTo sampleParsedOffer sampleAnswerArgs (Vector.replicate sdpBufferSize 1)
          (List.replicate 4096 1) 4096 =
        some (if text.length < 4096 then
          (text ++ 0 :: (List.replicate 4096 1).drop (text.length + 1), text.length)
          else (List.replicate 4096 1, 0)) ∧
      (answerLines sampleParsedOffer sampleAnswerArgs n).getLast? = some (ascii "a=end-of-candidates") ∧
      (0 ∉ videoMid sampleParsedOffer → 0 ∉ audioMid sampleParsedOffer → sampleAnswerArgs.All (0 ∉ ·) →
        0 ∉ text) ∧
      CandidatesDistinct (answerLines sampleParsedOffer sampleAnswerArgs n) :=
  sdpBuildAnswerMulti_bounded
    ((fits_of_sdpParseOffer sdpParseOffer_sampleOfferText).printable
      (h264PayloadType_bounds sdpParseOffer_sampleOfferText)).bounded
    fits_sampleAnswerArgs.bounded _ List.length_replicate.ge

end Camstream
