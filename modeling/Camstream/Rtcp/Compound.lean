import Camstream.Lib.Framing
import Camstream.Rtcp.Bounds
import Camstream.Rtcp.Nacks

/-!
# Compound packets

The abstract side of `rtcp_parse`. A buffer is split into packets that carry their own length, and what the
parser reports is read off the list of packets (`feedbackOf`), with no offset and no bound on the walk. On
lists of packets laid end to end the results combine (`feedbackOf_append`).

`rtcpParse_compound` is the comparison: the parser computes `feedbackOf` of the longest splitting, reads
nothing else, and combines over a buffer that is consumed entirely.
-/

namespace Camstream

open Bytes Framing

/-- A packet of a compound: version 2, and as long as its length field says. -/
def IsRtcpPacket (p : List UInt8) : Prop :=
  p.getD 0 0 >>> 6 = 2 ∧ p.length = (readBe16 p 2 + 1) * 4

/-- The report count of a report, the format of a feedback message. -/
def countOrFmt (p : List UInt8) : UInt8 :=
  p.getD 0 0 &&& 0x1F

def packetType (p : List UInt8) : ℕ :=
  (p.getD 1 0).toNat

/-- The complete FCI entries, each a packet id and a mask. -/
def fciEntries : List UInt8 → List (ℕ × ℕ)
  | a :: b :: c :: d :: l =>
    (a.toNat * 2 ^ 8 + b.toNat, c.toNat * 2 ^ 8 + d.toNat) :: fciEntries l
  | _ => []

/-- The numbers a packet asks for: those of a Generic NACK. -/
def nackedSeqs (p : List UInt8) : List ℕ :=
  if packetType p = 205 ∧ countOrFmt p = 1 then
    (fciEntries (p.drop 12)).flatMap fun entry ↦ fciMentions entry.1 entry.2
  else []

/-- What the parser takes from a report block. -/
structure ReportBlock where
  fractionLost : UInt8
  highestSeq : ℕ
  jitter : ℕ
  deriving DecidableEq, Repr

/-- The first report block of a Receiver Report that has one. -/
def reportBlock? (p : List UInt8) : Option ReportBlock :=
  if packetType p = 201 ∧ 1 ≤ countOrFmt p ∧ 32 ≤ p.length then
    some ⟨p.getD 12 0, readBe32 p 16, readBe32 p 20⟩
  else none

/-- The last report of a compound. -/
def lastReport (ps : List (List UInt8)) : Option ReportBlock :=
  (ps.filterMap reportBlock?).getLast?

/-- **The feedback of a compound**, as these packets. -/
def feedbackOf (ps : List (List UInt8)) : RtcpFeedback where
  pli := ps.countP fun p ↦ packetType p = 206 ∧ countOrFmt p = 1
  fir := ps.countP fun p ↦ packetType p = 206 ∧ countOrFmt p = 4
  bye := ps.any fun p ↦ packetType p = 203
  nackSeq := (ps.flatMap nackedSeqs).take rtcpMaxNacks
  hasRr := (lastReport ps).isSome
  rrFractionLost := (lastReport ps).elim 0 ReportBlock.fractionLost
  rrJitter := (lastReport ps).elim 0 ReportBlock.jitter
  rrHighestSeq := (lastReport ps).elim 0 ReportBlock.highestSeq

/-- The feedback of one compound behind another. -/
def RtcpFeedback.combine (a b : RtcpFeedback) : RtcpFeedback where
  pli := a.pli + b.pli
  fir := a.fir + b.fir
  bye := a.bye || b.bye
  nackSeq := (a.nackSeq ++ b.nackSeq).take rtcpMaxNacks
  hasRr := a.hasRr || b.hasRr
  rrFractionLost := if b.hasRr then b.rrFractionLost else a.rrFractionLost
  rrJitter := if b.hasRr then b.rrJitter else a.rrJitter
  rrHighestSeq := if b.hasRr then b.rrHighestSeq else a.rrHighestSeq

/-! ### Results combine -/

/-- Numbers that do not fit are dropped on the right as well. -/
theorem take_append_take (l r : List ℕ) (n : ℕ) : (l ++ r.take n).take n = (l ++ r).take n := by
  rw [List.take_append, List.take_append, List.take_take, Nat.min_eq_left (Nat.sub_le _ _)]

/-- The last report of two compounds. -/
theorem lastReport_append (ps qs : List (List UInt8)) :
    lastReport (ps ++ qs) = (lastReport qs).or (lastReport ps) := by
  rw [lastReport, List.filterMap_append, List.getLast?_append, lastReport, lastReport]

/-- A field of the later report where there is one. -/
theorem elim_or {β : Type} (a b : Option ReportBlock) (x : β) (f : ReportBlock → β) :
    (b.or a).elim x f = if b.isSome then b.elim x f else a.elim x f := by
  cases b <;> rfl

/-- **The feedback of packets laid end to end.** -/
theorem feedbackOf_append (ps qs : List (List UInt8)) :
    feedbackOf (ps ++ qs) = (feedbackOf ps).combine (feedbackOf qs) := by
  simp only [feedbackOf, RtcpFeedback.combine, lastReport_append, elim_or, List.countP_append,
    List.any_append, List.flatMap_append, take_take_append, take_append_take, Option.isSome_or,
    Bool.or_comm]
  rfl

/-! ### One packet of the compound -/

theorem selfDelimiting_rtcpPacket : SelfDelimiting IsRtcpPacket := by
  intro p p' l l' hp hp' h
  have hwords : readBe16 p 2 = readBe16 p' 2 := by
    rw [← readBe16_append_left (by rw [hp.2]; omega) l, h, readBe16_append_left (by rw [hp'.2]; omega)]
  exact List.append_inj_left h (by rw [hp.2, hwords, hp'.2])

/-- The FCI entries the loop walks over. -/
theorem fciListMentions_eq (p : List UInt8) (i : ℕ) :
    fciListMentions p p.length i =
      (fciEntries (p.drop i)).flatMap fun entry ↦ fciMentions entry.1 entry.2 := by
  induction hn : p.length - i using Nat.strong_induction_on generalizing i with
  | _ n ih =>
    rw [fciListMentions]
    split_ifs with hroom
    · have hdrop : p.drop i = p.getD i 0 :: p.getD (i + 1) 0 :: p.getD (i + 2) 0 ::
          p.getD (i + 3) 0 :: p.drop (i + 4) := by
        rw [List.getD_eq_getElem _ _ (by omega), List.getD_eq_getElem _ _ (by omega),
          List.getD_eq_getElem _ _ (by omega), List.getD_eq_getElem _ _ (by omega),
          List.drop_eq_getElem_cons (i := i) (by omega), List.drop_eq_getElem_cons (i := i + 1) (by omega),
          List.drop_eq_getElem_cons (i := i + 2) (by omega),
          List.drop_eq_getElem_cons (i := i + 3) (by omega)]
      rw [hdrop, fciEntries, List.flatMap_cons, ih _ (by omega) (i + 4) rfl]
      rfl
    · have hshort : (p.drop i).length < 4 := by
        rw [List.length_drop]
        omega
      rw [fciEntries]
      · rfl
      · intro a b c d l h
        rw [h] at hshort
        exact absurd hshort (by simp only [List.length_cons]; omega)

theorem lastReport_singleton (p : List UInt8) : lastReport [p] = reportBlock? p := by
  rw [lastReport, List.filterMap_cons]
  cases reportBlock? p <;> rfl

/-- **One packet** is added to what the packets before it gave. -/
theorem rtcpPacket_self (p : List UInt8) {feedback : RtcpFeedback}
    (h : feedback.nackSeq.length ≤ rtcpMaxNacks) :
    rtcpPacket p 0 p.length feedback = feedback.combine (feedbackOf [p]) := by
  have hkeep : feedback.nackSeq.take rtcpMaxNacks = feedback.nackSeq := List.take_of_length_le h
  have hloop : nackLoop p (0 + p.length) (0 + 12) feedback.nackSeq =
      (feedback.nackSeq ++ (fciEntries (p.drop 12)).flatMap fun entry ↦
        fciMentions entry.1 entry.2).take rtcpMaxNacks := by
    rw [Nat.zero_add, Nat.zero_add, nackLoop_eq_take _ _ _ h, fciListMentions_eq]
  have hcount : p.getD 0 0 &&& 0x1F = countOrFmt p := rfl
  have htype : (p.getD (0 + 1) 0).toNat = packetType p := rfl
  simp only [RtcpFeedback.combine, feedbackOf, lastReport_singleton, List.countP_singleton, List.any_cons,
    List.any_nil, Bool.or_false, List.flatMap_cons, List.flatMap_nil, List.append_nil, take_append_take,
    decide_eq_true_eq, reportBlock?, nackedSeqs]
  rw [rtcpPacket, hloop, hcount, htype]
  -- Both sides branch by the packet type alone.
  generalize packetType p = type
  split
  · rcases eq_or_ne (countOrFmt p) 1 with hfmt | hfmt
    · simp [hfmt]
    · simp [hfmt, hkeep]
  · by_cases hreport : 1 ≤ countOrFmt p ∧ 32 ≤ p.length
    · simp [hreport, hkeep]
    · simp [hreport, hkeep]
  · simp [hkeep]
  · rcases eq_or_ne (countOrFmt p) 1 with hpli | hpli
    · simp [hpli, hkeep]
    · rcases eq_or_ne (countOrFmt p) 4 with hfir | hfir
      · simp [hfir, hkeep]
      · simp [hpli, hfir, hkeep]
  next h205 h201 h203 h206 =>
    simp [eq_false h205, eq_false h201, eq_false h203, eq_false h206, hkeep]

/-- The same, wherever the packet lies. -/
theorem rtcpPacket_feedbackOf {p buffer : List UInt8} {offset : ℕ} (hp : IsRtcpPacket p)
    (h : p <+: buffer.drop offset) (ps : List (List UInt8)) :
    rtcpPacket buffer offset p.length (feedbackOf ps) = feedbackOf (ps ++ [p]) := by
  have hlen : 4 ≤ p.length := by
    rw [hp.2]
    omega
  rw [feedbackOf_append, ← rtcpPacket_self p (List.length_take_le _ _)]
  exact Option.some.inj ((rtcpPacketChecked_eq (matches_of_isPrefix h) hlen _).symm.trans
    (rtcpPacketChecked_eq (matches_self p) hlen _))

/-! ### The compound -/

variable {buffer : List UInt8} {length offset : ℕ}

/-- A packet, in the words of the loop. -/
theorem isRtcpPacket_iff {p : List UInt8} (h : p <+: buffer.drop offset) (hlen : 4 ≤ p.length) :
    IsRtcpPacket p ↔
      buffer.getD offset 0 >>> 6 = 2 ∧ p.length = (readBe16 buffer (offset + 2) + 1) * 4 := by
  have hat := matches_of_isPrefix h
  have hfirst : p.getD (0 + 0) 0 = buffer.getD (offset + 0) 0 := hat.getD (by omega)
  have hwords : readBe16 p (0 + 2) = readBe16 buffer (offset + 2) := hat.readBe16 (by omega)
  rw [Nat.zero_add] at hfirst hwords
  rw [IsRtcpPacket, hfirst, hwords, Nat.add_zero]

/-- Where the loop stops, no packet stands. -/
theorem stuck_drop (hstop : ¬ (offset + 4 ≤ length ∧ buffer.getD offset 0 >>> 6 = 2 ∧
      offset + (readBe16 buffer (offset + 2) + 1) * 4 ≤ length)) :
    Stuck IsRtcpPacket ((buffer.take length).drop offset) := by
  intro p hp hpre
  have hle := hpre.length_le
  rw [List.drop_take] at hpre
  rw [List.length_drop, List.length_take] at hle
  have hlen : 4 ≤ p.length := by
    rw [hp.2]
    omega
  obtain ⟨hversion, hwords⟩ := (isRtcpPacket_iff (hpre.trans (List.take_prefix _ _)) hlen).1 hp
  exact hstop ⟨by omega, hversion, by omega⟩

/-- The loop, after the packets `ps`. -/
theorem rtcpParseLoop_feedbackOf (h : length ≤ buffer.length) (ps : List (List UInt8)) :
    ∃ qs rest, Splits IsRtcpPacket ((buffer.take length).drop offset) qs rest ∧
      Stuck IsRtcpPacket rest ∧
      rtcpParseLoop buffer length offset (feedbackOf ps) = feedbackOf (ps ++ qs) := by
  induction hn : length - offset using Nat.strong_induction_on generalizing offset ps with
  | _ n ih =>
    subst hn
    rw [rtcpParseLoop]
    dsimp only
    by_cases hgo : offset + 4 ≤ length ∧ buffer.getD offset 0 >>> 6 = 2 ∧
        offset + (readBe16 buffer (offset + 2) + 1) * 4 ≤ length
    · obtain ⟨hroom, hversion, hfits⟩ := hgo
      rw [if_pos hroom, if_neg (not_not.2 hversion), if_neg (Nat.not_lt.2 hfits)]
      generalize hpacketLen : (readBe16 buffer (offset + 2) + 1) * 4 = packetLen at hfits ⊢
      -- The packet in front, and the rest of the compound.
      have hsplit := List.take_append_drop packetLen ((buffer.take length).drop offset)
      rw [List.drop_drop] at hsplit
      generalize hp : ((buffer.take length).drop offset).take packetLen = p at hsplit
      have hlen : p.length = packetLen := by
        rw [← hp, List.length_take, List.length_drop, List.length_take]
        omega
      have hpre : p <+: buffer.drop offset := by
        rw [← hp, List.drop_take]
        exact (List.take_prefix _ _).trans (List.take_prefix _ _)
      have hpacket : IsRtcpPacket p :=
        (isRtcpPacket_iff hpre (by omega)).2 ⟨hversion, hlen.trans hpacketLen.symm⟩
      obtain ⟨qs, rest, hsplits, hstuck, hloop⟩ :=
        ih (length - (offset + packetLen)) (by omega) (ps ++ [p]) rfl
      refine ⟨p :: qs, rest, hsplit ▸ hsplits.cons hpacket, hstuck, ?_⟩
      rw [← hlen, rtcpPacket_feedbackOf hpacket hpre, hlen, hloop, List.append_assoc]
      rfl
    · refine ⟨[], _, Splits.nil _, stuck_drop hgo, ?_⟩
      rw [List.append_nil]
      split_ifs with hroom hversion hlong
      · rfl
      · rfl
      · exact absurd ⟨hroom, not_not.1 hversion, Nat.not_lt.1 hlong⟩ hgo
      · rfl

theorem rtcpParse_eq (h : length ≤ buffer.length) :
    ∃ ps rest, Splits IsRtcpPacket (buffer.take length) ps rest ∧ Stuck IsRtcpPacket rest ∧
      rtcpParse buffer length = feedbackOf ps :=
  @rtcpParseLoop_feedbackOf buffer length 0 h []

/-- A whole buffer, as any splitting of it into packets and a rest where none stands. -/
theorem rtcpParse_splits {a rest : List UInt8} {ps : List (List UInt8)} (h : Splits IsRtcpPacket a ps rest)
    (hstuck : Stuck IsRtcpPacket rest) : rtcpParse a a.length = feedbackOf ps := by
  obtain ⟨qs, rest', hsplits, hstuck', heq⟩ := rtcpParse_eq (Nat.le_refl a.length)
  rw [List.take_length] at hsplits
  have hle := hsplits.isPrefix selfDelimiting_rtcpPacket hstuck' h
  have hge := h.isPrefix selfDelimiting_rtcpPacket hstuck hsplits
  rw [heq, hle.eq_of_length_le hge.length_le]

theorem pli_add_fir_singleton_le (p : List UInt8) :
    (feedbackOf [p]).pli + (feedbackOf [p]).fir ≤ 1 := by
  simp only [feedbackOf, List.countP_singleton, decide_eq_true_eq]
  split_ifs with hpli hfir
  · exact absurd (hpli.2.symm.trans hfir.2) (by decide)
  · exact Nat.le_refl 1
  · exact Nat.le_refl 1
  · exact Nat.zero_le 1

/-- An indication is a packet, so that the counters hold every count a buffer below 8 GiB can give. -/
theorem pli_add_fir_le {l rest : List UInt8} {ps : List (List UInt8)} (h : Splits IsRtcpPacket l ps rest) :
    4 * ((feedbackOf ps).pli + (feedbackOf ps).fir) ≤ l.length := by
  induction ps generalizing l with
  | nil => exact Nat.zero_le _
  | cons p ps ih =>
    have hrest := ih ⟨rfl, fun q hq ↦ h.packet q (List.mem_cons_of_mem _ hq)⟩
    have hone := pli_add_fir_singleton_le p
    have hlen := (h.packet p List.mem_cons_self).2
    rw [h.eq, List.flatten_cons, List.append_assoc, List.length_append, ← List.singleton_append,
      feedbackOf_append]
    simp only [RtcpFeedback.combine]
    omega

/-- **Compound packets**, endpoint: for every buffer, the parser computes the feedback of the packets in the
longest splitting of its first `length` bytes and reads nothing else; and over a buffer of packets only the
result combines with that of what follows. -/
theorem rtcpParse_compound :
    (∀ (buffer : List UInt8) (length : ℕ), length ≤ buffer.length →
      rtcpParseChecked (buffer.take length) length = some (rtcpParse buffer length) ∧
      ∃ ps rest, Splits IsRtcpPacket (buffer.take length) ps rest ∧
        (∀ ps' rest', Splits IsRtcpPacket (buffer.take length) ps' rest' → ps' <+: ps) ∧
        rtcpParse buffer length = feedbackOf ps ∧
        4 * ((rtcpParse buffer length).pli + (rtcpParse buffer length).fir) ≤ length) ∧
    ∀ (a b : List UInt8) (ps : List (List UInt8)), Splits IsRtcpPacket a ps [] →
      rtcpParse (a ++ b) (a ++ b).length =
        (rtcpParse a a.length).combine (rtcpParse b b.length) := by
  refine ⟨fun buffer length h ↦ ⟨rtcpParseChecked_take h, ?_⟩, fun a b ps hsplits ↦ ?_⟩
  · obtain ⟨ps, rest, hsplits, hstuck, heq⟩ := rtcpParse_eq h
    refine ⟨ps, rest, hsplits, fun ps' rest' ↦ hsplits.isPrefix selfDelimiting_rtcpPacket hstuck, heq, ?_⟩
    have hle := pli_add_fir_le hsplits
    rwa [List.length_take, Nat.min_eq_left h, ← heq] at hle
  · obtain ⟨qs, rest, hrest, hstuck, heq⟩ := rtcpParse_eq (Nat.le_refl b.length)
    rw [List.take_length] at hrest
    have hempty : Stuck IsRtcpPacket [] := fun p hp hpre ↦ by
      have hlen := hp.2
      rw [List.prefix_nil.1 hpre, List.length_nil] at hlen
      omega
    rw [rtcpParse_splits (hsplits.append hrest) hstuck, rtcpParse_splits hsplits hempty, heq,
      feedbackOf_append]

/-- A PLI in front of a BYE, both counted, from a buffer with two bytes behind them. -/
theorem rtcpParse_compound_sample :
    rtcpParse ([0x81, 206, 0, 0] ++ [0x80, 203, 0, 0, 0x80, 206]) 10 =
      (rtcpParse [0x81, 206, 0, 0] 4).combine (rtcpParse [0x80, 203, 0, 0, 0x80, 206] 6) ∧
    rtcpParseChecked [0x81, 206, 0, 0, 0x80, 203, 0, 0] 8 =
      some (rtcpParse [0x81, 206, 0, 0, 0x80, 203, 0, 0] 8) := by
  have hpacket : IsRtcpPacket [0x81, 206, 0, 0] := ⟨by decide, by decide⟩
  exact ⟨rtcpParse_compound.2 _ _ _ ((Splits.nil []).cons hpacket),
    (rtcpParse_compound.1 [0x81, 206, 0, 0, 0x80, 203, 0, 0] 8 (by decide)).1⟩

end Camstream
