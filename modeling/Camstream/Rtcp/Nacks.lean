import Mathlib.Data.List.Basic
import Mathlib.Tactic.Common
import Camstream.Rtcp.Feedback

/-!
# What a compound packet asks for

`rtcp_parse` fills an array of 128 sequence numbers while it walks. Here the walk is a list of packets
(`rtcpPackets`), and the numbers a compound mentions are read off it without a bound (`nackMentions`).
`nackSeq_rtcpParse` compares the two: the parser keeps the first 128 mentions, in order.
-/

namespace Camstream

open Bytes

/-- The packets of a compound from `offset` on: where each starts and how long it is. The walk ends at
the first one that is not version 2 or not complete. -/
def rtcpPackets (buffer : List UInt8) (length offset : ℕ) : List (ℕ × ℕ) :=
  if offset + 4 ≤ length ∧ (buffer.getD offset 0) >>> 6 = 2 ∧
      offset + (readBe16 buffer (offset + 2) + 1) * 4 ≤ length then
    (offset, (readBe16 buffer (offset + 2) + 1) * 4) ::
      rtcpPackets buffer length (offset + (readBe16 buffer (offset + 2) + 1) * 4)
  else []
termination_by length - offset

/-- The numbers one FCI entry mentions. -/
def fciMentions (pid mask : ℕ) : List ℕ :=
  pid :: ((List.range 16).filter mask.testBit).map fun bit ↦ (pid + bit + 1) % 2 ^ 16

/-- The numbers the FCI entries from `i` on mention. -/
def fciListMentions (buffer : List UInt8) (stop i : ℕ) : List ℕ :=
  if i + 4 ≤ stop then
    fciMentions (readBe16 buffer i) (readBe16 buffer (i + 2)) ++ fciListMentions buffer stop (i + 4)
  else []
termination_by stop - i

/-- The numbers one packet mentions: those of a Generic NACK. -/
def packetMentions (buffer : List UInt8) (p : ℕ × ℕ) : List ℕ :=
  if (buffer.getD (p.1 + 1) 0).toNat = 205 ∧ (buffer.getD p.1 0) &&& 0x1F = 1 then
    fciListMentions buffer (p.1 + p.2) (p.1 + 12)
  else []

/-- The numbers a compound packet mentions, in order and with repetitions. -/
def nackMentions (packet : List UInt8) : List ℕ :=
  (rtcpPackets packet packet.length 0).flatMap (packetMentions packet)

/-- Whether the compound has a BYE. -/
def hasBye (packet : List UInt8) : Bool :=
  (rtcpPackets packet packet.length 0).any fun p ↦ (packet.getD (p.1 + 1) 0).toNat = 203

/-! ### The array of the parser -/

theorem pushNack_eq_take {nacks : List ℕ} (h : nacks.length ≤ rtcpMaxNacks) (seq : ℕ) :
    pushNack nacks seq = (nacks ++ [seq]).take rtcpMaxNacks := by
  rw [pushNack]
  split_ifs with hroom
  · rw [List.take_of_length_le (by rw [List.length_append, List.length_singleton]; omega)]
  · rw [List.take_append_of_le_length (by omega), List.take_of_length_le h]

/-- Numbers that do not fit are dropped, wherever they come from. -/
theorem take_take_append (l r : List ℕ) (n : ℕ) : (l.take n ++ r).take n = (l ++ r).take n := by
  rw [List.take_append, List.take_append, List.take_take, Nat.min_self, List.length_take]
  congr 2
  omega

theorem foldl_pushNack {nacks : List ℕ} (h : nacks.length ≤ rtcpMaxNacks) (seqs : List ℕ) :
    seqs.foldl pushNack nacks = (nacks ++ seqs).take rtcpMaxNacks := by
  induction seqs generalizing nacks with
  | nil => rw [List.foldl_nil, List.append_nil, List.take_of_length_le h]
  | cons seq seqs ih =>
    rw [List.foldl_cons, pushNack_eq_take h, ih (List.length_take_le _ _), take_take_append,
      List.append_assoc]
    rfl

theorem nackEntry_eq_take {nacks : List ℕ} (h : nacks.length ≤ rtcpMaxNacks) (pid mask : ℕ) :
    nackEntry nacks pid mask = (nacks ++ fciMentions pid mask).take rtcpMaxNacks := by
  have hbits : ∀ (bits : List ℕ) (nacks : List ℕ),
      bits.foldl (fun nacks bit ↦
        if mask.testBit bit then pushNack nacks ((pid + bit + 1) % 2 ^ 16) else nacks) nacks =
      ((bits.filter mask.testBit).map fun bit ↦ (pid + bit + 1) % 2 ^ 16).foldl pushNack nacks := by
    intro bits
    induction bits with
    | nil => exact fun _ ↦ rfl
    | cons bit bits ih =>
      intro nacks
      rw [List.foldl_cons, List.filter_cons, ih]
      split_ifs <;> rfl
  rw [nackEntry, hbits, ← List.foldl_cons, foldl_pushNack h]
  rfl

theorem nackLoop_eq_take (buffer : List UInt8) (stop i : ℕ) {nacks : List ℕ}
    (h : nacks.length ≤ rtcpMaxNacks) :
    nackLoop buffer stop i nacks =
      (nacks ++ fciListMentions buffer stop i).take rtcpMaxNacks := by
  fun_induction nackLoop buffer stop i nacks with
  | case1 i nacks hgo ih =>
    rw [fciListMentions, if_pos hgo.1]
    rw [nackEntry_eq_take h] at ih ⊢
    rw [ih (List.length_take_le _ _), take_take_append, List.append_assoc]
  | case2 i nacks hstop =>
    -- The loop stops at the end of the packet or when the array is full.
    rw [fciListMentions]
    split_ifs with hmore
    · rw [List.take_append_of_le_length (by omega), List.take_of_length_le h]
    · rw [List.append_nil, List.take_of_length_le h]

/-- What one packet of the compound adds. -/
theorem rtcpPacket_spec (buffer : List UInt8) (offset packetLen : ℕ) {feedback : RtcpFeedback}
    (h : feedback.nackSeq.length ≤ rtcpMaxNacks) :
    (rtcpPacket buffer offset packetLen feedback).nackSeq =
        (feedback.nackSeq ++ packetMentions buffer (offset, packetLen)).take rtcpMaxNacks ∧
      (rtcpPacket buffer offset packetLen feedback).bye =
        (feedback.bye || decide ((buffer.getD (offset + 1) 0).toNat = 203)) := by
  have hkeep : (feedback.nackSeq ++ []).take rtcpMaxNacks = feedback.nackSeq := by
    rw [List.append_nil, List.take_of_length_le h]
  have hnone : (buffer.getD (offset + 1) 0).toNat ≠ 205 →
      packetMentions buffer (offset, packetLen) = [] := fun ht ↦ if_neg fun hnack ↦ ht hnack.1
  rw [rtcpPacket]
  split
  next ht =>
    rw [packetMentions, ht]
    split_ifs with hfmt hmentions hmentions
    · exact ⟨nackLoop_eq_take _ _ _ h, (Bool.or_false _).symm⟩
    · exact absurd ⟨rfl, hfmt⟩ hmentions
    · exact absurd hmentions.2 hfmt
    · exact ⟨hkeep.symm, (Bool.or_false _).symm⟩
  next ht =>
    rw [hnone (by rw [ht]; decide), hkeep, ht]
    split_ifs <;> exact ⟨rfl, (Bool.or_false _).symm⟩
  next ht =>
    rw [hnone (by rw [ht]; decide), hkeep, ht]
    exact ⟨rfl, (Bool.or_true _).symm⟩
  next ht =>
    rw [hnone (by rw [ht]; decide), hkeep, ht]
    split_ifs <;> exact ⟨rfl, (Bool.or_false _).symm⟩
  next h205 _ h203 _ =>
    rw [hnone h205, hkeep, decide_eq_false h203, Bool.or_false]
    exact ⟨rfl, rfl⟩

theorem rtcpParseLoop_spec (buffer : List UInt8) (length offset : ℕ) {feedback : RtcpFeedback}
    (h : feedback.nackSeq.length ≤ rtcpMaxNacks) :
    (rtcpParseLoop buffer length offset feedback).nackSeq =
        (feedback.nackSeq ++ (rtcpPackets buffer length offset).flatMap
          (packetMentions buffer)).take rtcpMaxNacks ∧
      (rtcpParseLoop buffer length offset feedback).bye =
        (feedback.bye || (rtcpPackets buffer length offset).any
          fun p ↦ (buffer.getD (p.1 + 1) 0).toNat = 203) := by
  have hkeep : (feedback.nackSeq ++ []).take rtcpMaxNacks = feedback.nackSeq := by
    rw [List.append_nil, List.take_of_length_le h]
  fun_induction rtcpParseLoop buffer length offset feedback with
  | case1 offset feedback hroom hversion =>
    rw [rtcpPackets, if_neg fun hgo ↦ hversion hgo.2.1]
    exact ⟨hkeep.symm, (Bool.or_false _).symm⟩
  | case2 offset feedback hroom hversion packetLen hlong =>
    rw [rtcpPackets, if_neg fun hgo ↦ Nat.not_le.2 hlong hgo.2.2]
    exact ⟨hkeep.symm, (Bool.or_false _).symm⟩
  | case3 offset feedback hroom hversion packetLen hlong ih =>
    obtain ⟨hnacks, hbye⟩ := rtcpPacket_spec buffer offset packetLen h
    have hlen : (rtcpPacket buffer offset packetLen feedback).nackSeq.length ≤ rtcpMaxNacks := by
      rw [hnacks]
      exact List.length_take_le _ _
    obtain ⟨ihnacks, ihbye⟩ := ih hlen (by rw [List.append_nil, List.take_of_length_le hlen])
    rw [rtcpPackets, if_pos ⟨hroom, not_not.1 hversion, Nat.not_lt.1 hlong⟩, ihnacks, ihbye, hnacks,
      hbye, take_take_append, List.append_assoc, Bool.or_assoc]
    exact ⟨rfl, rfl⟩
  | case4 offset feedback hroom =>
    rw [rtcpPackets, if_neg fun hgo ↦ hroom hgo.1]
    exact ⟨hkeep.symm, (Bool.or_false _).symm⟩

/-- **What the parser keeps**: the first 128 mentions. -/
theorem nackSeq_rtcpParse (packet : List UInt8) :
    (rtcpParse packet packet.length).nackSeq = (nackMentions packet).take rtcpMaxNacks :=
  (rtcpParseLoop_spec packet packet.length 0 (Nat.zero_le _)).1

theorem bye_rtcpParse (packet : List UInt8) :
    (rtcpParse packet packet.length).bye = hasBye packet :=
  (rtcpParseLoop_spec packet packet.length 0 (Nat.zero_le _)).2

end Camstream
