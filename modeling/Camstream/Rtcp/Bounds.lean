import Camstream.Rtcp.Feedback

/-!
# What the parser reads

`rtcp_parse` once more, with reads that have to stay inside the memory: `none` is a read past its end. Over
the first `length` bytes of a buffer alone it has the result of `rtcpParse` on the whole buffer
(`rtcpParseChecked_take`), so that it reads nothing at or behind `length`.
-/

namespace Camstream

open Bytes

/-- The loop over the FCI entries, in the memory `mem`. -/
def nackLoopChecked (mem : List UInt8) (stop i : ℕ) (nacks : List ℕ) : Option (List ℕ) :=
  if i + 4 ≤ stop ∧ nacks.length < rtcpMaxNacks then
    match readBe16? mem i, readBe16? mem (i + 2) with
    | some pid, some mask => nackLoopChecked mem stop (i + 4) (nackEntry nacks pid mask)
    | _, _ => none
  else some nacks
termination_by stop - i

/-- The `switch` on one packet. -/
def rtcpPacketChecked (mem : List UInt8) (offset packetLen : ℕ) (feedback : RtcpFeedback) :
    Option RtcpFeedback := do
  let first ← mem[offset]?
  let countOrFmt := first &&& 0x1F
  let packetType ← mem[offset + 1]?
  match packetType.toNat with
  | 205 =>
    if countOrFmt = 1 then do
      let nackSeq ← nackLoopChecked mem (offset + packetLen) (offset + 12) feedback.nackSeq
      some { feedback with nackSeq := nackSeq }
    else some feedback
  | 201 =>
    if 1 ≤ countOrFmt ∧ 8 + 24 ≤ packetLen then do
      let fractionLost ← mem[offset + 12]?
      let highestSeq ← readBe32? mem (offset + 16)
      let jitter ← readBe32? mem (offset + 20)
      some
        { feedback with
          hasRr := true
          rrFractionLost := fractionLost
          rrHighestSeq := highestSeq
          rrJitter := jitter }
    else some feedback
  | 203 => some { feedback with bye := true }
  | 206 =>
    if countOrFmt = 1 then some { feedback with pli := feedback.pli + 1 }
    else if countOrFmt = 4 then some { feedback with fir := feedback.fir + 1 }
    else some feedback
  | _ => some feedback

/-- The loop over the packets. -/
def rtcpParseLoopChecked (mem : List UInt8) (length offset : ℕ) (feedback : RtcpFeedback) :
    Option RtcpFeedback :=
  if offset + 4 ≤ length then
    match mem[offset]? with
    | none => none
    | some first =>
      if first >>> 6 ≠ 2 then some feedback
      else
        match readBe16? mem (offset + 2) with
        | none => none
        | some words =>
          let packetLen := (words + 1) * 4
          if length < offset + packetLen then some feedback
          else
            match rtcpPacketChecked mem offset packetLen feedback with
            | none => none
            | some feedback => rtcpParseLoopChecked mem length (offset + packetLen) feedback
  else some feedback
termination_by length - offset

/-- `rtcp_parse`, where every read is checked. -/
def rtcpParseChecked (mem : List UInt8) (length : ℕ) : Option RtcpFeedback :=
  rtcpParseLoopChecked mem length 0 ⟨0, 0, false, [], false, 0, 0, 0⟩

variable {mem buffer : List UInt8} {i j n : ℕ}

/-- The loop stays inside the packet, wherever the packet lies. -/
theorem nackLoopChecked_eq (h : Matches mem i buffer j n) (k : ℕ) (nacks : List ℕ) :
    nackLoopChecked mem (i + n) (i + k) nacks = some (nackLoop buffer (j + n) (j + k) nacks) := by
  induction hm : n - k using Nat.strong_induction_on generalizing k nacks with
  | _ m ih =>
    subst hm
    rw [nackLoopChecked, nackLoop]
    by_cases hgo : k + 4 ≤ n ∧ nacks.length < rtcpMaxNacks
    · rw [if_pos ⟨by omega, hgo.2⟩, if_pos ⟨by omega, hgo.2⟩, h.readBe16? (by omega), Nat.add_assoc i k 2,
        h.readBe16? (k := k + 2) (by omega)]
      exact ih (n - (k + 4)) (by omega) (k + 4) _ rfl
    · have hmem : ¬ (i + k + 4 ≤ i + n ∧ nacks.length < rtcpMaxNacks) := fun hmem ↦
        hgo ⟨by omega, hmem.2⟩
      have hbuffer : ¬ (j + k + 4 ≤ j + n ∧ nacks.length < rtcpMaxNacks) := fun hbuffer ↦
        hgo ⟨by omega, hbuffer.2⟩
      rw [if_neg hmem, if_neg hbuffer]

/-- **One packet** is read inside its bounds. -/
theorem rtcpPacketChecked_eq (h : Matches mem i buffer j n) (hn : 4 ≤ n) (feedback : RtcpFeedback) :
    rtcpPacketChecked mem i n feedback = some (rtcpPacket buffer j n feedback) := by
  -- The two bytes by which both functions branch are the same.
  have hfirst : mem[i]? = some (buffer.getD j 0) := h 0 (by omega)
  have htype : mem[i + 1]? = some (buffer.getD (j + 1) 0) := h 1 (by omega)
  rw [rtcpPacketChecked, hfirst, htype]
  simp only [Option.bind_eq_bind, Option.bind_some]
  split
  next ht =>
    rw [rtcpPacket, ht]
    rcases eq_or_ne (buffer.getD j 0 &&& 0x1F) 1 with hfmt | hfmt
    · rw [if_pos hfmt, nackLoopChecked_eq h]
      exact congrArg some (if_pos hfmt).symm
    · rw [if_neg hfmt]
      exact congrArg some (if_neg hfmt).symm
  next ht =>
    rw [rtcpPacket, ht]
    by_cases hreport : 1 ≤ buffer.getD j 0 &&& 0x1F ∧ 8 + 24 ≤ n
    · rw [if_pos hreport, h 12 (by omega), h.readBe32? (k := 16) (by omega),
        h.readBe32? (k := 20) (by omega)]
      exact congrArg some (if_pos hreport).symm
    · rw [if_neg hreport]
      exact congrArg some (if_neg hreport).symm
  next ht =>
    rw [rtcpPacket, ht]
    rfl
  next ht =>
    rw [rtcpPacket, ht, ← apply_ite some, ← apply_ite some]
    rfl
  next h205 h201 h203 h206 =>
    rw [rtcpPacket]
    split
    next ht => exact absurd ht h205
    next ht => exact absurd ht h201
    next ht => exact absurd ht h203
    next ht => exact absurd ht h206
    next => rfl

theorem rtcpParseLoopChecked_eq {length : ℕ} (h : Matches mem 0 buffer 0 length) (offset : ℕ)
    (feedback : RtcpFeedback) :
    rtcpParseLoopChecked mem length offset feedback = some (rtcpParseLoop buffer length offset feedback) := by
  have hread {k : ℕ} (hk : k < length) : mem[k]? = some (buffer.getD k 0) := by
    have hk := h k hk
    rwa [Nat.zero_add] at hk
  have hpart {k l : ℕ} (hkl : k + l ≤ length) : Matches mem k buffer k l := by
    have hsub := h.sub hkl
    rwa [Nat.zero_add] at hsub
  have hwords {offset : ℕ} (hroom : offset + 4 ≤ length) :
      readBe16? mem (offset + 2) = some (readBe16 buffer (offset + 2)) :=
    (hpart hroom).readBe16? (k := 2) (by omega)
  -- By induction on the loop. The header of a packet is read only where there is room for it.
  fun_induction rtcpParseLoop buffer length offset feedback with
  | case1 offset feedback hroom hversion =>
    rw [rtcpParseLoopChecked, if_pos hroom, hread (by omega)]
    exact if_pos hversion
  | case2 offset feedback hroom hversion packetLen hlong =>
    rw [rtcpParseLoopChecked, if_pos hroom, hread (by omega), hwords hroom]
    dsimp only
    rw [if_neg hversion]
    exact if_pos hlong
  | case3 offset feedback hroom hversion packetLen hlong ih =>
    rw [rtcpParseLoopChecked, if_pos hroom, hread (by omega), hwords hroom]
    dsimp only
    rw [if_neg hversion, if_neg hlong,
      rtcpPacketChecked_eq (hpart (Nat.not_lt.1 hlong)) (Nat.le_mul_of_pos_left 4 (Nat.succ_pos _))]
    exact ih
  | case4 offset feedback hroom =>
    rw [rtcpParseLoopChecked, if_neg hroom]

/-- **Nothing at or behind `length` is read.** -/
theorem rtcpParseChecked_take {buffer : List UInt8} {length : ℕ} (h : length ≤ buffer.length) :
    rtcpParseChecked (buffer.take length) length = some (rtcpParse buffer length) :=
  rtcpParseLoopChecked_eq (matches_take h) 0 _

end Camstream
