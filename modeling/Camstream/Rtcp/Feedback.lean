import Camstream.Lib.Bytes
import Mathlib.Data.Nat.Bitwise

/-!
# RTCP

`src/webrtc/rtcp.c`: the sender report and the parser for the feedback a viewer sends. The parser walks a
compound packet by the length fields; Generic NACK entries are expanded into the sequence numbers they
name, up to 128 of them in all.
-/

namespace Camstream

open Bytes

/-- `rtcp_build_sender_report`, as the 28 bytes it writes. -/
def rtcpBuildSenderReport (ssrc : UInt32) (ntpWallUs : ℕ) (rtpTs packetCount octetCount : UInt32) :
    List UInt8 :=
  let ntpSecs := ntpWallUs / 1000000 + 2208988800
  let ntpFrac := (ntpWallUs % 1000000) * 2 ^ 32 / 1000000
  [0x80, 200] ++ be16 6 ++ be32 ssrc.toNat ++ be32 ntpSecs ++ be32 ntpFrac ++ be32 rtpTs.toNat ++
    be32 packetCount.toNat ++ be32 octetCount.toNat

/-- `RtcpFeedback`. The array of sequence numbers and its length are one list. -/
structure RtcpFeedback where
  pli : ℕ
  fir : ℕ
  bye : Bool
  nackSeq : List ℕ
  hasRr : Bool
  rrFractionLost : UInt8
  rrJitter : ℕ
  rrHighestSeq : ℕ
  deriving DecidableEq, Repr

/-- The capacity of `nack_seq`. -/
def rtcpMaxNacks : ℕ := 128

/-- Append a sequence number if there is room. -/
def pushNack (nacks : List ℕ) (seq : ℕ) : List ℕ :=
  if nacks.length < rtcpMaxNacks then nacks ++ [seq] else nacks

/-- One FCI entry: the packet id and, for every bit of the mask, the packet that far behind it. -/
def nackEntry (nacks : List ℕ) (pid mask : ℕ) : List ℕ :=
  (List.range 16).foldl
    (fun nacks bit ↦
      if mask.testBit bit then pushNack nacks ((pid + bit + 1) % 2 ^ 16) else nacks)
    (pushNack nacks pid)

/-- The loop over the FCI entries of a Generic NACK. -/
def nackLoop (buffer : List UInt8) (stop i : ℕ) (nacks : List ℕ) : List ℕ :=
  if i + 4 ≤ stop ∧ nacks.length < rtcpMaxNacks then
    nackLoop buffer stop (i + 4) (nackEntry nacks (readBe16 buffer i) (readBe16 buffer (i + 2)))
  else nacks
termination_by stop - i

/-- The `switch` of `rtcp_parse` on one packet of the compound. -/
def rtcpPacket (buffer : List UInt8) (offset packetLen : ℕ) (feedback : RtcpFeedback) :
    RtcpFeedback :=
  let countOrFmt := (buffer.getD offset 0) &&& 0x1F
  match (buffer.getD (offset + 1) 0).toNat with
  | 205 =>
    if countOrFmt = 1 then
      { feedback with
        nackSeq := nackLoop buffer (offset + packetLen) (offset + 12) feedback.nackSeq }
    else feedback
  | 201 =>
    if 1 ≤ countOrFmt ∧ 8 + 24 ≤ packetLen then
      { feedback with
        hasRr := true
        rrFractionLost := buffer.getD (offset + 12) 0
        rrHighestSeq := readBe32 buffer (offset + 16)
        rrJitter := readBe32 buffer (offset + 20) }
    else feedback
  | 203 => { feedback with bye := true }
  | 206 =>
    if countOrFmt = 1 then { feedback with pli := feedback.pli + 1 }
    else if countOrFmt = 4 then { feedback with fir := feedback.fir + 1 }
    else feedback
  | _ => feedback

/-- The loop of `rtcp_parse`. A packet is at least four bytes long, so the test for a length of zero is
not needed to end it. -/
def rtcpParseLoop (buffer : List UInt8) (length offset : ℕ) (feedback : RtcpFeedback) :
    RtcpFeedback :=
  if offset + 4 ≤ length then
    if (buffer.getD offset 0) >>> 6 ≠ 2 then feedback
    else
      let packetLen := (readBe16 buffer (offset + 2) + 1) * 4
      if length < offset + packetLen then feedback
      else
        rtcpParseLoop buffer length (offset + packetLen)
          (rtcpPacket buffer offset packetLen feedback)
  else feedback
termination_by length - offset

/-- `rtcp_parse` -/
def rtcpParse (buffer : List UInt8) (length : ℕ) : RtcpFeedback :=
  rtcpParseLoop buffer length 0 ⟨0, 0, false, [], false, 0, 0, 0⟩

/-- A Generic NACK for packet 513 and the one behind it. -/
example : (rtcpParse [0x81, 205, 0, 3, 0, 0, 0, 0, 0, 0, 0, 0, 2, 1, 0, 1] 16).nackSeq = [513, 514] := by
  decide +kernel

end Camstream
