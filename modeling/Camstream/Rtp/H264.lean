import Mathlib.Data.Int.Notation
import Camstream.Lib.Bytes

/-!
# The RTP packetizer for H.264

`src/webrtc/rtp_h264.c`: an Annex-B access unit in, complete RTP packets out, through a callback
called once per packet. NAL units within the packet budget go out whole; larger ones are cut into
FU-A fragments (RFC 6184).

The embedding keeps the shape of the source. The scanner `nextNal` is index based, with its two
loops; the packetizer walks with a cursor and looks one NAL ahead before it decides the marker bit.
The callback becomes the list of its calls, in order: no callback of the program touches the
packetizer, so nothing is lost by collecting the calls.

Sizes are natural numbers. `int emitted` is an integer: it would need an access unit of several
gigabytes to leave the range of an `int`, and signed overflow has no behaviour to model.
-/

namespace Camstream

open Bytes

/-- `RTP_HEADER_SIZE` -/
def rtpHeaderSize : ℕ := 12

/-- `RTP_MAX_PACKET` -/
def rtpMaxPacket : ℕ := 1200

/-- `H264_NALU_FU_A` -/
def h264NaluFuA : UInt8 := 28

/-- `struct RtpH264` -/
structure RtpH264 where
  ssrc : UInt32
  payloadType : UInt32
  sequence : UInt16
  basePtsUs : UInt64
  haveBase : Bool
  lastTimestamp : UInt32
  packets : UInt32
  octets : UInt32
  deriving DecidableEq, Repr

/-- `rtp_h264_create`: `calloc`, so everything starts at zero. -/
def rtpH264Create : RtpH264 :=
  ⟨0, 0, 0, 0, false, 0, 0, 0⟩

/-- `rtp_h264_reset`. The sequence counter is deliberately kept. -/
def rtpH264Reset (p : RtpH264) (ssrc payloadType : UInt32) : RtpH264 :=
  { p with ssrc := ssrc, payloadType := payloadType, haveBase := false, packets := 0, octets := 0 }

/-! ### The start code scanner -/

/-- The test both loops of `next_nal` make at one position: the length of the start code there, or
`0`. The caller has checked that three bytes are left. -/
def startCodeAt (data : List UInt8) (i : ℕ) : ℕ :=
  if data.getD i 0 = 0 ∧ data.getD (i + 1) 0 = 0 ∧ data.getD (i + 2) 0 = 1 then 3
  else if i + 4 ≤ data.length ∧ data.getD i 0 = 0 ∧ data.getD (i + 1) 0 = 0 ∧
      data.getD (i + 2) 0 = 0 ∧ data.getD (i + 3) 0 = 1 then 4
  else 0

/-- The first loop of `next_nal`: the first start code at or after `start`, with its length. -/
def nextNalStart (data : List UInt8) (start : ℕ) : Option (ℕ × ℕ) :=
  if start + 3 ≤ data.length then
    if startCodeAt data start = 0 then nextNalStart data (start + 1)
    else some (start, startCodeAt data start)
  else none
termination_by data.length - start

/-- The second loop of `next_nal`: the next start code, or the end of the buffer. -/
def nextNalEnd (data : List UInt8) (stop : ℕ) : ℕ :=
  if stop + 3 ≤ data.length then
    if startCodeAt data stop = 0 then nextNalEnd data (stop + 1) else stop
  else data.length
termination_by data.length - stop

/-- `next_nal`: offset and length of the next NAL unit, `none` when the buffer is exhausted. -/
def nextNal (data : List UInt8) (cursor : ℕ) : Option (ℕ × ℕ) :=
  match nextNalStart data cursor with
  | none => none
  | some (start, codeLen) => some (start + codeLen, nextNalEnd data (start + codeLen) - (start + codeLen))

/-! ### Emitting packets -/

/-- One call of the packet sink. -/
structure SinkCall where
  packet : List UInt8
  marker : Bool
  sequence : UInt16
  deriving DecidableEq, Repr

/-- What `rtp_h264_packetize` has built so far: the packetizer, the calls made, `emitted`. -/
structure PacketizeState where
  p : RtpH264
  calls : List SinkCall
  emitted : ℤ
  deriving DecidableEq, Repr

/-- The RTP fixed header, as the first twelve bytes of `packet`. -/
def rtpHeader (p : RtpH264) (rtpTs : UInt32) (marker : Bool) : List UInt8 :=
  [0x80, (if marker then 0x80 else 0x00) ||| (p.payloadType &&& 0x7F).toUInt8] ++
    be16 p.sequence.toNat ++ be32 rtpTs.toNat ++ be32 p.ssrc.toNat

/-- The tail both branches share: advance the sequence counter, complete the header, call the sink,
count. -/
def emitPacket (rtpTs : UInt32) (st : PacketizeState) (marker : Bool) (payload : List UInt8) :
    PacketizeState :=
  let p := { st.p with sequence := st.p.sequence + 1 }
  { p := { p with packets := p.packets + 1, octets := p.octets + UInt32.ofNat payload.length }
    calls := st.calls ++ [⟨rtpHeader p rtpTs marker ++ payload, marker, p.sequence⟩]
    emitted := st.emitted + 1 }

/-- FU indicator and FU header of a fragment of a NAL unit that starts with `nriType`. -/
def fuHeader (nriType : UInt8) (first last : Bool) : List UInt8 :=
  [(nriType &&& 0x60) ||| h264NaluFuA,
    (if first then 0x80 else 0x00) ||| (if last then 0x40 else 0x00) ||| (nriType &&& 0x1F)]

/-- The FU-A loop: `chunk` bytes at a time from `offset` on, the last fragment marked as such, and
with the RTP marker when no NAL unit follows. -/
def fuALoop (rtpTs : UInt32) (nal : List UInt8) (hasMore : Bool) (st : PacketizeState)
    (offset : ℕ) : PacketizeState :=
  if offset < nal.length then
    let chunk := rtpMaxPacket - rtpHeaderSize - 2
    let last := decide (nal.length - offset ≤ chunk)
    let take := min (nal.length - offset) chunk
    let st := emitPacket rtpTs st (last && !hasMore)
      (fuHeader (nal.getD 0 0) (offset == 1) last ++ (nal.drop offset).take take)
    fuALoop rtpTs nal hasMore st (offset + take)
  else st
termination_by nal.length - offset
decreasing_by
  simp only [rtpMaxPacket, rtpHeaderSize]
  omega

/-- The body of the walk: one NAL unit, whole or fragmented. -/
def emitNal (rtpTs : UInt32) (nal : List UInt8) (hasMore : Bool) (st : PacketizeState) :
    PacketizeState :=
  if nal.length ≤ rtpMaxPacket - rtpHeaderSize then emitPacket rtpTs st (!hasMore) nal
  else fuALoop rtpTs nal hasMore st 1

/-- The one-NAL lookahead that decides the marker bit. -/
def hasMoreNal (au : List UInt8) (after : ℕ) : Bool :=
  match nextNal au after with
  | none => false
  | some (_, probeLength) => decide (0 < probeLength)

/-! ### The walk over the access unit -/

theorem nextNalStart_bounds {data : List UInt8} {start : ℕ} {r : ℕ × ℕ}
    (h : nextNalStart data start = some r) :
    start ≤ r.1 ∧ 0 < r.2 ∧ r.1 + r.2 ≤ data.length := by
  fun_induction nextNalStart data start with
  | case1 start hle hz ih =>
    have := ih h
    omega
  | case2 start hle hz =>
    obtain rfl := Option.some.inj h
    refine ⟨Nat.le_refl _, Nat.pos_of_ne_zero hz, ?_⟩
    rw [startCodeAt]
    split_ifs with h3 h4 <;> simp only at * <;> omega
  | case3 start hle => exact absurd h (by simp)

theorem nextNalEnd_bounds {data : List UInt8} {stop : ℕ} (h : stop ≤ data.length) :
    stop ≤ nextNalEnd data stop ∧ nextNalEnd data stop ≤ data.length := by
  fun_induction nextNalEnd data stop with
  | case1 stop hle hz ih =>
    have := ih (by omega)
    omega
  | case2 stop hle hz => omega
  | case3 stop hle => omega

/-- The scanner always moves forward and stays inside the buffer: this is why the walk ends. -/
theorem nextNal_bounds {data : List UInt8} {cursor : ℕ} {r : ℕ × ℕ}
    (h : nextNal data cursor = some r) : cursor < r.1 ∧ r.1 + r.2 ≤ data.length := by
  rw [nextNal] at h
  rcases hs : nextNalStart data cursor with - | ⟨start, codeLen⟩ <;> rw [hs] at h
  · exact absurd h (by simp)
  · obtain rfl := Option.some.inj h
    have hb := nextNalStart_bounds hs
    have he := nextNalEnd_bounds hb.2.2
    simp only at hb he ⊢
    omega

/-- The main loop of `rtp_h264_packetize`. An empty NAL unit is skipped; the cursor then moves to its
offset, and otherwise to the end of the NAL unit just sent. -/
def packetizeLoop (rtpTs : UInt32) (au : List UInt8) (st : PacketizeState) (cursor : ℕ) :
    PacketizeState :=
  match _hnal : nextNal au cursor with
  | none => st
  | some (nalOffset, nalLength) =>
    if nalLength = 0 then packetizeLoop rtpTs au st nalOffset
    else
      let after := nalOffset + nalLength
      let nal := (au.drop nalOffset).take nalLength
      packetizeLoop rtpTs au (emitNal rtpTs nal (hasMoreNal au after) st) after
termination_by au.length - cursor
decreasing_by
  all_goals
    have := nextNal_bounds ‹nextNal au cursor = _›
    simp only at this
    omega

/-- `rtp_h264_packetize`: the packetizer afterwards, the sink calls in order, the return value. -/
def rtpH264Packetize (p : RtpH264) (au : List UInt8) (ptsUs : UInt64) :
    RtpH264 × List SinkCall × ℤ :=
  if au.length = 0 then (p, [], -1)
  else
    let p := if p.haveBase then p else { p with basePtsUs := ptsUs, haveBase := true }
    let deltaUs := if p.basePtsUs ≤ ptsUs then ptsUs - p.basePtsUs else 0
    let rtpTs := (deltaUs * 90000 / 1000000).toUInt32
    let st := packetizeLoop rtpTs au ⟨{ p with lastTimestamp := rtpTs }, [], 0⟩ 0
    (st.p, st.calls, st.emitted)

end Camstream
