import Camstream.Lib.FixedPoint
import Camstream.Rtcp.Feedback

/-!
# The sender report on the wire

`rtcp_build_sender_report` with the buffer it writes into and the 64-bit arithmetic of its clock, against a
receiver that reads the packet by itself. The clock is a fixed-point number with 2^32 steps to the second,
rounded down from a count of microseconds, so the receiver gets every microsecond back within the 2^32
seconds that the number spans.
-/

namespace Camstream

open Bytes FixedPoint

/-- `RTCP_SR_SIZE` -/
def rtcpSrSize : ℕ := 28

/-- `write_be16` -/
def writeBe16 (out : List UInt8) (i : ℕ) (value : UInt16) : List UInt8 :=
  writeAt out i [(value >>> 8).toUInt8, value.toUInt8]

/-- `write_be32` -/
def writeBe32 (out : List UInt8) (i : ℕ) (value : UInt32) : List UInt8 :=
  writeAt out i
    [(value >>> 24).toUInt8, (value >>> 16).toUInt8, (value >>> 8).toUInt8, value.toUInt8]

/-- `ntp_secs`, before it is cut to its field. -/
def srNtpSecs (ntpWallUs : UInt64) : UInt64 :=
  ntpWallUs / 1000000 + 2208988800

/-- The product under the division in `ntp_frac`. -/
def srNtpProduct (ntpWallUs : UInt64) : UInt64 :=
  (ntpWallUs % 1000000) <<< 32

/-- `rtcp_build_sender_report`: the buffer afterwards, and the size. -/
def rtcpBuildSenderReportInto (out : List UInt8) (ssrc : UInt32) (ntpWallUs : UInt64)
    (rtpTs packetCount octetCount : UInt32) : List UInt8 × ℕ :=
  let ntpSecs := srNtpSecs ntpWallUs
  let ntpFrac := (srNtpProduct ntpWallUs / 1000000).toUInt32
  let out := writeAt out 0 [0x80]
  let out := writeAt out 1 [200]
  let out := writeBe16 out 2 6
  let out := writeBe32 out 4 ssrc
  let out := writeBe32 out 8 (ntpSecs &&& 0xFFFFFFFF).toUInt32
  let out := writeBe32 out 12 ntpFrac
  let out := writeBe32 out 16 rtpTs
  let out := writeBe32 out 20 packetCount
  let out := writeBe32 out 24 octetCount
  (out, rtcpSrSize)

/-! ### The receiver -/

/-- A sender report as a receiver reads it. The clock is one 64-bit number. -/
structure SrFields where
  padding : Bool
  reportBlocks : ℕ
  ssrc : ℕ
  ntp : ℕ
  rtpTs : ℕ
  packetCount : ℕ
  octetCount : ℕ
  deriving DecidableEq, Repr

/-- Read a packet that says it is a sender report and is as long as it says. -/
def decodeSr (packet : List UInt8) : Option SrFields :=
  let first := (packet.getD 0 0).toNat
  let length := 4 * (readBe16 packet 2 + 1)
  if first / 64 = 2 ∧ packet.getD 1 0 = 200 ∧ 28 ≤ length ∧ length = packet.length then
    some
      { padding := first / 32 % 2 = 1
        reportBlocks := first % 32
        ssrc := readBe32 packet 4
        ntp := readBe32 packet 8 * 2 ^ 32 + readBe32 packet 12
        rtpTs := readBe32 packet 16
        packetCount := readBe32 packet 20
        octetCount := readBe32 packet 24 }
  else none

/-- The microseconds of an era: the clock starts anew after 2^32 seconds. -/
def ntpEraUs : ℕ := 2 ^ 32 * 1000000

/-- Microseconds since the beginning of 1900. -/
def ntpTimeUs (ntpWallUs : UInt64) : ℕ :=
  ntpWallUs.toNat + 2208988800 * 1000000

/-- The clock of the report of a time. -/
def sentNtp (ntpWallUs : UInt64) : ℕ :=
  toFixed (2 ^ 32) 1000000 (ntpTimeUs ntpWallUs) % 2 ^ 64

/-- The clock of a report, for any count of microseconds of the Unix epoch. -/
def ntpClock (wallUs : ℕ) : ℕ :=
  toFixed (2 ^ 32) 1000000 (wallUs + 2208988800 * 1000000) % 2 ^ 64

/-- The microsecond nearest to a clock, within its era. -/
def ntpMicroseconds (ntp : ℕ) : ℕ :=
  nearest (2 ^ 32) 1000000 ntp % ntpEraUs

/-! ### The arithmetic of the clock -/

theorem toNat_srNtpSecs (us : UInt64) : (srNtpSecs us).toNat = us.toNat / 1000000 + 2208988800 := by
  have hlt := us.toNat_lt
  rw [srNtpSecs, UInt64.toNat_add, UInt64.toNat_div]
  show (us.toNat / 1000000 + 2208988800) % 2 ^ 64 = _
  omega

theorem toNat_srNtpProduct (us : UInt64) : (srNtpProduct us).toNat = us.toNat % 1000000 * 2 ^ 32 := by
  rw [srNtpProduct, UInt64.toNat_shiftLeft, UInt64.toNat_mod]
  show (us.toNat % 1000000) <<< 32 % 2 ^ 64 = _
  rw [Nat.shiftLeft_eq]
  omega

theorem sentNtp_eq_ntpClock (us : UInt64) : sentNtp us = ntpClock us.toNat := rfl

/-- The seconds and the fraction are the two halves of the clock. -/
theorem ntpClock_eq (us : ℕ) :
    ntpClock us = (us / 1000000 + 2208988800) % 2 ^ 32 * 2 ^ 32 + us % 1000000 * 2 ^ 32 / 1000000 := by
  have htime : us + 2208988800 * 1000000 = (us / 1000000 + 2208988800) * 1000000 + us % 1000000 := by
    omega
  rw [ntpClock, htime, toFixed_add_mul (by omega), toFixed]
  omega

/-- **The clock of a report is the time within its era.** -/
theorem ntpClock_eq_toFixed (us : ℕ) :
    ntpClock us = toFixed (2 ^ 32) 1000000 ((us + 2208988800 * 1000000) % ntpEraUs) :=
  toFixed_mod (n := 2 ^ 32) (by omega) (by omega) (by omega) _

/-! ### The packet -/

theorem writeBe16_eq (out : List UInt8) (i : ℕ) (value : UInt16) :
    writeBe16 out i value = writeAt out i (be16 value.toNat) := by
  have h : (value >>> 8).toUInt8 = UInt8.ofNat (value.toNat / 2 ^ 8) := by
    rw [← UInt8.toNat_inj, UInt16.toNat_toUInt8, UInt16.toNat_shiftRight, UInt8.toNat_ofNat',
      Nat.shiftRight_eq_div_pow]
    rfl
  have hlow : value.toUInt8 = UInt8.ofNat value.toNat := by
    rw [← UInt8.toNat_inj, UInt16.toNat_toUInt8, UInt8.toNat_ofNat']
  rw [writeBe16, be16, h, hlow]

theorem writeBe32_eq (out : List UInt8) (i : ℕ) (value : UInt32) :
    writeBe32 out i value = writeAt out i (be32 value.toNat) := by
  have h : ∀ k : ℕ, k < 32 →
      (value >>> UInt32.ofNat k).toUInt8 = UInt8.ofNat (value.toNat / 2 ^ k) := fun k hk ↦ by
    rw [← UInt8.toNat_inj, UInt32.toNat_toUInt8, UInt32.toNat_shiftRight, UInt8.toNat_ofNat',
      Nat.shiftRight_eq_div_pow, UInt32.toNat_ofNat', Nat.mod_mod_of_dvd k (by decide),
      Nat.mod_eq_of_lt hk]
  have h24 := h 24 (by omega)
  have h16 := h 16 (by omega)
  have h8 := h 8 (by omega)
  have hlow : value.toUInt8 = UInt8.ofNat value.toNat := by
    rw [← UInt8.toNat_inj, UInt32.toNat_toUInt8, UInt8.toNat_ofNat']
  rw [writeBe32, be32, hlow, ← h24, ← h16, ← h8]
  rfl

/-- **What is written**: the 28 bytes of the report, whatever the buffer held, and nothing behind them. -/
theorem rtcpBuildSenderReportInto_eq (out : List UInt8) (ssrc : UInt32) (us : UInt64)
    (rtpTs packetCount octetCount : UInt32) :
    rtcpBuildSenderReportInto out ssrc us rtpTs packetCount octetCount =
      (rtcpBuildSenderReport ssrc us.toNat rtpTs packetCount octetCount ++ out.drop rtcpSrSize,
        rtcpSrSize) := by
  have hsecs : be32 (srNtpSecs us &&& 0xFFFFFFFF).toUInt32.toNat =
      be32 (us.toNat / 1000000 + 2208988800) := by
    rw [UInt64.toNat_toUInt32, be32_mod, UInt64.toNat_and, toNat_srNtpSecs, ← be32_mod (_ + _)]
    exact congrArg be32 (Nat.and_two_pow_sub_one_eq_mod _ 32)
  have hfrac : be32 (srNtpProduct us / 1000000).toUInt32.toNat =
      be32 (us.toNat % 1000000 * 2 ^ 32 / 1000000) := by
    rw [UInt64.toNat_toUInt32, be32_mod, UInt64.toNat_div, toNat_srNtpProduct]
    rfl
  simp only [rtcpBuildSenderReportInto, writeBe16_eq, writeBe32_eq, hsecs, hfrac]
  have hfirst : writeAt out 0 [0x80] = [0x80] ++ out.drop 1 := rfl
  rw [hfirst, writeAt_fill (i := 1) (j := 2), writeAt_fill (i := 2) (j := 4),
    writeAt_fill (i := 4) (j := 8), writeAt_fill (i := 8) (j := 12), writeAt_fill (i := 12) (j := 16),
    writeAt_fill (i := 16) (j := 20), writeAt_fill (i := 20) (j := 24), writeAt_fill (i := 24) (j := 28)]
  all_goals rfl

/-- **A receiver reads what was sent**: every field, and the clock. -/
theorem decodeSr_rtcpBuildSenderReport (ssrc : UInt32) (us : ℕ) (rtpTs packetCount octetCount : UInt32) :
    decodeSr (rtcpBuildSenderReport ssrc us rtpTs packetCount octetCount) =
      some
        { padding := false
          reportBlocks := 0
          ssrc := ssrc.toNat
          ntp := ntpClock us
          rtpTs := rtpTs.toNat
          packetCount := packetCount.toNat
          octetCount := octetCount.toNat } := by
  set report := rtcpBuildSenderReport ssrc us rtpTs packetCount octetCount
  have hssrc : readBe32 report 4 = ssrc.toNat := readBe32_be32 ssrc.toNat_lt
  have hsecs : readBe32 report 8 = (us / 1000000 + 2208988800) % 2 ^ 32 := readBe32_be32_mod _
  have hfrac : readBe32 report 12 = us % 1000000 * 2 ^ 32 / 1000000 :=
    readBe32_be32 (by omega)
  have hts : readBe32 report 16 = rtpTs.toNat := readBe32_be32 rtpTs.toNat_lt
  have hpackets : readBe32 report 20 = packetCount.toNat := readBe32_be32 packetCount.toNat_lt
  have hoctets : readBe32 report 24 = octetCount.toNat := readBe32_be32 octetCount.toNat_lt
  have hfirst : report.getD 0 0 = 0x80 := rfl
  have htype : report.getD 1 0 = 200 := rfl
  have hwords : readBe16 report 2 = 6 := readBe16_be16 (v := 6) (by omega)
  have hlength : report.length = 28 := rfl
  rw [decodeSr, hssrc, hsecs, hfrac, hts, hpackets, hoctets, ntpClock_eq, hfirst, htype, hwords, hlength]
  rfl

/-- **The microsecond comes back**, within its era. -/
theorem ntpMicroseconds_ntpClock (us : ℕ) :
    ntpMicroseconds (ntpClock us) = (us + 2208988800 * 1000000) % ntpEraUs := by
  rw [ntpMicroseconds, ntpClock_eq_toFixed, nearest_toFixed (by omega) (by omega), Nat.mod_mod]

/-- **The clock moves on with the time**, within an era. -/
theorem sentNtp_lt_sentNtp {us later : UInt64} (h : us < later)
    (hera : ntpTimeUs us / ntpEraUs = ntpTimeUs later / ntpEraUs) : sentNtp us < sentNtp later := by
  have hlt : ntpTimeUs us < ntpTimeUs later := Nat.add_lt_add_right (UInt64.lt_iff_toNat_lt.1 h) _
  rw [sentNtp_eq_ntpClock, sentNtp_eq_ntpClock, ntpClock_eq_toFixed, ntpClock_eq_toFixed]
  refine toFixed_lt_toFixed (by omega) (by omega) ?_
  show ntpTimeUs us % ntpEraUs < ntpTimeUs later % ntpEraUs
  have hfirst := Nat.div_add_mod (ntpTimeUs us) ntpEraUs
  have hlast := Nat.div_add_mod (ntpTimeUs later) ntpEraUs
  rw [← hera] at hlast
  omega

/-- **Sender report encoding is faithful.** The report of any time and counters is exactly 28 bytes of the
buffer, a receiver reads every field as it was given and the microsecond within its era, the clocks of an
era are in the order of their times, and the 64-bit arithmetic on the way is that of the numbers. -/
theorem rtcpBuildSenderReportInto_faithful {out : List UInt8} (hout : rtcpSrSize ≤ out.length)
    (ssrc : UInt32) (ntpWallUs : UInt64) (rtpTs packetCount octetCount : UInt32) :
    (∃ report : List UInt8, report.length = 28 ∧
      rtcpBuildSenderReportInto out ssrc ntpWallUs rtpTs packetCount octetCount =
        (report ++ out.drop 28, 28) ∧
      (report ++ out.drop 28).length = out.length ∧
      decodeSr report =
        some
          { padding := false
            reportBlocks := 0
            ssrc := ssrc.toNat
            ntp := sentNtp ntpWallUs
            rtpTs := rtpTs.toNat
            packetCount := packetCount.toNat
            octetCount := octetCount.toNat }) ∧
    ntpMicroseconds (sentNtp ntpWallUs) = ntpTimeUs ntpWallUs % ntpEraUs ∧
    (∀ later : UInt64, ntpWallUs < later →
      ntpTimeUs ntpWallUs / ntpEraUs = ntpTimeUs later / ntpEraUs →
        sentNtp ntpWallUs < sentNtp later) ∧
    (srNtpSecs ntpWallUs).toNat = ntpWallUs.toNat / 1000000 + 2208988800 ∧
    (srNtpProduct ntpWallUs).toNat = ntpWallUs.toNat % 1000000 * 2 ^ 32 := by
  refine ⟨⟨rtcpBuildSenderReport ssrc ntpWallUs.toNat rtpTs packetCount octetCount, rfl,
    rtcpBuildSenderReportInto_eq out ssrc ntpWallUs rtpTs packetCount octetCount, ?_,
    decodeSr_rtcpBuildSenderReport ssrc ntpWallUs.toNat rtpTs packetCount octetCount⟩,
    ntpMicroseconds_ntpClock ntpWallUs.toNat, fun _ ↦ sentNtp_lt_sentNtp, toNat_srNtpSecs ntpWallUs,
    toNat_srNtpProduct ntpWallUs⟩
  have hlength : (rtcpBuildSenderReport ssrc ntpWallUs.toNat rtpTs packetCount octetCount).length = 28 :=
    rfl
  rw [List.length_append, hlength, List.length_drop]
  rw [rtcpSrSize] at hout
  omega

/-- A report into a stack buffer with room for the authentication tag. -/
theorem rtcpBuildSenderReportInto_faithful_stack :
    ∃ report : List UInt8, report.length = 28 ∧
      rtcpBuildSenderReportInto (List.replicate 44 0) 0x11223344 1700000000123456 90000 10 9000 =
        (report ++ List.replicate 16 0, 28) := by
  obtain ⟨⟨report, hlength, heq, -⟩, -⟩ :=
    @rtcpBuildSenderReportInto_faithful (List.replicate 44 0)
      (by rw [List.length_replicate]; exact Nat.le_add_right 28 16)
      0x11223344 1700000000123456 90000 10 9000
  exact ⟨report, hlength, heq⟩

end Camstream
