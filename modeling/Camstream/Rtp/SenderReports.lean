import Mathlib.Algebra.Order.Group.Abs
import Mathlib.Tactic.Ring
import Camstream.Rtcp.SenderReport
import Camstream.Rtp.Bookkeeping

/-!
# Which instants a sender report pairs

A sender report tells a viewer which RTP timestamp belongs to which instant of the wall clock. Both senders
of the program fill in the wall clock of the moment and the timestamp of the access unit they sent last, so
what the pair is worth depends on how old that access unit is.

`MediaTrace` is what a sender did since its packetizer was reset: the packets of its reports, and in the times
of the two clocks what it knew when it made them. Whether two reports match is read from the packets, as a
receiver reads them. Where the trace agrees with the packetizer (`MediaTrace.Tracks`), they do if and only if
the last access unit was equally old at both: `MediaTrace.Tracks.matching_iff`. In particular reports made
while nothing is sent do not match (`MediaTrace.Tracks.matches_of_stall`).
-/

namespace Camstream

/-! ### Reports -/

/-- A sender report: the packet, what the wall clock said when it was made, and when the last access unit
before it was captured. -/
structure SenderReport where
  packet : List UInt8
  wallUs : ℕ
  lastPtsUs : Option UInt64
  deriving DecidableEq

/-- The two reports pair matching instants. A receiver that reads both packets finds between their RTP
timestamps, modulo `2 ^ 32`, the time between their NTP timestamps at 90 kHz, to one tick and rounding, which
is less than two ticks. Both sides are in millionths of a tick. An era of the NTP clock is a whole number of
turns of the RTP timestamp. -/
def SenderReport.Matches (r s : SenderReport) : Prop :=
  ∃ x y, decodeSr r.packet = some x ∧ decodeSr s.packet = some y ∧
    ∃ turns : ℤ, |((y.rtpTs : ℤ) - x.rtpTs + turns * 2 ^ 32) * 10 ^ 6 -
      ((ntpMicroseconds y.ntp : ℤ) - ntpMicroseconds x.ntp) * 90000| < 2 * 10 ^ 6

/-- Whole ticks from `base` to the capture of an access unit. As in the source the product is taken in 64
bits. Before the first access unit there are none. -/
def captureTicks (base : UInt64) : Option UInt64 → ℕ
  | none => 0
  | some ptsUs => ((if base ≤ ptsUs then ptsUs - base else 0) * 90000 / 1000000).toNat

/-- The age of the last access unit when the report is made, in millionths of a tick. The wall clock is
`offset` microseconds ahead of the capture clock, at all times. -/
def SenderReport.age (offset : ℤ) (base : UInt64) (r : SenderReport) : ℤ :=
  ((r.wallUs : ℤ) - offset - base.toNat) * 90000 - captureTicks base r.lastPtsUs * 10 ^ 6

/-- The last access unit is equally old at both reports, to less than two ticks; a whole turn of the 32-bit
timestamp, more than thirteen hours, does not count. -/
def SenderReport.SameAge (offset : ℤ) (base : UInt64) (r s : SenderReport) : Prop :=
  ∃ turns : ℤ, |s.age offset base - r.age offset base + turns * 2 ^ 32 * 10 ^ 6| < 2 * 10 ^ 6

/-- The timestamp of an access unit is its tick, in 32 bits. -/
theorem toNat_mediaTimestamp_eq (base ptsUs : UInt64) :
    (mediaTimestamp base ptsUs).toNat = captureTicks base (some ptsUs) % 2 ^ 32 := by
  rw [mediaTimestamp, UInt64.toNat_toUInt32, captureTicks]

/-- What a receiver reads in a report: the wall clock of the moment, and the timestamp of the last access
unit. -/
def SenderReport.Reads (base : UInt64) (r : SenderReport) : Prop :=
  ∃ x, decodeSr r.packet = some x ∧ x.rtpTs = captureTicks base r.lastPtsUs % 2 ^ 32 ∧
    ntpMicroseconds x.ntp = (r.wallUs + 2208988800 * 1000000) % ntpEraUs

/-- A report that is built so is read so. -/
theorem SenderReport.reads_rtcpBuildSenderReport {base : UInt64} {rtpTs : UInt32} {lastPtsUs : Option UInt64}
    (h : rtpTs.toNat = captureTicks base lastPtsUs % 2 ^ 32) (ssrc packetCount octetCount : UInt32)
    (wallUs : ℕ) :
    Reads base ⟨rtcpBuildSenderReport ssrc wallUs rtpTs packetCount octetCount, wallUs, lastPtsUs⟩ :=
  ⟨_, decodeSr_rtcpBuildSenderReport ssrc wallUs rtpTs packetCount octetCount, h,
    ntpMicroseconds_ntpClock wallUs⟩

/-- Two reports that are read so match exactly when their access units are equally old. -/
theorem SenderReport.matches_iff {base : UInt64} {r s : SenderReport} (hr : r.Reads base) (hs : s.Reads base)
    (offset : ℤ) : r.Matches s ↔ SameAge offset base r s := by
  obtain ⟨x, hx, hxts, hxntp⟩ := hr
  obtain ⟨y, hy, hyts, hyntp⟩ := hs
  set p := captureTicks base r.lastPtsUs with hp
  set q := captureTicks base s.lastPtsUs with hq
  -- The timestamps are the ticks less whole turns, the clocks the wall clock less whole eras.
  have hxr : (p : ℤ) = x.rtpTs + (p / 2 ^ 32 : ℕ) * 2 ^ 32 := by
    rw [hxts]
    omega
  have hys : (q : ℤ) = y.rtpTs + (q / 2 ^ 32 : ℕ) * 2 ^ 32 := by
    rw [hyts]
    omega
  obtain ⟨m, hm⟩ : ∃ m : ℤ, (r.wallUs : ℤ) = ntpMicroseconds x.ntp + m * ntpEraUs - 2208988800 * 1000000 :=
    ⟨((r.wallUs + 2208988800 * 1000000) / ntpEraUs : ℕ), by rw [hxntp, ntpEraUs]; omega⟩
  obtain ⟨n, hn⟩ : ∃ n : ℤ, (s.wallUs : ℤ) = ntpMicroseconds y.ntp + n * ntpEraUs - 2208988800 * 1000000 :=
    ⟨((s.wallUs + 2208988800 * 1000000) / ntpEraUs : ℕ), by rw [hyntp, ntpEraUs]; omega⟩
  set extra : ℤ := (q / 2 ^ 32 : ℕ) - (p / 2 ^ 32 : ℕ) - (n - m) * 90000 with hextra
  have hage (turns : ℤ) :
      s.age offset base - r.age offset base + turns * 2 ^ 32 * 10 ^ 6 =
        -((((y.rtpTs : ℤ) - x.rtpTs + (extra - turns) * 2 ^ 32) * 10 ^ 6) -
            ((ntpMicroseconds y.ntp : ℤ) - ntpMicroseconds x.ntp) * 90000) := by
    rw [age, age, ← hp, ← hq, hxr, hys, hm, hn, hextra, ntpEraUs]
    push_cast
    ring
  constructor
  · rintro ⟨x', y', hx', hy', turns, h⟩
    obtain rfl := Option.some.inj (hx'.symm.trans hx)
    obtain rfl := Option.some.inj (hy'.symm.trans hy)
    refine ⟨extra - turns, ?_⟩
    rwa [hage, abs_neg, sub_sub_cancel]
  · rintro ⟨turns, h⟩
    rw [hage, abs_neg] at h
    exact ⟨x, y, hx, hy, _, h⟩

/-- Reports that come the same number of microseconds after the capture of their access units. -/
theorem SenderReport.sameAge_of_elapsed_eq {base ptsUs ptsUs' : UInt64} {r s : SenderReport} (offset : ℤ)
    (hr : r.lastPtsUs = some ptsUs) (hs : s.lastPtsUs = some ptsUs') (hle : base ≤ ptsUs) (hle' : base ≤ ptsUs')
    (hlt : (ptsUs.toNat - base.toNat) * 90000 < 2 ^ 64) (hlt' : (ptsUs'.toNat - base.toNat) * 90000 < 2 ^ 64)
    (helapsed : (s.wallUs : ℤ) - ptsUs'.toNat = r.wallUs - ptsUs.toNat) : SameAge offset base r s := by
  have hticks : ∀ {pts : UInt64}, base ≤ pts → (pts.toNat - base.toNat) * 90000 < 2 ^ 64 →
      captureTicks base (some pts) = (pts.toNat - base.toNat) * 90000 / 10 ^ 6 := by
    intro pts hle hlt
    have h90000 : (90000 : UInt64).toNat = 90000 := rfl
    rw [captureTicks, if_pos hle, UInt64.toNat_div, UInt64.toNat_mul, UInt64.toNat_sub_of_le _ _ hle, h90000,
      Nat.mod_eq_of_lt hlt]
    rfl
  have hbase : base.toNat ≤ ptsUs.toNat := hle
  have hbase' : base.toNat ≤ ptsUs'.toNat := hle'
  refine ⟨0, abs_lt.2 ?_⟩
  rw [age, age, hr, hs, hticks hle hlt, hticks hle' hlt']
  omega

/-- Reports on the same access unit are equally old only if they are made together, or whole turns apart. -/
theorem SenderReport.sameAge_of_lastPtsUs_eq {r s : SenderReport} (h : r.lastPtsUs = s.lastPtsUs)
    (offset : ℤ) (base : UInt64) : SameAge offset base r s ↔
      ∃ turns : ℤ, |((s.wallUs : ℤ) - r.wallUs) * 90000 + turns * 2 ^ 32 * 10 ^ 6| < 2 * 10 ^ 6 := by
  have hage (turns : ℤ) : s.age offset base - r.age offset base + turns * 2 ^ 32 * 10 ^ 6 =
      ((s.wallUs : ℤ) - r.wallUs) * 90000 + turns * 2 ^ 32 * 10 ^ 6 := by
    rw [age, age, h]
    ring
  simp only [SameAge, hage]

/-! ### Traces -/

/-- What a sender did since its packetizer was reset: the capture times of the access units it sent, and
its reports. -/
structure MediaTrace where
  captured : List UInt64
  reports : List SenderReport
  deriving DecidableEq

/-- An access unit is sent. -/
def MediaTrace.capture (t : MediaTrace) (ptsUs : UInt64) : MediaTrace :=
  { t with captured := t.captured ++ [ptsUs] }

/-- A report is made: this packet leaves when the wall clock says so. -/
def MediaTrace.report (t : MediaTrace) (wallUs : ℕ) (packet : List UInt8) : MediaTrace :=
  { t with reports := t.reports ++ [⟨packet, wallUs, t.captured.getLast?⟩] }

/-- The reports of a step, from the lists of all reports before and after it, which have the last report
first. -/
def MediaTrace.reportNew (t : MediaTrace) (wallUs : ℕ) (before after : List (List UInt8)) : MediaTrace :=
  (after.take (after.length - before.length)).foldr (fun packet t ↦ t.report wallUs packet) t

@[simp] theorem MediaTrace.reportNew_self (t : MediaTrace) (wallUs : ℕ) (before : List (List UInt8)) :
    t.reportNew wallUs before before = t := by
  rw [reportNew, Nat.sub_self, List.take_zero, List.foldr_nil]

@[simp] theorem MediaTrace.reportNew_cons (t : MediaTrace) (wallUs : ℕ) (before : List (List UInt8))
    (packet : List UInt8) : t.reportNew wallUs before (packet :: before) = t.report wallUs packet := by
  rw [reportNew, List.length_cons, Nat.add_sub_cancel_left]
  rfl

/-- The packetizer counts from the first access unit. -/
def MediaTrace.base (t : MediaTrace) : UInt64 :=
  t.captured.head?.getD 0

theorem MediaTrace.head?_capture (t : MediaTrace) (ptsUs : UInt64) :
    (t.capture ptsUs).captured.head? = some (t.captured.head?.getD ptsUs) := by
  rw [capture, List.head?_append]
  cases t.captured.head? <;> rfl

@[simp] theorem MediaTrace.getLast?_capture (t : MediaTrace) (ptsUs : UInt64) :
    (t.capture ptsUs).captured.getLast? = some ptsUs :=
  List.getLast?_concat

/-- Any two reports pair matching instants. -/
def MediaTrace.Matching (t : MediaTrace) : Prop :=
  ∀ r ∈ t.reports, ∀ s ∈ t.reports, r.Matches s

/-- At any two reports the last access unit is equally old. -/
def MediaTrace.SameAges (offset : ℤ) (t : MediaTrace) : Prop :=
  ∀ r ∈ t.reports, ∀ s ∈ t.reports, r.SameAge offset t.base s

/-- The packetizer is where the trace says, and so were the reports. -/
structure MediaTrace.Tracks (t : MediaTrace) (p : RtpH264) : Prop where
  base : t.captured.head? = if p.haveBase then some p.basePtsUs else none
  last : p.lastTimestamp.toNat = captureTicks t.base t.captured.getLast? % 2 ^ 32
  early : t.captured = [] → ∀ r ∈ t.reports, r.lastPtsUs = none
  reports : ∀ r ∈ t.reports, r.Reads t.base

variable {t : MediaTrace} {p : RtpH264}

theorem MediaTrace.tracks_create (ssrc payloadType : UInt32) :
    Tracks ⟨[], []⟩ (rtpH264Reset rtpH264Create ssrc payloadType) where
  base := rfl
  last := rfl
  early _ _ h := absurd h List.not_mem_nil
  reports _ h := absurd h List.not_mem_nil

/-- Sending an access unit, or failing to. -/
theorem MediaTrace.Tracks.packetize (ht : t.Tracks p) (au : List UInt8) (ptsUs : UInt64) :
    (if au = [] then t else t.capture ptsUs).Tracks (rtpH264Packetize p au ptsUs).1 := by
  rcases eq_or_ne au [] with hau | hau
  · rw [if_pos hau, hau, rtpH264Packetize_nil]
    exact ht
  rw [if_neg hau]
  obtain ⟨hhave, hbase⟩ := rtpH264Packetize_base p hau ptsUs
  have hlast : (rtpH264Packetize p au ptsUs).1.lastTimestamp =
      mediaTimestamp (rtpH264Packetize p au ptsUs).1.basePtsUs ptsUs := by
    rw [hbase, ← beginAccessUnit_lastTimestamp, ← (rtpH264Packetize_delivers p hau ptsUs).kept]
  have hbegin : (beginAccessUnit p ptsUs).basePtsUs = if p.haveBase then p.basePtsUs else ptsUs := by
    rw [beginAccessUnit]
    cases p.haveBase <;> rfl
  -- The base is the first capture time: this one, if nothing was sent before.
  have hcapture : t.captured.head?.getD ptsUs = (rtpH264Packetize p au ptsUs).1.basePtsUs := by
    rw [hbase, hbegin, ht.base]
    cases p.haveBase <;> rfl
  have hnew : (t.capture ptsUs).base = (rtpH264Packetize p au ptsUs).1.basePtsUs := by
    rw [MediaTrace.base, head?_capture, Option.getD_some, hcapture]
  constructor
  case base => rw [head?_capture, hcapture, hhave, if_pos rfl]
  case last => rw [hlast, toNat_mediaTimestamp_eq, hnew, getLast?_capture]
  case early => exact fun h ↦ absurd h (by simp [capture])
  case reports =>
    intro r hr
    rcases hhead : t.captured.head? with - | first
    -- A report before the first access unit has no ticks, whatever the base.
    · obtain ⟨x, hx, hts, hntp⟩ := ht.reports r hr
      rw [ht.early (List.head?_eq_none_iff.1 hhead) r hr] at hts
      exact ⟨x, hx, by rw [hts, ht.early (List.head?_eq_none_iff.1 hhead) r hr]; rfl, hntp⟩
    · have hsame : (t.capture ptsUs).base = t.base := by
        rw [MediaTrace.base, MediaTrace.base, head?_capture, hhead]
        rfl
      rw [hsame]
      exact ht.reports r hr

/-- Making a report of the packetizer. -/
theorem MediaTrace.Tracks.report (ht : t.Tracks p) (ssrc : UInt32) (wallUs : ℕ) :
    (t.report wallUs (rtcpBuildSenderReport ssrc wallUs (rtpH264LastTimestamp p) (rtpH264PacketCount p)
      (rtpH264OctetCount p))).Tracks p where
  base := ht.base
  last := ht.last
  early hnil r hr := by
    rcases List.mem_append.1 hr with hr | hr
    · exact ht.early hnil r hr
    · obtain rfl := List.mem_singleton.1 hr
      show t.captured.getLast? = none
      rw [show t.captured = [] from hnil, List.getLast?_nil]
  reports r hr := by
    rcases List.mem_append.1 hr with hr | hr
    · exact ht.reports r hr
    · obtain rfl := List.mem_singleton.1 hr
      exact SenderReport.reads_rtcpBuildSenderReport ht.last _ _ _ _

/-- **Reports match exactly when access units are equally old.** -/
theorem MediaTrace.Tracks.matching_iff (ht : t.Tracks p) (offset : ℤ) :
    t.Matching ↔ t.SameAges offset :=
  forall₂_congr fun r hr ↦ forall₂_congr fun s hs ↦
    SenderReport.matches_iff (ht.reports r hr) (ht.reports s hs) offset

/-- While nothing is sent, reports match only if they are made together. -/
theorem MediaTrace.Tracks.matches_of_stall (ht : t.Tracks p) {r s : SenderReport} (hr : r ∈ t.reports)
    (hs : s ∈ t.reports) (h : r.lastPtsUs = s.lastPtsUs) :
    r.Matches s ↔ ∃ turns : ℤ,
      |((s.wallUs : ℤ) - r.wallUs) * 90000 + turns * 2 ^ 32 * 10 ^ 6| < 2 * 10 ^ 6 := by
  rw [SenderReport.matches_iff (ht.reports r hr) (ht.reports s hs) 0]
  exact SenderReport.sameAge_of_lastPtsUs_eq h 0 t.base

end Camstream
