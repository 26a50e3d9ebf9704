import Camstream.Janus.Sender
import Camstream.Session.Keys
import Camstream.Session.PayloadType

/-!
# Sender reports of both senders

A session makes a report from `rtc_session_tick`, the Janus sender from its thread. Either is recorded in a
`MediaTrace` while it runs: the RTCP packets it hands to libsrtp or to `sendto`, whatever they are. Only the
tick makes one, with the clock and the packetizer of the moment in it; so the record agrees with the packetizer
in every run and `MediaTrace.Tracks.matching_iff` applies: the reports of a run pair matching instants exactly
when the last access unit is equally old at all of them.
-/

namespace Camstream

variable {lib : Libraries} {env : CreateAnswers} {config : RtcSessionConfig} {s₀ : RtcSession}

/-- An operation from `session` to `session'`, recorded: an access unit that is packetized, and the RTCP packets
that were protected. -/
def rtcTrace (session session' : RtcSession) (t : MediaTrace) (e : RtcEvent) : MediaTrace :=
  let t : MediaTrace :=
    match e.call with
    | .sendAccessUnit accessUnit ptsUs _ =>
      if session.state = .streaming ∧ accessUnit ≠ [] then t.capture ptsUs else t
    | _ => t
  t.reportNew e.answers.wallUs session.rtcp session'.rtcp

/-- An operation with its record. -/
def rtcReportStep (lib : Libraries) (c : RtcSession × MediaTrace) (e : RtcEvent) :
    Option (RtcSession × MediaTrace) :=
  (rtcStep lib c.1 e).map fun s ↦ (s, rtcTrace c.1 s c.2 e)

/-- The record changes nothing. -/
theorem exec_rtcReportStep (c : RtcSession × MediaTrace) (es : List RtcEvent) :
    (Run.exec (rtcReportStep lib) c es).map Prod.fst = Run.exec (rtcStep lib) c.1 es :=
  Run.exec_map (fun c e ↦ by rw [rtcReportStep, Option.map_map]; exact Option.map_id') c es

/-- A tick makes at most the report of the packetizer. -/
theorem tracks_rtcSessionTick {s : RtcSession} {t : MediaTrace} (ht : t.Tracks s.rtp) (ans : Answers)
    (now : ℕ) : (t.reportNew ans.wallUs s.rtcp (rtcSessionTick lib ans s now).rtcp).Tracks
      (rtcSessionTick lib ans s now).rtp := by
  rw [rtp_rtcSessionTick]
  rcases rtcSessionTick_cases lib ans s now with hlistens | ⟨hlistens, hreport⟩
  · rw [hlistens.rtcp, MediaTrace.reportNew_self]
    exact ht
  rw [hreport]
  have hrtp := rtp_dtlsSrtpTick lib ans s
  set u := dtlsSrtpTick lib (rtcCallbacks ans) ans s
  rcases @secured_senderReport lib ans u now with hsame | hsent
  · rw [show (senderReport lib ans u now).rtcp = u.rtcp from congrArg (fun x ↦ x.2.2) hsame, hlistens.rtcp,
      MediaTrace.reportNew_self]
    exact ht
  · rw [show (senderReport lib ans u now).rtcp = _ from congrArg (fun x ↦ x.2.2) hsent, hlistens.rtcp,
      MediaTrace.reportNew_cons, hrtp]
    exact ht.report _ ans.wallUs

/-- **One operation** keeps the record in agreement with the packetizer. -/
theorem tracks_rtcCall {s : RtcSession} {t : MediaTrace} (ht : t.Tracks s.rtp) (e : RtcEvent) :
    (rtcTrace s (rtcCall lib s e) t e).Tracks (rtcCall lib s e).rtp := by
  have hlistens := listens_rtcCall lib s (e := e)
  obtain ⟨ans, call⟩ := e
  cases call with
  | onUdp buffer length source =>
    rw [rtcTrace, (hlistens (fun _ _ _ ↦ RtcCall.noConfusion) fun _ ↦ RtcCall.noConfusion).rtcp,
      MediaTrace.reportNew_self]
    show t.Tracks (rtcSessionOnUdp lib ans s buffer length source).rtp
    rwa [rtp_rtcSessionOnUdp]
  | tick now => exact tracks_rtcSessionTick ht ans now
  | sendAccessUnit accessUnit ptsUs isIdr =>
    have hkept : (rtcSessionSendAccessUnit lib ans s accessUnit ptsUs isIdr).1.rtcp = s.rtcp :=
      congrArg Prod.snd (reportKeys_rtcSessionSendAccessUnit s accessUnit ptsUs isIdr)
    show MediaTrace.Tracks (MediaTrace.reportNew
      (if s.state = .streaming ∧ accessUnit ≠ [] then t.capture ptsUs else t) ans.wallUs s.rtcp
        (rtcSessionSendAccessUnit lib ans s accessUnit ptsUs isIdr).1.rtcp)
      (rtcSessionSendAccessUnit lib ans s accessUnit ptsUs isIdr).1.rtp
    rw [hkept, MediaTrace.reportNew_self, rtp_rtcSessionSendAccessUnit]
    -- The trace has a capture where the packetizer has a unit: in a session that streams, and of bytes.
    rcases eq_or_ne s.state .streaming with hstate | hstate
    · have hsent := ht.packetize accessUnit ptsUs
      rw [if_pos hstate]
      rcases eq_or_ne accessUnit [] with hau | hau
      · rw [if_neg (fun h ↦ h.2 hau)]
        rwa [if_pos hau] at hsent
      · rw [if_pos ⟨hstate, hau⟩]
        rwa [if_neg hau] at hsent
    · rw [if_neg hstate, if_neg (fun h ↦ hstate h.1)]
      exact ht
  | close =>
    rw [rtcTrace, (hlistens (fun _ _ _ ↦ RtcCall.noConfusion) fun _ ↦ RtcCall.noConfusion).rtcp,
      MediaTrace.reportNew_self]
    show t.Tracks (rtcSessionClose ans s).rtp
    rwa [rtp_rtcSessionClose]
  | destroy =>
    rw [rtcTrace, (hlistens (fun _ _ _ ↦ RtcCall.noConfusion) fun _ ↦ RtcCall.noConfusion).rtcp,
      MediaTrace.reportNew_self]
    show t.Tracks (rtcSessionDestroy ans s).rtp
    rwa [rtp_rtcSessionDestroy]

/-- **A run of a session** keeps it so. -/
theorem tracks_of_rtc_run (hcreate : rtcSessionCreate env config = some s₀) {es : List RtcEvent}
    {c : RtcSession × MediaTrace} (hrun : Run.exec (rtcReportStep lib) (s₀, ⟨[], []⟩) es = some c) :
    c.2.Tracks c.1.rtp := by
  have hstart : MediaTrace.Tracks ⟨[], []⟩ s₀.rtp := by
    rw [rtp_rtcSessionCreate hcreate]
    exact MediaTrace.tracks_create _ _
  refine Run.exec_invariant (P := fun c ↦ c.2.Tracks c.1.rtp) ?_ hstart hrun
  intro c e c' hc hstep
  obtain ⟨s, hs, rfl⟩ := Option.map_eq_some_iff.1 hstep
  obtain ⟨-, rfl⟩ := rtcStep_eq_some.1 hs
  exact tracks_rtcCall hc e

/-- **Sender reports pair matching instants exactly when access units are equally old.** In every run of a
session and in every run of the Janus sender, with the wall clock any constant `offset` ahead of the capture
clock, any two reports pair matching instants if and only if the last access unit is equally old at any two
reports. -/
theorem senderReports_matching_iff (offset : ℤ) :
    (∀ {lib : Libraries} {env : CreateAnswers} {config : RtcSessionConfig} {s₀ : RtcSession}
      {es : List RtcEvent} {c : RtcSession × MediaTrace}, rtcSessionCreate env config = some s₀ →
        Run.exec (rtcReportStep lib) (s₀, ⟨[], []⟩) es = some c →
          (c.2.Matching ↔ c.2.SameAges offset)) ∧
    (∀ {available : Bool} {config : JanusRtpSenderConfig} {s₀ : JanusRtpSender} {ws : List JanusPoll}
      {c : JanusRtpSender × MediaTrace}, janusRtpSenderCreate available config = some s₀ →
        Run.exec janusStep (s₀, ⟨[], []⟩) ws = some c → (c.2.Matching ↔ c.2.SameAges offset)) :=
  ⟨fun hcreate hrun ↦ (tracks_of_rtc_run hcreate hrun).matching_iff offset,
    fun hcreate hrun ↦ (tracks_of_janus_run hcreate hrun).matching_iff offset⟩

/-! ### A stalled encoder, and a steady one -/

/-- A session that is connected, sends an access unit and reports at 5400 ms, and reports again at 10400 ms, with
these events in between. -/
def reportingRun (wallUs wallUs' : ℕ) (between : List RtcEvent) : List RtcEvent :=
  sampleRun.take 3 ++ [⟨sampleAnswers 350, .sendAccessUnit [0, 0, 1, 0x65, 1] 0 true⟩,
    ⟨{ sampleAnswers 5400 with wallUs := wallUs }, .tick 5400⟩] ++ between ++
      [⟨{ sampleAnswers 10400 with wallUs := wallUs' }, .tick 10400⟩]

/-- The same of the thread of the Janus sender, with what the second iteration finds in the ring. -/
def reportingPolls (wallUs wallUs' : ℕ) (between : List JanusAccessUnit) : List JanusPoll :=
  [⟨true, .timeout, [⟨[0, 0, 1, 0x65, 1], 0, fun _ ↦ some 0⟩], 0, wallUs, true⟩,
    ⟨true, .timeout, between, 5000, wallUs', true⟩]

/-- Ports of a gateway, everything else by default. -/
def sampleJanusConfig : JanusRtpSenderConfig := ⟨5004, 5005, 5006, 0, 0⟩

/-- The access unit of the steady encoder that comes five seconds after the first. -/
def nextAccessUnit : List UInt8 := [0, 0, 1, 0x41, 2]

/-- The times of a record: those of the access units, and of each report its own and that of the access unit
before it. -/
def MediaTrace.times (t : MediaTrace) : List UInt64 × List (ℕ × Option UInt64) :=
  (t.captured, t.reports.map fun r ↦ (r.wallUs, r.lastPtsUs))

theorem exists_reportingRun (wallUs wallUs' : ℕ) (between : List RtcEvent)
    (times : List UInt64 × List (ℕ × Option UInt64))
    (h : ((rtcSessionCreate sampleCreate (sampleConfig sampleFingerprint)).bind fun s₀ ↦
      (Run.exec (rtcReportStep sampleLibraries) (s₀, ⟨[], []⟩) (reportingRun wallUs wallUs' between)).map
        fun c ↦ c.2.times) = some times) :
    ∃ s₀ c, rtcSessionCreate sampleCreate (sampleConfig sampleFingerprint) = some s₀ ∧
      Run.exec (rtcReportStep sampleLibraries) (s₀, ⟨[], []⟩) (reportingRun wallUs wallUs' between) = some c ∧
        c.2.times = times := by
  obtain ⟨s₀, hcreate, hrun⟩ := Option.bind_eq_some_iff.1 h
  obtain ⟨c, hc, htimes⟩ := Option.map_eq_some_iff.1 hrun
  exact ⟨s₀, c, hcreate, hc, htimes⟩

theorem exists_reportingPolls (wallUs wallUs' : ℕ) (between : List JanusAccessUnit)
    (times : List UInt64 × List (ℕ × Option UInt64))
    (h : ((janusRtpSenderCreate true sampleJanusConfig).bind fun s₀ ↦
      (Run.exec janusStep (s₀, ⟨[], []⟩) (reportingPolls wallUs wallUs' between)).map fun c ↦ c.2.times) =
        some times) :
    ∃ s₀ c, janusRtpSenderCreate true sampleJanusConfig = some s₀ ∧
      Run.exec janusStep (s₀, ⟨[], []⟩) (reportingPolls wallUs wallUs' between) = some c ∧
        c.2.times = times := by
  obtain ⟨s₀, hcreate, hrun⟩ := Option.bind_eq_some_iff.1 h
  obtain ⟨c, hc, htimes⟩ := Option.map_eq_some_iff.1 hrun
  exact ⟨s₀, c, hcreate, hc, htimes⟩

/-- Two reports, five seconds apart, on one access unit. -/
def stalledTimes : List UInt64 × List (ℕ × Option UInt64) := ([0], [(0, some 0), (5000000, some 0)])

/-- Two reports, each 40 ms behind an access unit. -/
def steadyTimes : List UInt64 × List (ℕ × Option UInt64) :=
  ([0, 5000000], [(40000, some 0), (5040000, some 5000000)])

/-- Two reports, five seconds apart, on one access unit do not match. -/
theorem not_matching_of_stalledTimes {t : MediaTrace} {p : RtpH264} (ht : t.Tracks p)
    (htimes : t.times = stalledTimes) : ¬ t.Matching := by
  obtain ⟨r, tail, hreports, hr, htail⟩ := List.map_eq_cons_iff.1 (Prod.ext_iff.1 htimes).2
  obtain ⟨s, rest, hrest, hs, -⟩ := List.map_eq_cons_iff.1 htail
  obtain ⟨hwall, hlast⟩ := Prod.ext_iff.1 hr
  obtain ⟨hwall', hlast'⟩ := Prod.ext_iff.1 hs
  have hmem : r ∈ t.reports := by
    rw [hreports]
    exact List.mem_cons_self
  have hmem' : s ∈ t.reports := by
    rw [hreports, hrest]
    exact List.mem_cons_of_mem _ List.mem_cons_self
  intro hmatching
  -- Five seconds are 450000 ticks, far from any number of turns.
  obtain ⟨turns, habs⟩ :=
    (ht.matches_of_stall hmem hmem' (hlast.trans hlast'.symm)).1 (hmatching r hmem s hmem')
  have hbounds := abs_lt.1 habs
  dsimp only at hwall hwall'
  omega

/-- Reports that follow their access units by the same time have the same age. -/
theorem sameAges_of_steadyTimes {t : MediaTrace} (htimes : t.times = steadyTimes) : t.SameAges 0 := by
  obtain ⟨captured, reports⟩ := t
  obtain rfl : captured = [0, 5000000] := (Prod.ext_iff.1 htimes).1
  have hforty : ∀ r ∈ reports, ∃ ptsUs : UInt64, r.lastPtsUs = some ptsUs ∧ ptsUs.toNat ≤ 5000000 ∧
      (r.wallUs : ℤ) - ptsUs.toNat = 40000 := by
    intro r hr
    have hmem : (r.wallUs, r.lastPtsUs) ∈ steadyTimes.2 := by
      rw [← htimes]
      exact List.mem_map_of_mem hr
    rcases List.mem_cons.1 hmem with h | h
    · obtain ⟨hwall, hlast⟩ := Prod.ext_iff.1 h
      exact ⟨0, hlast, by decide, by rw [show r.wallUs = 40000 from hwall]; rfl⟩
    · obtain ⟨hwall, hlast⟩ := Prod.ext_iff.1 (List.mem_singleton.1 h)
      exact ⟨5000000, hlast, by decide, by rw [show r.wallUs = 5040000 from hwall]; rfl⟩
  intro r hr s hs
  obtain ⟨ptsUs, hlast, hle, helapsed⟩ := hforty r hr
  obtain ⟨ptsUs', hlast', hle', helapsed'⟩ := hforty s hs
  have hzero : (0 : UInt64).toNat = 0 := rfl
  refine SenderReport.sameAge_of_elapsed_eq 0 hlast hlast' ?_ ?_ ?_ ?_ (helapsed'.trans helapsed.symm)
  · exact UInt64.le_iff_toNat_le.2 (Nat.zero_le _)
  · exact UInt64.le_iff_toNat_le.2 (Nat.zero_le _)
  · show (ptsUs.toNat - (0 : UInt64).toNat) * 90000 < 2 ^ 64
    omega
  · show (ptsUs'.toNat - (0 : UInt64).toNat) * 90000 < 2 ^ 64
    omega

/-- The reports of a steady encoder match, those of a stalled one do not; two reports each. -/
theorem senderReports_matching_iff_sample :
    (∃ s₀ c, rtcSessionCreate sampleCreate (sampleConfig sampleFingerprint) = some s₀ ∧
      Run.exec (rtcReportStep sampleLibraries) (s₀, ⟨[], []⟩) (reportingRun 40000 5040000
        [⟨sampleAnswers 10350, .sendAccessUnit nextAccessUnit 5000000 false⟩]) = some c ∧
      c.2.times = steadyTimes ∧ c.2.Matching) ∧
    (∃ s₀ c, rtcSessionCreate sampleCreate (sampleConfig sampleFingerprint) = some s₀ ∧
      Run.exec (rtcReportStep sampleLibraries) (s₀, ⟨[], []⟩) (reportingRun 0 5000000 []) = some c ∧
      c.2.times = stalledTimes ∧ ¬ c.2.SameAges 0) ∧
    (∃ s₀ c, janusRtpSenderCreate true sampleJanusConfig = some s₀ ∧
      Run.exec janusStep (s₀, ⟨[], []⟩) (reportingPolls 40000 5040000
        [⟨nextAccessUnit, 5000000, fun _ ↦ some 5000⟩]) = some c ∧ c.2.times = steadyTimes ∧ c.2.Matching) ∧
    (∃ s₀ c, janusRtpSenderCreate true sampleJanusConfig = some s₀ ∧
      Run.exec janusStep (s₀, ⟨[], []⟩) (reportingPolls 0 5000000 []) = some c ∧
        c.2.times = stalledTimes ∧ ¬ c.2.SameAges 0) := by
  refine ⟨?_, ?_, ?_, ?_⟩
  · obtain ⟨s₀, c, hcreate, hc, htimes⟩ := exists_reportingRun 40000 5040000
      [⟨sampleAnswers 10350, .sendAccessUnit nextAccessUnit 5000000 false⟩] steadyTimes (by decide +kernel)
    exact ⟨s₀, c, hcreate, hc, htimes, ((senderReports_matching_iff 0).1 hcreate hc).2
      (sameAges_of_steadyTimes htimes)⟩
  · obtain ⟨s₀, c, hcreate, hc, htimes⟩ := exists_reportingRun 0 5000000 [] stalledTimes (by decide +kernel)
    exact ⟨s₀, c, hcreate, hc, htimes, fun hages ↦ not_matching_of_stalledTimes
      (tracks_of_rtc_run hcreate hc) htimes (((senderReports_matching_iff 0).1 hcreate hc).2 hages)⟩
  · obtain ⟨s₀, c, hcreate, hc, htimes⟩ := exists_reportingPolls 40000 5040000
      [⟨nextAccessUnit, 5000000, fun _ ↦ some 5000⟩] steadyTimes (by decide +kernel)
    exact ⟨s₀, c, hcreate, hc, htimes, ((senderReports_matching_iff 0).2 hcreate hc).2
      (sameAges_of_steadyTimes htimes)⟩
  · obtain ⟨s₀, c, hcreate, hc, htimes⟩ := exists_reportingPolls 0 5000000 [] stalledTimes (by decide +kernel)
    exact ⟨s₀, c, hcreate, hc, htimes, fun hages ↦ not_matching_of_stalledTimes
      (tracks_of_janus_run hcreate hc) htimes (((senderReports_matching_iff 0).2 hcreate hc).2 hages)⟩

/-- Neither sender's reports match while the encoder stalls. -/
theorem not_matching_stalled :
    (∃ s₀ c, rtcSessionCreate sampleCreate (sampleConfig sampleFingerprint) = some s₀ ∧
      Run.exec (rtcReportStep sampleLibraries) (s₀, ⟨[], []⟩) (reportingRun 0 5000000 []) = some c ∧
        ¬ c.2.Matching) ∧
    (∃ s₀ c, janusRtpSenderCreate true sampleJanusConfig = some s₀ ∧
      Run.exec janusStep (s₀, ⟨[], []⟩) (reportingPolls 0 5000000 []) = some c ∧ ¬ c.2.Matching) := by
  obtain ⟨s₀, c, hcreate, hc, htimes⟩ := exists_reportingRun 0 5000000 [] stalledTimes (by decide +kernel)
  obtain ⟨j₀, d, hjanus, hd, htimes'⟩ := exists_reportingPolls 0 5000000 [] stalledTimes (by decide +kernel)
  exact ⟨⟨s₀, c, hcreate, hc, not_matching_of_stalledTimes (tracks_of_rtc_run hcreate hc) htimes⟩,
    j₀, d, hjanus, hd, not_matching_of_stalledTimes (tracks_of_janus_run hjanus hd) htimes'⟩

end Camstream
