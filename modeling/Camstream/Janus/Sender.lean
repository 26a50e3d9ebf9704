import Camstream.Rtcp.Feedback
import Camstream.Rtp.SenderReports
import Camstream.Lib.Run

/-!
# The Janus sender

`src/janus/janus_rtp_sender.c`: one thread that takes access units from the ring, packetizes them and sends
the packets to a gateway, answers picture loss with a request for a key frame, and makes a sender report every
five seconds. An iteration of the thread is `senderIteration`; what it asks its environment is answered by a
`JanusPoll`.
-/

namespace Camstream

/-- `SR_INTERVAL_MS` -/
def srIntervalMs : ℕ := 5000

/-- `JANUS_RTP_SENDER_DEFAULT_SSRC` -/
def janusRtpSenderDefaultSsrc : UInt32 := 0xC4FEF00D

/-- `JANUS_RTP_SENDER_DEFAULT_PT` -/
def janusRtpSenderDefaultPt : UInt32 := 96

/-- The numbers of a `JanusRtpSenderConfig`. -/
structure JanusRtpSenderConfig where
  rtpPort : UInt16
  rtcpPort : UInt16
  rtcpListenPort : UInt16
  ssrc : UInt32
  payloadType : UInt32

/-- A datagram handed to `sendto`. -/
inductive JanusDatagram
  | rtp (packet : List UInt8)
  | senderReport (packet : List UInt8)

/-- `struct JanusRtpSender`, with the local `next_sr_ms` of the thread. Datagrams are recorded newest
first. -/
structure JanusRtpSender where
  ssrc : UInt32
  payloadType : UInt32
  packetizer : RtpH264
  nextSrMs : ℕ
  forceIdr : Bool
  accessUnits : UInt64
  packetsSent : UInt32
  octetsSent : UInt32
  sendErrors : UInt32
  srSent : UInt32
  rtcpReceived : UInt32
  pliReceived : UInt32
  firReceived : UInt32
  lastRtpSendMs : ℕ
  sendErrorLogged : Bool
  log : List JanusDatagram

/-- An access unit popped from the ring. For each packet of it, `sendto` fails or the clock is read. -/
structure JanusAccessUnit where
  data : List UInt8
  ptsUs : UInt64
  sentMs : ℕ → Option ℕ

/-- What `poll` returns. -/
inductive PollResult
  | interrupted
  | failed
  | timeout
  | readable (datagrams : List (List UInt8))

/-- The answers to what one iteration asks: `running`, `poll`, the ring, the clocks, and the `sendto` of the
report. -/
structure JanusPoll where
  running : Bool
  poll : PollResult
  popped : List JanusAccessUnit
  nowMs : ℕ
  wallUs : ℕ
  reportSent : Bool

/-- `janus_rtp_sender_create`. Name resolution, sockets and allocations succeed or fail together. -/
def janusRtpSenderCreate (available : Bool) (config : JanusRtpSenderConfig) : Option JanusRtpSender :=
  if config.rtpPort = 0 ∨ config.rtcpPort = 0 ∨ config.rtcpListenPort = 0 ∨ !available then none
  else
    let ssrc := if config.ssrc ≠ 0 then config.ssrc else janusRtpSenderDefaultSsrc
    let payloadType := if config.payloadType ≠ 0 then config.payloadType else janusRtpSenderDefaultPt
    some
      { ssrc := ssrc
        payloadType := payloadType
        packetizer := rtpH264Reset rtpH264Create ssrc payloadType
        nextSrMs := 0
        forceIdr := false
        accessUnits := 0
        packetsSent := 0
        octetsSent := 0
        sendErrors := 0
        srSent := 0
        rtcpReceived := 0
        pliReceived := 0
        firReceived := 0
        lastRtpSendMs := 0
        sendErrorLogged := false
        log := [] }

/-- `send_sink` -/
def sendSink (s : JanusRtpSender) (packet : List UInt8) (sentMs : Option ℕ) : JanusRtpSender :=
  let s := { s with log := .rtp packet :: s.log }
  match sentMs with
  | none => { s with sendErrors := s.sendErrors + 1, sendErrorLogged := true }
  | some now =>
    { s with
      sendErrorLogged := false
      packetsSent := s.packetsSent + 1
      octetsSent := s.octetsSent + UInt32.ofNat packet.length
      lastRtpSendMs := now }

/-- `send_sender_report` -/
def sendSenderReport (s : JanusRtpSender) (wallUs : ℕ) (sent : Bool) : JanusRtpSender :=
  let sr :=
    rtcpBuildSenderReport s.ssrc wallUs (rtpH264LastTimestamp s.packetizer) (rtpH264PacketCount s.packetizer)
      (rtpH264OctetCount s.packetizer)
  let s := { s with log := .senderReport sr :: s.log }
  if sent then { s with srSent := s.srSent + 1 } else s

/-- The body of the loop of `handle_rtcp`. -/
def handleRtcpDatagram (s : JanusRtpSender) (datagram : List UInt8) : JanusRtpSender :=
  let s := { s with rtcpReceived := s.rtcpReceived + 1 }
  let feedback := rtcpParse datagram datagram.length
  if 0 < feedback.pli ∨ 0 < feedback.fir then
    { s with
      pliReceived := s.pliReceived + UInt32.ofNat feedback.pli
      firReceived := s.firReceived + UInt32.ofNat feedback.fir
      forceIdr := true }
  else s

/-- `handle_rtcp` -/
def handleRtcp (s : JanusRtpSender) (datagrams : List (List UInt8)) : JanusRtpSender :=
  datagrams.foldl handleRtcpDatagram s

/-- The body of the loop that drains the ring. -/
def sendAccessUnit (s : JanusRtpSender) (au : JanusAccessUnit) : JanusRtpSender :=
  let (packetizer, calls, _) := rtpH264Packetize s.packetizer au.data au.ptsUs
  calls.zipIdx.foldl (fun s call ↦ sendSink s call.1.packet (au.sentMs call.2))
    { s with accessUnits := s.accessUnits + 1, packetizer := packetizer }

/-- The first half of an iteration: feedback, then the ring. -/
def senderMedia (s : JanusRtpSender) (w : JanusPoll) : JanusRtpSender :=
  let s :=
    match w.poll with
    | .readable datagrams => handleRtcp s datagrams
    | _ => s
  w.popped.foldl sendAccessUnit s

/-- The second half: a report when it is time. -/
def senderReportTimer (s : JanusRtpSender) (w : JanusPoll) : JanusRtpSender :=
  if s.nextSrMs ≤ w.nowMs then
    sendSenderReport { s with nextSrMs := w.nowMs + srIntervalMs } w.wallUs w.reportSent
  else s

/-- An iteration of `sender_thread`; `none` when it leaves the loop. -/
def senderIteration (s : JanusRtpSender) (w : JanusPoll) : Option JanusRtpSender :=
  if !w.running then none
  else
    match w.poll with
    | .interrupted => some s
    | .failed => none
    | _ => some (senderReportTimer (senderMedia s w) w)

/-! ### What an iteration does to the packetizer -/

variable (s : JanusRtpSender)

@[simp] theorem packetizer_sendSink (packet : List UInt8) (sentMs : Option ℕ) :
    (sendSink s packet sentMs).packetizer = s.packetizer := by
  cases sentMs <;> rfl

@[simp] theorem packetizer_sendSenderReport (wallUs : ℕ) (sent : Bool) :
    (sendSenderReport s wallUs sent).packetizer = s.packetizer := by
  cases sent <;> rfl

@[simp] theorem packetizer_handleRtcp (datagrams : List (List UInt8)) :
    (handleRtcp s datagrams).packetizer = s.packetizer := by
  refine List.foldlRecOn (motive := fun t : JanusRtpSender ↦ t.packetizer = s.packetizer) datagrams _ rfl ?_
  intro t ht datagram _
  rw [handleRtcpDatagram]
  dsimp only
  split_ifs <;> exact ht

/-- Only an access unit moves the packetizer. -/
theorem packetizer_sendAccessUnit (au : JanusAccessUnit) :
    (sendAccessUnit s au).packetizer = (rtpH264Packetize s.packetizer au.data au.ptsUs).1 :=
  List.foldlRecOn
    (motive := fun t : JanusRtpSender ↦ t.packetizer = (rtpH264Packetize s.packetizer au.data au.ptsUs).1)
    (rtpH264Packetize s.packetizer au.data au.ptsUs).2.1.zipIdx _ rfl
    fun t ht call _ ↦ (packetizer_sendSink t call.1.packet (au.sentMs call.2)).trans ht

theorem packetizer_senderReportTimer (w : JanusPoll) :
    (senderReportTimer s w).packetizer = s.packetizer := by
  rw [senderReportTimer]
  split_ifs
  · exact packetizer_sendSenderReport _ w.wallUs w.reportSent
  · rfl

/-! ### Which datagrams are reports -/

/-- The sender report that a datagram is. -/
def JanusDatagram.report? : JanusDatagram → Option (List UInt8)
  | .senderReport packet => some packet
  | .rtp _ => none

/-- The sender reports handed to `sendto`, the last one first. -/
def JanusRtpSender.reports (s : JanusRtpSender) : List (List UInt8) :=
  s.log.filterMap JanusDatagram.report?

/-- Media is no report. -/
theorem reports_sendSink (packet : List UInt8) (sentMs : Option ℕ) :
    (sendSink s packet sentMs).reports = s.reports := by
  cases sentMs <;> rfl

/-- A report is built from the clock and the packetizer. -/
theorem reports_sendSenderReport (wallUs : ℕ) (sent : Bool) :
    (sendSenderReport s wallUs sent).reports =
      rtcpBuildSenderReport s.ssrc wallUs (rtpH264LastTimestamp s.packetizer)
        (rtpH264PacketCount s.packetizer) (rtpH264OctetCount s.packetizer) :: s.reports := by
  cases sent <;> rfl

theorem reports_handleRtcp (datagrams : List (List UInt8)) :
    (handleRtcp s datagrams).reports = s.reports := by
  refine List.foldlRecOn (motive := fun t : JanusRtpSender ↦ t.reports = s.reports) datagrams _ rfl ?_
  intro t ht datagram _
  rw [handleRtcpDatagram]
  dsimp only
  split_ifs <;> exact ht

theorem reports_sendAccessUnit (au : JanusAccessUnit) : (sendAccessUnit s au).reports = s.reports :=
  List.foldlRecOn (motive := fun t : JanusRtpSender ↦ t.reports = s.reports)
    (rtpH264Packetize s.packetizer au.data au.ptsUs).2.1.zipIdx _ rfl
    fun t ht call _ ↦ (reports_sendSink t call.1.packet (au.sentMs call.2)).trans ht

/-- Feedback and media are no reports. -/
theorem reports_senderMedia (w : JanusPoll) : (senderMedia s w).reports = s.reports := by
  have hdrain (t : JanusRtpSender) : (w.popped.foldl sendAccessUnit t).reports = t.reports :=
    List.foldlRecOn (motive := fun u : JanusRtpSender ↦ u.reports = t.reports) w.popped _ rfl
      fun u hu au _ ↦ (reports_sendAccessUnit u au).trans hu
  rw [senderMedia]
  cases w.poll with
  | readable datagrams => exact (hdrain _).trans (reports_handleRtcp s datagrams)
  | interrupted | failed | timeout => exact hdrain s

/-! ### The thread, recorded -/

/-- An access unit of the ring. One without bytes is refused by the packetizer. -/
def captureUnit (t : MediaTrace) (au : JanusAccessUnit) : MediaTrace :=
  if au.data = [] then t else t.capture au.ptsUs

/-- The access units an iteration takes from the ring: none if a signal interrupted its `poll`. -/
def JanusPoll.drained (w : JanusPoll) : List JanusAccessUnit :=
  match w.poll with
  | .interrupted => []
  | _ => w.popped

/-- An iteration from `s` to `s'`: the access units, and the reports that went out. -/
def janusTrace (s s' : JanusRtpSender) (t : MediaTrace) (w : JanusPoll) : MediaTrace :=
  (w.drained.foldl captureUnit t).reportNew w.wallUs s.reports s'.reports

/-- An iteration of the thread with its record. -/
def janusStep (c : JanusRtpSender × MediaTrace) (w : JanusPoll) : Option (JanusRtpSender × MediaTrace) :=
  (senderIteration c.1 w).map fun s ↦ (s, janusTrace c.1 s c.2 w)

/-- The record changes nothing. -/
theorem exec_janusStep (c : JanusRtpSender × MediaTrace) (ws : List JanusPoll) :
    (Run.exec janusStep c ws).map Prod.fst = Run.exec senderIteration c.1 ws :=
  Run.exec_map (fun c w ↦ by rw [janusStep, Option.map_map]; exact Option.map_id') c ws

/-- The record agrees with the packetizer while the ring is drained. -/
theorem tracks_senderMedia {t : MediaTrace} (ht : t.Tracks s.packetizer) (w : JanusPoll) :
    (w.popped.foldl captureUnit t).Tracks (senderMedia s w).packetizer := by
  have hdrain : ∀ (aus : List JanusAccessUnit) (s : JanusRtpSender) (t : MediaTrace),
      t.Tracks s.packetizer →
        (aus.foldl captureUnit t).Tracks (aus.foldl sendAccessUnit s).packetizer := by
    intro aus
    induction aus with
    | nil => exact fun s t ht ↦ ht
    | cons au aus ih =>
      intro s t ht
      refine ih (sendAccessUnit s au) (captureUnit t au) ?_
      rw [packetizer_sendAccessUnit]
      exact ht.packetize au.data au.ptsUs
  rw [senderMedia]
  cases w.poll with
  | readable datagrams => exact hdrain _ _ _ (by rwa [packetizer_handleRtcp])
  | interrupted | failed | timeout => exact hdrain _ _ _ ht

/-- **One iteration** keeps the record in agreement with the packetizer. -/
theorem tracks_janusStep {c c' : JanusRtpSender × MediaTrace} {w : JanusPoll}
    (hc : c.2.Tracks c.1.packetizer) (h : janusStep c w = some c') : c'.2.Tracks c'.1.packetizer := by
  have hround : ((w.popped.foldl captureUnit c.2).reportNew w.wallUs c.1.reports
      (senderReportTimer (senderMedia c.1 w) w).reports).Tracks
        (senderReportTimer (senderMedia c.1 w) w).packetizer := by
    have hmedia := tracks_senderMedia c.1 hc w
    have hreports := reports_senderMedia c.1 w
    rw [packetizer_senderReportTimer, senderReportTimer]
    split_ifs
    -- The report is made of the packetizer as the media left it.
    · rw [reports_sendSenderReport]
      show ((w.popped.foldl captureUnit c.2).reportNew w.wallUs c.1.reports
        (_ :: (senderMedia c.1 w).reports)).Tracks _
      rw [hreports, MediaTrace.reportNew_cons]
      exact hmedia.report _ w.wallUs
    · rw [hreports, MediaTrace.reportNew_self]
      exact hmedia
  obtain ⟨s, hs, rfl⟩ := Option.map_eq_some_iff.1 h
  rw [senderIteration] at hs
  split_ifs at hs
  show (janusTrace c.1 s c.2 w).Tracks s.packetizer
  rw [janusTrace, JanusPoll.drained]
  cases hpoll : w.poll <;> rw [hpoll] at hs <;> cases hs
  · rw [MediaTrace.reportNew_self]
    exact hc
  · exact hround
  · exact hround

/-- **A run of the thread** keeps it so. -/
theorem tracks_of_janus_run {available : Bool} {config : JanusRtpSenderConfig} {s₀ : JanusRtpSender}
    (hcreate : janusRtpSenderCreate available config = some s₀) {ws : List JanusPoll}
    {c : JanusRtpSender × MediaTrace} (hrun : Run.exec janusStep (s₀, ⟨[], []⟩) ws = some c) :
    c.2.Tracks c.1.packetizer := by
  have hstart : MediaTrace.Tracks ⟨[], []⟩ s₀.packetizer := by
    rw [janusRtpSenderCreate] at hcreate
    split at hcreate
    · exact absurd hcreate (by simp)
    · obtain rfl := Option.some.inj hcreate
      exact MediaTrace.tracks_create _ _
  exact Run.exec_invariant (P := fun c ↦ c.2.Tracks c.1.packetizer) (fun _ _ _ ↦ tracks_janusStep)
    hstart hrun

end Camstream
