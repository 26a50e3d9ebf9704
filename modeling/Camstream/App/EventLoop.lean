import Camstream.App.Close
import Camstream.Media.AuRing

/-!
# The event loop

The loop of `app_server_run` in `src/app/app_server.c`, as it is built for the native sessions. One pass
polls the sockets of the sessions and hands over what they received, serves HTTP, gives every session a
tick, sends the encoded access units to every viewer, and destroys the sessions that are closed.

`PassInput` is what a pass meets outside: what `poll` and `recvfrom` return, the requests that Mongoose
dispatches, the clock, what `au_ring_pop` hands out, and what the sessions ask while they run. The replies
to requests that do not touch the sessions are left out here, and so is the log.
-/

namespace Camstream

open CString

/-! ### Outside -/

/-- A datagram that `recvfrom` returns, with what `rtc_session_on_udp` asks. -/
structure Datagram where
  data : List UInt8
  source : SockAddr
  answers : Answers

/-- A request, with what its handler asks. -/
structure HttpMessage where
  uri : List UInt8
  body : List UInt8
  offer : OfferEnv
  close : Answers

/-- What one pass meets outside. -/
structure PassInput where
  /-- `DTLSv1_get_timeout` for the session of a slot: seconds and microseconds left. -/
  dtlsTimeout : Fin maxRtcSessions → Option (ℕ × ℕ)
  /-- Whether `poll` reports `POLLIN`, by place in `fds`. -/
  pollIn : ℕ → Bool
  /-- `buffer` before anything is received. -/
  stack : List UInt8
  /-- What `recvfrom` returns, by place in `fds` and by slot, until it fails. -/
  inbox : ℕ → Fin maxRtcSessions → List Datagram
  http : List HttpMessage
  /-- `now_ms()`, sampled again after the HTTP traffic. -/
  now : ℕ
  tick : Fin maxRtcSessions → Answers
  /-- What `au_ring_pop` hands out, until the ring is empty. -/
  units : List AccessUnit
  /-- What `rtc_session_send_access_unit` asks, by place in `units` and by slot. -/
  send : ℕ → Fin maxRtcSessions → Answers
  destroy : Fin maxRtcSessions → Answers

/-! ### Calls -/

/-- Whether a call used the `on_idr_request` hook. -/
def requestsIdr (before after : RtcSession) : Bool :=
  decide (.idrRequest ∈ sentDuring before after)

/-- A call on the session of a slot. Its hook is `session_on_idr_request`. -/
def Server.call (lib : Libraries) (server : Server) (slot : Fin maxRtcSessions) (e : RtcEvent) : Server :=
  match server.sessions.get slot with
  | none => server
  | some (id, session) =>
    { server with
      sessions := server.sessions.set slot (some (id, rtcCall lib session e)) slot.isLt
      forceIdr := server.forceIdr || requestsIdr session (rtcCall lib session e)
      trace := server.trace ++ [slotCall slot e] }

/-! ### 1. The sockets -/

/-- `dtls_srtp_next_timeout_ms` -/
def dtlsSrtpNextTimeoutMs (engine : DtlsSrtp) (left : Option (ℕ × ℕ)) : ℤ :=
  if engine.state ≠ .handshaking ∧ engine.state ≠ .init then -1
  else
    match left with
    | none => -1
    | some (sec, usec) => ((sec * 1000 + usec / 1000 : ℕ) : ℤ).bmod (2 ^ 32)

/-- The session of a slot, unless there is none or it is closed. -/
def Server.open? (server : Server) (slot : Fin maxRtcSessions) : Option RtcSession :=
  match server.sessions.get slot with
  | some (_, session) => if session.state = .closed then none else some session
  | none => none

/-- The descriptor that a slot adds to `fds`. -/
def Server.pollFd? (server : Server) (slot : Fin maxRtcSessions) : Option ℤ :=
  match server.open? slot with
  | some session => if 0 ≤ session.udpFd then some session.udpFd else none
  | none => none

/-- The descriptors in `fds`, up to `fd_count`. -/
def pollFds (server : Server) : List ℤ :=
  (List.finRange maxRtcSessions).filterMap server.pollFd?

/-- The timer of one session shortens the wait. -/
def shortenTimeout (input : PassInput) (server : Server) (timeout : ℤ) (slot : Fin maxRtcSessions) : ℤ :=
  match server.open? slot with
  | some session =>
    let dtlsTimeout := dtlsSrtpNextTimeoutMs session.dtls (input.dtlsTimeout slot)
    if 0 ≤ dtlsTimeout ∧ dtlsTimeout < timeout then (if 0 < dtlsTimeout then dtlsTimeout else 0)
    else timeout
  | none => timeout

/-- `timeout`, as `poll` gets it. -/
def pollTimeout (input : PassInput) (server : Server) : ℤ :=
  let timeout := (List.finRange maxRtcSessions).foldl (shortenTimeout input server) 10
  let hasSessions := (List.finRange maxRtcSessions).any fun slot ↦ (server.open? slot).isSome
  if hasSessions then timeout else 100

/-- `sizeof(buffer)` -/
def recvSize : ℕ := 2048

/-- `recvfrom` into a buffer; the rest of a longer datagram is lost. -/
def recvInto (buffer data : List UInt8) : List UInt8 :=
  Bytes.writeAt buffer 0 (data.take recvSize)

/-- The calls of the loop around `recvfrom`. An empty datagram ends it as an error does. -/
def recvCalls (buffer : List UInt8) : List Datagram → List RtcEvent
  | [] => []
  | d :: ds =>
    if d.data = [] then []
    else
      let buffer := recvInto buffer d.data
      ⟨d.answers, .onUdp buffer (d.data.take recvSize).length d.source⟩ :: recvCalls buffer ds

/-- What a descriptor has received, for the session of one slot. -/
def receiveSlot (lib : Libraries) (input : PassInput) (k : ℕ) (fd : ℤ) (server : Server)
    (slot : Fin maxRtcSessions) : Server :=
  match server.sessions.get slot with
  | some (_, session) =>
    if session.udpFd = fd then
      (recvCalls input.stack (input.inbox k slot)).foldl (fun server e ↦ server.call lib slot e) server
    else server
  | none => server

/-- What a descriptor has received. -/
def receiveFd (lib : Libraries) (input : PassInput) (server : Server) (fd : ℤ × ℕ) : Server :=
  if input.pollIn fd.2 then
    (List.finRange maxRtcSessions).foldl (receiveSlot lib input fd.2 fd.1) server
  else server

/-- The first part of a pass. -/
def receivePhase (lib : Libraries) (input : PassInput) (server : Server) : Server :=
  (pollFds server).zipIdx.foldl (receiveFd lib input) server

/-! ### 2. HTTP -/

/-- `http_event_handler`; `none` is a read or a write outside a buffer. -/
def httpEventHandler (model : DataModel) (server : Server) (message : HttpMessage) : Option Server :=
  if message.uri = ascii "/rtc/offer" then
    (handleRtcOffer server message.body message.offer).map Prod.fst
  else if message.uri = ascii "/rtc/close" then
    some (handleRtcClose model server message.body message.close).1
  else some server

/-- `mg_mgr_poll` -/
def httpPhase (model : DataModel) (input : PassInput) (server : Server) : Option Server :=
  input.http.foldlM (httpEventHandler model) server

/-! ### 3. Housekeeping -/

/-- The third part: a tick for every session. -/
def tickPhase (lib : Libraries) (input : PassInput) (server : Server) : Server :=
  (List.finRange maxRtcSessions).foldl
    (fun server slot ↦ server.call lib slot ⟨input.tick slot, .tick input.now⟩) server

/-! ### 4. Access units -/

/-- The call that sends an access unit to a viewer; its place in `units` comes with it. -/
def PassInput.sendEvent (input : PassInput) (slot : Fin maxRtcSessions) (unit : AccessUnit × ℕ) : RtcEvent :=
  ⟨input.send unit.2 slot,
    .sendAccessUnit unit.1.bytes unit.1.info.ptsUs (decide (unit.1.info.isIdr ≠ 0))⟩

/-- An access unit for the session of one slot. -/
def sendSlot (lib : Libraries) (input : PassInput) (unit : AccessUnit × ℕ) (server : Server)
    (slot : Fin maxRtcSessions) : Server :=
  match server.sessions.get slot with
  | some (_, session) =>
    if session.state = .streaming then server.call lib slot (input.sendEvent slot unit) else server
  | none => server

/-- An access unit for every viewer. -/
def sendUnit (lib : Libraries) (input : PassInput) (server : Server) (unit : AccessUnit × ℕ) : Server :=
  (List.finRange maxRtcSessions).foldl (sendSlot lib input unit) server

/-- The fourth part. -/
def fanOutPhase (lib : Libraries) (input : PassInput) (server : Server) : Server :=
  input.units.zipIdx.foldl (sendUnit lib input) server

/-! ### 5. Reaping -/

/-- A slot without its session. -/
def Server.vacate (server : Server) (slot : Fin maxRtcSessions) : Server :=
  { server with sessions := server.sessions.set slot none slot.isLt }

/-- The session of a slot is destroyed if it is closed, and counted if it is not. -/
def reapSlot (lib : Libraries) (input : PassInput) (x : Server × ℕ) (slot : Fin maxRtcSessions) :
    Server × ℕ :=
  match x.1.sessions.get slot with
  | none => x
  | some (_, session) =>
    if session.state = .closed then
      ((x.1.call lib slot ⟨input.destroy slot, .destroy⟩).vacate slot, x.2)
    else (x.1, x.2 + 1)

/-- The fifth part, with `rtc_active` for the encoder. -/
def reapPhase (lib : Libraries) (input : PassInput) (server : Server) : Server :=
  let (server, liveSessions) := (List.finRange maxRtcSessions).foldl (reapSlot lib input) (server, 0)
  { server with rtcActive := decide (0 < liveSessions) }

/-! ### The loop -/

/-- One pass. -/
def serverPass (lib : Libraries) (model : DataModel) (server : Server) (input : PassInput) :
    Option Server :=
  (httpPhase model input (receivePhase lib input server)).map fun server ↦
    reapPhase lib input (fanOutPhase lib input (tickPhase lib input server))

/-- The sessions that are left when the loop is over are destroyed. -/
def serverShutdown (lib : Libraries) (ans : Fin maxRtcSessions → Answers) (server : Server) : Server :=
  (List.finRange maxRtcSessions).foldl
    (fun server slot ↦ (server.call lib slot ⟨ans slot, .destroy⟩).vacate slot) server

/-! ### How long a pass waits -/

section Timeout

variable {input : PassInput} {server : Server} {timeout : ℤ} {slot : Fin maxRtcSessions}

/-- A session makes the wait no longer. -/
theorem shortenTimeout_le : shortenTimeout input server timeout slot ≤ timeout := by
  rw [shortenTimeout]
  split
  · dsimp only
    split_ifs <;> omega
  · exact le_refl timeout

theorem shortenTimeout_nonneg (h : 0 ≤ timeout) : 0 ≤ shortenTimeout input server timeout slot := by
  rw [shortenTimeout]
  split
  · dsimp only
    split_ifs <;> omega
  · exact h

/-- A timer that is running is not slept through. -/
theorem shortenTimeout_le_timer {session : RtcSession} (hopen : server.open? slot = some session)
    (h : 0 ≤ dtlsSrtpNextTimeoutMs session.dtls (input.dtlsTimeout slot)) :
    shortenTimeout input server timeout slot ≤
      dtlsSrtpNextTimeoutMs session.dtls (input.dtlsTimeout slot) := by
  rw [shortenTimeout, hopen]
  dsimp only
  split_ifs <;> omega

/-- **The wait only becomes shorter** from slot to slot, and is no longer than the timers passed by. -/
theorem foldl_shortenTimeout_spec (l : List (Fin maxRtcSessions)) (h : 0 ≤ timeout) :
    0 ≤ l.foldl (shortenTimeout input server) timeout ∧
      l.foldl (shortenTimeout input server) timeout ≤ timeout ∧
      ∀ slot ∈ l, ∀ session, server.open? slot = some session →
        0 ≤ dtlsSrtpNextTimeoutMs session.dtls (input.dtlsTimeout slot) →
        l.foldl (shortenTimeout input server) timeout ≤
          dtlsSrtpNextTimeoutMs session.dtls (input.dtlsTimeout slot) := by
  induction l generalizing timeout with
  | nil => exact ⟨h, le_refl timeout, fun _ hslot ↦ absurd hslot List.not_mem_nil⟩
  | cons first l ih =>
    obtain ⟨hnonneg, hle, htimers⟩ := ih (shortenTimeout_nonneg h)
    refine ⟨hnonneg, hle.trans shortenTimeout_le, fun slot hslot session hopen htimer ↦ ?_⟩
    rcases List.mem_cons.1 hslot with rfl | hslot
    · exact hle.trans (shortenTimeout_le_timer hopen htimer)
    · exact htimers slot hslot session hopen htimer

/-- **No pass waits for ever, and none sleeps through a timer of DTLS**: `poll` gets a hundred milliseconds
at most, ten if there is a session, and no more than the time that a handshake of a session has left. -/
theorem pollTimeout_spec (input : PassInput) (server : Server) :
    0 ≤ pollTimeout input server ∧ pollTimeout input server ≤ 100 ∧
      ∀ slot session, server.open? slot = some session → pollTimeout input server ≤ 10 ∧
        (0 ≤ dtlsSrtpNextTimeoutMs session.dtls (input.dtlsTimeout slot) →
          pollTimeout input server ≤ dtlsSrtpNextTimeoutMs session.dtls (input.dtlsTimeout slot)) := by
  obtain ⟨hnonneg, hten, htimers⟩ :=
    @foldl_shortenTimeout_spec input server 10 (List.finRange maxRtcSessions) (by decide)
  rw [pollTimeout]
  split_ifs with hsessions
  · exact ⟨hnonneg, hten.trans (by decide), fun slot session hopen ↦
      ⟨hten, htimers slot (List.mem_finRange slot) session hopen⟩⟩
  · refine ⟨by decide, le_refl _, fun slot session hopen ↦ absurd ?_ hsessions⟩
    exact List.any_eq_true.2 ⟨slot, List.mem_finRange slot, by rw [hopen]; rfl⟩

end Timeout

end Camstream
