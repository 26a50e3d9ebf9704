import Camstream.Lib.Reentry
import Camstream.Session.State

/-!
# The session over libpeer

`src/webrtc/webrtc_session_libpeer.c`: the backend in which libpeer does ICE, DTLS and SRTP. libpeer calls back
from `peer_connection_loop`, and from inside `peer_connection_close`, which `rtc_session_close` calls before the
session is marked closed; so `rtc_session_close` can be entered again from its own callback. It is modelled with
room for so many activations, `rtcSessionClose`; what libpeer delivers during the `k`-th call of
`peer_connection_close` is `closing k`.

A session without a `PeerConnection` never leaves `rtc_session_create`, and what the files log is left out.
-/

namespace Camstream.Libpeer

/-- `PeerConnectionState` -/
inductive PeerConnectionState
  | closed
  | new
  | checking
  | connected
  | completed
  | failed
  | disconnected
  deriving DecidableEq, Repr

/-- A callback, with what the clock reads in it. -/
inductive PeerCallback
  | iceStateChange (state : PeerConnectionState) (rxMs idrMs : UInt64)
  | iceCandidate (present : Bool)
  | requestKeyframe (idrMs : UInt64)
  deriving DecidableEq, Repr

/-- What a session does that is seen from outside. -/
inductive PeerEffect
  /-- A new value of `state`. -/
  | state (state : RtcSessionState)
  | idrRequest
  | closedHook
  | sendVideo (accessUnit : List UInt8)
  deriving DecidableEq, Repr

/-- `struct RtcSession`. The effects are recorded newest first; `closeCalls` counts the calls of
`peer_connection_close`. -/
structure RtcSession where
  /-- Whether the hooks of the configuration are set. -/
  onIdrRequest : Bool
  onClosed : Bool
  state : RtcSessionState
  pc : Bool
  createdMs : UInt64
  lastRxMs : UInt64
  lastIdrMs : UInt64
  idrRequested : Bool
  streamingAnnounced : Bool
  stats : RtcSessionStats
  /-- Set by `rtc_session_destroy`; there is nothing to call afterwards. -/
  destroyed : Bool
  closeCalls : ℕ
  log : List PeerEffect

/-- Record an effect. -/
def RtcSession.emit (session : RtcSession) (e : PeerEffect) : RtcSession :=
  { session with log := e :: session.log }

/-- `SESSION_IDLE_TIMEOUT_MS` -/
def sessionIdleTimeoutMs : UInt64 := 15000

/-- `SESSION_DTLS_WATCHDOG_MS` -/
def sessionDtlsWatchdogMs : UInt64 := 30000

/-- `IDR_MIN_INTERVAL_MS` -/
def idrMinIntervalMs : UInt64 := 400

/-! ### Callbacks -/

/-- `set_state` -/
def setState (session : RtcSession) (state : RtcSessionState) : RtcSession :=
  if session.state = state then session else { session with state := state }.emit (.state state)

/-- `rtc_session_request_idr` -/
def rtcSessionRequestIdr (session : RtcSession) (now : UInt64) : RtcSession :=
  if !session.onIdrRequest then session
  else if session.lastIdrMs ≠ 0 ∧ now - session.lastIdrMs < idrMinIntervalMs then session
  else { session with lastIdrMs := now, idrRequested := true }.emit .idrRequest

/-- `on_ice_state_change`, with the `rtc_session_close` it calls. -/
def onIceStateChange (close : RtcSession → Option RtcSession) (session : RtcSession)
    (pcState : PeerConnectionState) (rxMs idrMs : UInt64) : Option RtcSession :=
  match pcState with
  | .new => some (setState session .new)
  | .checking => some (setState session .ice)
  | .connected | .completed =>
    let session := { setState session .streaming with lastRxMs := rxMs }
    some (if session.streamingAnnounced then session else rtcSessionRequestIdr session idrMs)
  | .failed | .closed | .disconnected => close session

/-- `on_ice_candidate` -/
def onIceCandidate (session : RtcSession) (present : Bool) : RtcSession :=
  if present then { session with stats.stunOk := session.stats.stunOk + 1 } else session

/-- `on_request_keyframe` -/
def onRequestKeyframe (session : RtcSession) (idrMs : UInt64) : RtcSession :=
  rtcSessionRequestIdr { session with stats.pliReceived := session.stats.pliReceived + 1 } idrMs

/-- libpeer calls back. -/
def callback (close : RtcSession → Option RtcSession) (session : RtcSession) :
    PeerCallback → Option RtcSession
  | .iceStateChange pcState rxMs idrMs => onIceStateChange close session pcState rxMs idrMs
  | .iceCandidate present => some (onIceCandidate session present)
  | .requestKeyframe idrMs => some (onRequestKeyframe session idrMs)

/-! ### The calls -/

section Calls

variable (closing : ℕ → List PeerCallback)

/-- The body of `rtc_session_close`, with the function that the callbacks call. -/
def rtcSessionCloseBody (close : RtcSession → Option RtcSession) (session : RtcSession) :
    Option RtcSession :=
  if session.state = .closed then some session
  else do
    let session ←
      if session.pc then
        Run.exec (callback close) { session with closeCalls := session.closeCalls + 1 }
          (closing session.closeCalls)
      else some session
    let session := setState session .closed
    some (if session.onClosed then session.emit .closedHook else session)

/-- `rtc_session_close` with room for so many activations on the stack; `none` needs more. -/
def rtcSessionClose (depth : ℕ) : RtcSession → Option RtcSession :=
  Reentry.depth (rtcSessionCloseBody closing) depth

/-- The idle timeout of `rtc_session_tick`: only a session that never connected. -/
def idleTimeout (state : RtcSessionState) (lastRxMs now : UInt64) : Bool :=
  sessionIdleTimeoutMs < now - lastRxMs && (state = .new || state = .ice)

/-- The watchdog of `rtc_session_tick`. -/
def dtlsWatchdog (state : RtcSessionState) (createdMs now : UInt64) : Bool :=
  state = .ice && sessionDtlsWatchdogMs < now - createdMs

/-- `rtc_session_tick`; `peer_connection_loop` delivers `callbacks`. -/
def rtcSessionTick (depth : ℕ) (session : RtcSession) (now : UInt64) (callbacks : List PeerCallback) :
    Option RtcSession :=
  if session.state = .closed then some session
  else do
    let session ←
      if session.pc then Run.exec (callback (rtcSessionClose closing depth)) session callbacks
      else some session
    if idleTimeout session.state session.lastRxMs now then rtcSessionClose closing depth session
    else if dtlsWatchdog session.state session.createdMs now then rtcSessionClose closing depth session
    else some session

/-- `rtc_session_send_access_unit`; `result` is what `peer_connection_send_video` returns. -/
def rtcSessionSendAccessUnit (session : RtcSession) (accessUnit : List UInt8) (isIdr : Bool)
    (result : ℤ) : RtcSession :=
  if !session.pc ∨ session.state ≠ .streaming then session
  else
    let session := if isIdr ∧ session.idrRequested then { session with idrRequested := false } else session
    let session := session.emit (.sendVideo accessUnit)
    if result = 0 then
      { session with
        stats.packetsSent := session.stats.packetsSent + 1
        stats.bytesSent := session.stats.bytesSent + UInt64.ofNat accessUnit.length
        streamingAnnounced := true }
    else session

/-- `rtc_session_destroy` -/
def rtcSessionDestroy (depth : ℕ) (session : RtcSession) : Option RtcSession := do
  let session ← if session.state ≠ .closed then rtcSessionClose closing depth session else some session
  some { session with pc := false, destroyed := true }

/-- A call of the session's interface. -/
inductive PeerEvent
  | tick (now : UInt64) (callbacks : List PeerCallback)
  | sendAccessUnit (accessUnit : List UInt8) (isIdr : Bool) (result : ℤ)
  | requestIdr (now : UInt64)
  | close
  | destroy

/-- What a call does, with room for so many activations of `rtc_session_close`. -/
def peerStep (depth : ℕ) (session : RtcSession) (e : PeerEvent) : Option RtcSession :=
  if session.destroyed then some session
  else
    match e with
    | .tick now callbacks => rtcSessionTick closing depth session now callbacks
    | .sendAccessUnit accessUnit isIdr result =>
      some (rtcSessionSendAccessUnit session accessUnit isIdr result)
    | .requestIdr now => some (rtcSessionRequestIdr session now)
    | .close => rtcSessionClose closing depth session
    | .destroy => rtcSessionDestroy closing depth session

end Calls

/-! ### Creation -/

/-- What `rtc_session_create` asks of its environment. -/
structure CreateAnswers where
  /-- `calloc` and the two `strdup`. -/
  allocated : Bool
  nowMs : UInt64
  /-- `peer_connection_create` -/
  pc : Bool
  /-- `peer_connection_create_answer` -/
  answer : Option (List UInt8)

/-- `rtc_session_create` for an offer, with room for an answer of so many bytes. -/
def rtcSessionCreate (onIdrRequest onClosed : Bool) (answers : CreateAnswers) (answerCapacity : ℕ) :
    Option RtcSession :=
  if !answers.allocated ∨ !answers.pc then none
  else
    match answers.answer with
    | none => none
    | some answer =>
      if answerCapacity < answer.length + 1 then none
      else
        some (setState
          { onIdrRequest := onIdrRequest
            onClosed := onClosed
            state := .new
            pc := true
            createdMs := answers.nowMs
            lastRxMs := answers.nowMs
            lastIdrMs := 0
            idrRequested := false
            streamingAnnounced := false
            stats := ⟨0, 0, 0, 0, 0, 0, 0, 0, 0, 0⟩
            destroyed := false
            closeCalls := 0
            log := [] } .ice)

end Camstream.Libpeer
