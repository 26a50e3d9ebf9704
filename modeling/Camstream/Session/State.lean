import Camstream.Rtp.H264
import Camstream.Sdp.Offer
import Camstream.Stun.Message

/-!
# The state of a native session

The records of `src/webrtc/webrtc_session.c` and `src/webrtc/dtls_srtp.c`, and what the program talks to.
A session owns its DTLS engine, and the engine calls back into the session, so one record holds both.

What is outside the program enters in two ways. `Libraries` are functions: HMAC, the certificate digest,
and the protection functions of libsrtp, which may depend on the key and on how often the context was
used. Everything else an operation asks while it runs — clock readings, allocations, what an OpenSSL
call reads, writes and returns — is answered by the `Answers` that come with the operation, so that a
statement about all answers is a statement about every behaviour of the library and every clock.

`RtcSession.log` is not in the source: it records what the session did to the outside, newest first.
-/

namespace Camstream

/-! ### Outside -/

/-- A function of libsrtp on one context: key, number of earlier calls, packet. `none` is an error. -/
abbrev SrtpFunction := List UInt8 → ℕ → List UInt8 → Option (List UInt8)

/-- The library functions whose results are data. -/
structure Libraries where
  hmac : HmacSha1
  /-- `X509_digest` with SHA-256, of an encoded certificate. -/
  x509Digest : List UInt8 → Option (List UInt8)
  srtpProtect : SrtpFunction
  srtpProtectRtcp : SrtpFunction
  srtpUnprotectRtcp : SrtpFunction

/-- What an OpenSSL call does to the BIOs of the session. -/
inductive BioOp
  | read (size : ℕ)
  | write (buf : List UInt8)
  deriving DecidableEq, Repr

/-- What `SSL_get_error` says. -/
inductive SslError
  | wantRead
  | wantWrite
  | other
  deriving DecidableEq, Repr

/-- One call of `SSL_accept` or `SSL_read`. -/
structure SslCall where
  io : List BioOp
  rc : ℤ
  error : SslError
  deriving DecidableEq, Repr

/-- The answers to what one operation of the session may ask, each of them at most once. -/
structure Answers where
  /-- `now_ms()` in `rtc_session_on_udp`. -/
  rxMs : ℕ
  /-- `now_ms()` in `rtc_session_request_idr`. -/
  idrMs : ℕ
  /-- `now_ms()` in `dtls_on_connected`. -/
  connectedMs : ℕ
  /-- `wall_us()` for a sender report. -/
  wallUs : ℕ
  /-- The buffer a STUN response is built in, before it is written. -/
  stack : List UInt8
  /-- Whether the `malloc` of `dtls_srtp_on_udp` succeeds. -/
  malloc : Bool
  /-- `DTLSv1_get_timeout`: seconds and microseconds left. -/
  dtlsTimeout : Option (ℕ × ℕ)
  /-- `DTLSv1_handle_timeout` -/
  handleTimeout : List BioOp
  /-- `SSL_accept` or `SSL_read` in `pump_ssl`. -/
  ssl : SslCall
  /-- `SSL_is_init_finished` -/
  initFinished : Bool
  /-- `SSL_export_keying_material` -/
  keyingMaterial : Option (List UInt8)
  /-- `srtp_create` for each direction. -/
  srtpCreateOut : Bool
  srtpCreateIn : Bool
  /-- `SSL_get1_peer_certificate` -/
  peerCertificate : Option (List UInt8)
  /-- `SSL_shutdown` -/
  sslShutdown : List BioOp

/-! ### The DTLS engine -/

/-- `DtlsSrtpState` -/
inductive DtlsSrtpState
  | init
  | handshaking
  | connected
  | failed
  | closed
  deriving DecidableEq, Repr

/-- A libsrtp session: its key and the number of calls made on it. -/
structure SrtpContext where
  key : List UInt8
  calls : ℕ
  deriving DecidableEq, Repr

/-- `DTLS_RX_QUEUE` -/
def dtlsRxQueue : ℕ := 64

/-- `struct DtlsSrtp`. The `SSL` object exists as long as the engine does. -/
structure DtlsSrtp where
  state : DtlsSrtpState
  rxq : ℕ → Option (List UInt8)
  rxHead : ℕ
  rxTail : ℕ
  rxCount : ℕ
  srtpOut : Option SrtpContext
  srtpIn : Option SrtpContext
  srtpReady : Bool
  expectedFingerprint : List UInt8
  handshakeStarted : Bool
  fingerprintOk : Bool

/-! ### The session -/

/-- `RtcSessionState` -/
inductive RtcSessionState
  | new
  | ice
  | dtls
  | streaming
  | closed
  deriving DecidableEq, Repr

/-- The order of the life cycle. -/
def RtcSessionState.rank : RtcSessionState → ℕ
  | new => 0
  | ice => 1
  | dtls => 2
  | streaming => 3
  | closed => 4

/-- `RtcSessionConfig`: the parsed offer, and whether the server hooks are there to be called. -/
structure RtcSessionConfig where
  offer : SdpOffer
  onIdrRequest : Bool
  onClosed : Bool
  deriving DecidableEq, Repr

/-- `RtcSessionStats` -/
structure RtcSessionStats where
  packetsSent : UInt64
  bytesSent : UInt64
  pliReceived : UInt32
  nacksReceived : UInt32
  retransmissions : UInt32
  rtcpSent : UInt32
  stunRx : UInt32
  stunOk : UInt32
  stunBadUser : UInt32
  peerMoved : UInt32
  deriving DecidableEq, Repr

/-- What a datagram sent through `dtls_send_udp` is. -/
inductive UdpKind
  | dtls
  | srtp
  | srtcp
  | retransmission (seq : ℕ)
  deriving DecidableEq, Repr

/-- What a session does to the outside. -/
inductive Effect
  /-- A datagram that `dtls_send_udp` sent. -/
  | sendUdp (kind : UdpKind) (data : List UInt8) (dest : SockAddr)
  /-- A STUN response. -/
  | sendStun (data : List UInt8) (dest : SockAddr)
  /-- An RTP packet was protected, with this result. -/
  | rtpProtected (data : List UInt8)
  /-- This RTCP packet was protected. -/
  | rtcpProtected (packet : List UInt8)
  /-- The digest of a peer certificate was compared with the expected fingerprint. -/
  | fingerprintCompared (peer md : List UInt8) (equal : Bool)
  /-- The `on_idr_request` hook. -/
  | idrRequest
  /-- The `on_closed` hook. -/
  | closedHook
  deriving DecidableEq

/-- `struct RtcSession` -/
structure RtcSession where
  config : RtcSessionConfig
  state : RtcSessionState
  udpFd : ℤ
  localUfrag : List UInt8
  localPwd : List UInt8
  remote : SockAddr
  haveRemote : Bool
  dtls : DtlsSrtp
  rtp : RtpH264
  createdMs : ℕ
  lastRxMs : ℕ
  lastIdrMs : ℕ
  nextSrMs : ℕ
  idrRequested : Bool
  stats : RtcSessionStats
  retxData : ℕ → List UInt8
  retxLen : ℕ → ℕ
  /-- Set by `rtc_session_destroy`; no operation is possible afterwards. -/
  destroyed : Bool
  log : List Effect

/-- Record an effect. -/
def RtcSession.emit (session : RtcSession) (e : Effect) : RtcSession :=
  { session with log := e :: session.log }

end Camstream
