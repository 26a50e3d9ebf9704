import Mathlib.Logic.Relation
import Camstream.Rtp.Packets
import Camstream.Session.Session

/-!
# A session, abstractly

What the properties of a native session speak of: its place in the life cycle, the state of its DTLS
engine, the peer, the clocks of the timers, the retransmission cache and the log. Queues, counters, key
material and the packetizer are gone, and what is left moves in six ways (`InnerStep`):

* an effect that concerns nobody but the log, a datagram to the peer, a packet entering the cache;
* the handshake starts, the keys are there, the session closes.

A datagram or a valid check can change the state once more, in front of these steps
(`SessionView.front`), and a datagram that is sent again is one that a NACK asked for (`nackSeqs`). Every
operation of the program is a front and a chain of inner steps; that is `view_rtcCall` in
`Camstream.Session.Refinement`. The invariants are proved here, one step at a time, and hold of the
program by that theorem.
-/

namespace Camstream

open Bytes

/-- What a slot of the retransmission cache holds, given the bytes and the length stored for it. -/
def cacheEntry (data : List UInt8) (len : ℕ) : Option (List UInt8) :=
  if 0 < len then some (data.take len) else none

/-- The part of a session that inner steps leave alone. -/
structure SessionFrame where
  config : RtcSessionConfig
  udpFd : ℤ
  localUfrag : List UInt8
  localPwd : List UInt8
  remote : SockAddr
  haveRemote : Bool
  expectedFingerprint : List UInt8
  createdMs : ℕ
  lastRxMs : ℕ
  peerMoved : UInt32
  destroyed : Bool

/-- What never changes over the life of a session. -/
def SessionFrame.fixed (f : SessionFrame) :
    RtcSessionConfig × List UInt8 × List UInt8 × List UInt8 × ℕ :=
  (f.config, f.localUfrag, f.localPwd, f.expectedFingerprint, f.createdMs)

/-- The abstract state of a session. -/
structure SessionView extends SessionFrame where
  state : RtcSessionState
  engine : DtlsSrtpState
  handshakeStarted : Bool
  srtpReady : Bool
  cache : ℕ → Option (List UInt8)
  log : List Effect

/-- The abstraction function. -/
def RtcSession.view (session : RtcSession) : SessionView where
  config := session.config
  udpFd := session.udpFd
  localUfrag := session.localUfrag
  localPwd := session.localPwd
  remote := session.remote
  haveRemote := session.haveRemote
  expectedFingerprint := session.dtls.expectedFingerprint
  createdMs := session.createdMs
  lastRxMs := session.lastRxMs
  peerMoved := session.stats.peerMoved
  destroyed := session.destroyed
  state := session.state
  engine := session.dtls.state
  handshakeStarted := session.dtls.handshakeStarted
  srtpReady := session.dtls.srtpReady
  cache := fun slot ↦ cacheEntry (session.retxData slot) (session.retxLen slot)
  log := session.log

/-- Effects that can happen at any time: everything but datagrams to the peer, media protected, and
the closing hook. A certificate is only looked at when there is a fingerprint to compare it with. -/
def Effect.Quiet (f : SessionFrame) : Effect → Prop
  | sendStun _ _ | rtcpProtected _ | idrRequest => True
  | fingerprintCompared _ _ _ => f.expectedFingerprint ≠ []
  | sendUdp _ _ _ | rtpProtected _ | closedHook => False

namespace SessionView

/-- The certificate of the peer was found to have the fingerprint of the offer. -/
def Verified (lib : Libraries) (v : SessionView) : Prop :=
  ∃ peer md, lib.x509Digest peer = some md ∧ fingerprintHexEqual v.expectedFingerprint md = true ∧
    .fingerprintCompared peer md true ∈ v.log

/-- Add an effect to the log. -/
def emit (v : SessionView) (e : Effect) : SessionView :=
  { v with log := e :: v.log }

/-- The handshake has started. -/
def handshake (v : SessionView) : SessionView :=
  { v with state := .dtls, engine := .handshaking, handshakeStarted := true }

/-- The keys are there. -/
def connect (v : SessionView) : SessionView :=
  { v with state := .streaming, engine := .connected, srtpReady := true }

/-- The session and its engine are closed, the hook called if there is one. -/
def close (v : SessionView) : SessionView :=
  { v with
    state := .closed
    engine := .closed
    log := if v.config.onClosed then .closedHook :: v.log else v.log }

/-- A protected packet enters the cache under the sequence number it was sent with. -/
def store (v : SessionView) (seq : ℕ) (data : List UInt8) : SessionView :=
  { v with
    cache := Function.update v.cache (seq % retxCacheSize) (cacheEntry data (data.length % 2 ^ 16))
    log := .rtpProtected data :: v.log }

/-- A datagram arrived. -/
def arrive (v : SessionView) (now : ℕ) : SessionView :=
  { v with lastRxMs := now }

/-- Whether a valid check from `source` sets the peer or moves it. -/
def moves (v : SessionView) (source : SockAddr) : Bool :=
  !v.haveRemote || source.sinAddr != v.remote.sinAddr || source.sinPort != v.remote.sinPort

/-- A valid check from `source`: the peer follows it, and the first one starts ICE. -/
def accept (v : SessionView) (source : SockAddr) : SessionView :=
  { v with
    remote := if v.moves source then source else v.remote
    haveRemote := true
    peerMoved := if v.haveRemote && v.moves source then v.peerMoved + 1 else v.peerMoved
    state := if v.state = .new then .ice else v.state }

/-- The test a datagram has to pass. -/
def accepts (lib : Libraries) (v : SessionView) (buffer : List UInt8) (length : ℕ) : Bool :=
  decide (v.state ≠ .closed) && stunAccepts lib.hmac v.localPwd v.localUfrag buffer length

/-- Whether a datagram to the peer may be sent: a retransmission is one that was asked for, of what the
cache holds. -/
def Allows (v : SessionView) (asked : List ℕ) (data : List UInt8) : UdpKind → Prop
  | .retransmission seq => seq ∈ asked ∧ v.cache (seq % retxCacheSize) = some data
  | .dtls | .srtp | .srtcp => True

/-- What the cache holds for a sequence number is sent again, if it holds anything. -/
def resend (v : SessionView) (seq : ℕ) : SessionView :=
  match v.cache (seq % retxCacheSize) with
  | some data =>
    if v.udpFd < 0 ∨ !v.haveRemote then v
    else v.emit (.sendUdp (.retransmission seq) data v.remote)
  | none => v

/-- What an operation does to the view before its inner steps. -/
def front (lib : Libraries) (v : SessionView) (e : RtcEvent) : SessionView :=
  match e.call with
  | .onUdp buffer length source =>
    if v.state = .closed then v
    else if v.accepts lib buffer length then (v.arrive e.answers.rxMs).accept source
    else v.arrive e.answers.rxMs
  | .destroy => { v with destroyed := true }
  | _ => v

end SessionView

/-- The sequence numbers that an operation is asked to send again: those of a NACK that reaches a
streaming session. -/
def nackSeqs (lib : Libraries) (session : RtcSession) (e : RtcEvent) : List ℕ :=
  match e.call with
  | .onUdp buffer length _ =>
    let pt := buffer.getD 1 0 &&& 0x7F
    if rtcClassifyPacket buffer length = .rtp ∧ 64 ≤ pt ∧ pt ≤ 95 ∧ session.state = .streaming then
      match (dtlsSrtpUnprotectRtcp lib session (buffer.take length)).2 with
      | none => []
      | some packet =>
        let feedback := rtcpParse packet packet.length
        if feedback.bye then [] else feedback.nackSeq
    else []
  | _ => []

/-- One inner step of an operation that is asked to send some packets again. -/
inductive InnerStep (lib : Libraries) (asked : List ℕ) : SessionView → SessionView → Prop
  | effect (v : SessionView) (e : Effect) (he : e.Quiet v.toSessionFrame) :
      InnerStep lib asked v (v.emit e)
  | send (v : SessionView) (kind : UdpKind) (data : List UInt8) (h : v.haveRemote = true)
      (hkind : v.Allows asked data kind) : InnerStep lib asked v (v.emit (.sendUdp kind data v.remote))
  | store (v : SessionView) (call : SinkCall) (key : List UInt8) (calls : ℕ) (data : List UInt8)
      (hcall : call.WellFormed) (hfits : call.packet.length ≤ rtpMaxPacket + 64)
      (hdata : lib.srtpProtect key calls call.packet = some data) :
      InnerStep lib asked v (v.store call.sequence.toNat data)
  | handshake (v : SessionView) (h : v.state = .ice) : InnerStep lib asked v v.handshake
  | connect (v : SessionView) (h : v.state = .dtls)
      (hfp : v.expectedFingerprint = [] ∨ v.Verified lib) : InnerStep lib asked v v.connect
  | close (v : SessionView) (h : v.state ≠ .closed) : InnerStep lib asked v v.close

/-- A chain of inner steps. -/
abbrev Inner (lib : Libraries) (asked : List ℕ) : SessionView → SessionView → Prop :=
  Relation.ReflTransGen (InnerStep lib asked)

/-- What every step preserves, every chain preserves. -/
theorem Inner.preserves {lib : Libraries} {asked : List ℕ} {P : SessionView → Prop}
    (hstep : ∀ v w, InnerStep lib asked v w → P v → P w) {v w : SessionView} (h : Inner lib asked v w)
    (hv : P v) : P w := by
  induction h with
  | refl => exact hv
  | tail _ hs ih => exact hstep _ _ hs ih

/-! ### What inner steps leave alone -/

section Frame

variable {lib : Libraries} {asked : List ℕ} {v w : SessionView}

/-- **The frame rule.** The peer, the timers' clocks and the credentials only change in front of the
inner steps. -/
theorem Inner.frame_eq (h : Inner lib asked v w) : w.toSessionFrame = v.toSessionFrame := by
  induction h with
  | refl => rfl
  | tail _ hs ih =>
    refine Eq.trans ?_ ih
    cases hs <;> rfl

/-- Neither does the front touch what is fixed. -/
theorem SessionView.fixed_front (v : SessionView) (lib : Libraries) (e : RtcEvent) :
    (v.front lib e).fixed = v.fixed := by
  rw [SessionView.front]
  split
  · split_ifs <;> rfl
  · rfl
  · rfl

/-- Inner steps leave the configuration alone, -/
theorem Inner.fixed_eq (h : Inner lib asked v w) : w.fixed = v.fixed :=
  congrArg SessionFrame.fixed h.frame_eq

/-- the peer, -/
theorem Inner.remote_eq (h : Inner lib asked v w) : w.remote = v.remote :=
  congrArg SessionFrame.remote h.frame_eq

/-- and whether there is one. -/
theorem Inner.haveRemote_eq (h : Inner lib asked v w) : w.haveRemote = v.haveRemote :=
  congrArg SessionFrame.haveRemote h.frame_eq

end Frame

/-! ### The life cycle -/

section Lifecycle

variable {lib : Libraries} {asked : List ℕ} {v w : SessionView}

/-- The session and its engine are in step. -/
def SessionView.InPhase (v : SessionView) : Prop :=
  match v.state with
  | .new => v.engine = .init ∧ v.handshakeStarted = false ∧ v.srtpReady = false ∧ v.haveRemote = false
  | .ice => v.engine = .init ∧ v.handshakeStarted = false ∧ v.srtpReady = false ∧ v.haveRemote = true
  | .dtls =>
    v.engine = .handshaking ∧ v.handshakeStarted = true ∧ v.srtpReady = false ∧ v.haveRemote = true
  | .streaming =>
    v.engine = .connected ∧ v.handshakeStarted = true ∧ v.srtpReady = true ∧ v.haveRemote = true
  | .closed => v.engine = .closed

/-- The life cycle so far: the phase is right, and the closing hook was called once, by a session that
is closed and has one. -/
structure SessionView.Lifecycle (v : SessionView) : Prop where
  inPhase : v.InPhase
  count_closedHook :
    v.log.count .closedHook = if v.state = .closed ∧ v.config.onClosed = true then 1 else 0

/-- **No inner step goes back.** -/
theorem Inner.rank_le (h : Inner lib asked v w) : v.state.rank ≤ w.state.rank := by
  refine h.preserves (P := fun u ↦ v.state.rank ≤ u.state.rank) (fun u u' hs hu ↦ hu.trans ?_)
    (Nat.le_refl _)
  cases hs with
  | effect | send | store => exact Nat.le_refl _
  | handshake h =>
    rw [h]
    exact (by decide : RtcSessionState.ice.rank ≤ RtcSessionState.dtls.rank)
  | connect h hfp =>
    rw [h]
    exact (by decide : RtcSessionState.dtls.rank ≤ RtcSessionState.streaming.rank)
  | close h =>
    show u.state.rank ≤ 4
    cases u.state <;> decide

/-- **Every inner step keeps the life cycle.** -/
theorem InnerStep.lifecycle (h : InnerStep lib asked v w) (hv : v.Lifecycle) : w.Lifecycle := by
  obtain ⟨hphase, hhook⟩ := hv
  cases h with
  | effect e he =>
    refine ⟨hphase, (List.count_cons_of_ne ?_).trans hhook⟩
    rintro rfl
    exact he
  | send kind data h hkind => exact ⟨hphase, (List.count_cons_of_ne (by rintro ⟨⟩)).trans hhook⟩
  | store call key calls data hcall hfits hdata =>
    exact ⟨hphase, (List.count_cons_of_ne (by rintro ⟨⟩)).trans hhook⟩
  | handshake h =>
    simp only [SessionView.InPhase, h] at hphase
    simp only [h, reduceCtorEq, false_and, if_false] at hhook
    exact ⟨⟨rfl, rfl, hphase.2.2.1, hphase.2.2.2⟩, hhook⟩
  | connect h hfp =>
    -- The handshake has started and there is a peer: that is what the DTLS phase says.
    simp only [SessionView.InPhase, h] at hphase
    simp only [h, reduceCtorEq, false_and, if_false] at hhook
    exact ⟨⟨rfl, hphase.2.1, rfl, hphase.2.2.2⟩, hhook⟩
  | close h =>
    -- An open session has not called the hook, so this is the first time.
    refine ⟨rfl, ?_⟩
    simp only [h, false_and, if_false] at hhook
    show (if v.config.onClosed then .closedHook :: v.log else v.log).count .closedHook =
      if (RtcSessionState.closed = .closed ∧ v.config.onClosed = true) then 1 else 0
    simp only [true_and]
    split_ifs
    · rw [List.count_cons_self, hhook]
    · exact hhook

/-- Inner steps keep the life cycle. -/
theorem Inner.lifecycle (h : Inner lib asked v w) (hv : v.Lifecycle) : w.Lifecycle :=
  h.preserves (fun _ _ ↦ InnerStep.lifecycle) hv

/-- Accepting a check keeps the life cycle: the first one starts ICE. -/
theorem SessionView.Lifecycle.accept (hv : v.Lifecycle) (hstate : v.state ≠ .closed)
    (source : SockAddr) : (v.accept source).Lifecycle := by
  obtain ⟨hphase, hhook⟩ := hv
  rcases h : v.state with - | - | - | - | - <;>
    simp only [SessionView.InPhase, h, reduceCtorEq, false_and, if_false] at hphase hhook
  case closed => exact absurd h hstate
  all_goals
    have hst : (v.accept source).state = if v.state = .new then .ice else v.state := rfl
    simp only [h, reduceCtorEq, if_true, if_false] at hst
    refine ⟨?_, ?_⟩
    · simp only [SessionView.InPhase, hst]
      exact ⟨hphase.1, hphase.2.1, hphase.2.2.1, rfl⟩
    · simp only [hst, reduceCtorEq, false_and, if_false]
      exact hhook

/-- The front of an operation keeps the life cycle. -/
theorem SessionView.Lifecycle.front (hv : v.Lifecycle) (lib : Libraries) (e : RtcEvent) :
    (v.front lib e).Lifecycle := by
  rw [SessionView.front]
  split
  · split_ifs with hclosed haccepts
    · exact hv
    · exact SessionView.Lifecycle.accept (v := v.arrive e.answers.rxMs) ⟨hv.inPhase, hv.count_closedHook⟩
        hclosed _
    · exact ⟨hv.inPhase, hv.count_closedHook⟩
  · exact ⟨hv.inPhase, hv.count_closedHook⟩
  · exact hv

/-- The front of an operation does not go back, and leaves a closed session alone. -/
theorem SessionView.rank_le_front (v : SessionView) (lib : Libraries) (e : RtcEvent) :
    v.state.rank ≤ (v.front lib e).state.rank := by
  rw [SessionView.front]
  split
  · split_ifs with hclosed haccepts
    · exact Nat.le_refl _
    · show v.state.rank ≤ (if v.state = .new then RtcSessionState.ice else v.state).rank
      split_ifs with h
      · rw [h]
        exact (by decide : RtcSessionState.new.rank ≤ RtcSessionState.ice.rank)
      · exact Nat.le_refl _
    · exact Nat.le_refl _
  · exact Nat.le_refl _
  · exact Nat.le_refl _

end Lifecycle

end Camstream
