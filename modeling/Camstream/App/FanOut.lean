import Camstream.App.Viewers
import Camstream.Rtp.Receiver
import Camstream.Session.Keys
import Camstream.Session.PayloadType

/-!
# What a viewer is sent

The fourth part of a pass, down to the datagrams. Every viewer has a packetizer and a libsrtp context of
its own, and so what two viewers are sent differs in the headers and in the protection; the payloads are
the same. `fanOut_of_passes` says what the log of a viewer has after a pass: the packets of all access
units that were popped, in their order, each protected once and sent to the peer of the viewer. Nothing else
moves its packetizer, so that the packets of many passes are one sequence (`stream_of_passes`).
-/

namespace Camstream

variable {lib : Libraries} {model : DataModel} {server server' : Server} {input : PassInput}
  {s : RtcSession} {ans : Answers}

/-! ### Effects -/

/-- What a viewer's context makes of some packets: each is protected, and sent unless that fails. -/
def mediaEffects (lib : Libraries) (remote : SockAddr) (ctx : SrtpContext) : List (List UInt8) → List Effect
  | [] => []
  | pkt :: pkts =>
    (match lib.srtpProtect ctx.key ctx.calls pkt with
      | some data => [.rtpProtected data, .sendUdp .srtp data remote]
      | none => []) ++ mediaEffects lib remote ⟨ctx.key, ctx.calls + 1⟩ pkts

/-- Each packet takes one call of the context, so the second part goes on where the first has stopped. -/
theorem mediaEffects_append (lib : Libraries) (remote : SockAddr) (ctx : SrtpContext)
    (pkts pkts' : List (List UInt8)) :
    mediaEffects lib remote ctx (pkts ++ pkts') =
      mediaEffects lib remote ctx pkts ++
        mediaEffects lib remote ⟨ctx.key, ctx.calls + pkts.length⟩ pkts' := by
  induction pkts generalizing ctx with
  | nil => rfl
  | cons pkt pkts ih =>
    rw [List.cons_append, mediaEffects, mediaEffects, ih, List.append_assoc, List.length_cons,
      Nat.add_right_comm, Nat.add_assoc ctx.calls]

/-- What sending does not touch. -/
def RtcSession.link (s : RtcSession) : RtcSessionState × SockAddr × Bool × ℤ × Bool :=
  (s.state, s.remote, s.haveRemote, s.udpFd, s.dtls.srtpReady)

/-- A session with a peer and keys: what it is sent leaves it through this context. -/
structure RtcSession.SendsBy (s : RtcSession) (ctx : SrtpContext) : Prop where
  haveRemote : s.haveRemote = true
  udpFd : 0 ≤ s.udpFd
  srtpReady : s.dtls.srtpReady = true
  srtpOut : s.dtls.srtpOut = some ctx

/-- What some packets do to a session. -/
structure Sends (lib : Libraries) (s : RtcSession) (ctx : SrtpContext) (pkts : List (List UInt8))
    (s' : RtcSession) : Prop where
  link : s'.link = s.link
  srtpOut : s'.dtls.srtpOut = some ⟨ctx.key, ctx.calls + pkts.length⟩
  log : s'.log = (mediaEffects lib s.remote ctx pkts).reverse ++ s.log

theorem Sends.refl {ctx : SrtpContext} (h : s.dtls.srtpOut = some ctx) : Sends lib s ctx [] s :=
  ⟨rfl, h, rfl⟩

/-- After the packets the session sends by the same context, further on. -/
theorem Sends.sendsBy {ctx : SrtpContext} {pkts : List (List UInt8)} {s' : RtcSession}
    (h : Sends lib s ctx pkts s') (hs : s.SendsBy ctx) :
    s'.SendsBy ⟨ctx.key, ctx.calls + pkts.length⟩ := by
  obtain ⟨-, -, hremote, hfd, hready⟩ : _ ∧ s'.remote = s.remote ∧ s'.haveRemote = s.haveRemote ∧
      s'.udpFd = s.udpFd ∧ s'.dtls.srtpReady = s.dtls.srtpReady := by
    simpa only [RtcSession.link, Prod.mk.injEq] using h.link
  exact ⟨hremote.trans hs.haveRemote, hfd ▸ hs.udpFd, hready.trans hs.srtpReady, h.srtpOut⟩

theorem Sends.trans {ctx : SrtpContext} {pkts pkts' : List (List UInt8)} {s' s'' : RtcSession}
    (h : Sends lib s ctx pkts s') (h' : Sends lib s' ⟨ctx.key, ctx.calls + pkts.length⟩ pkts' s'') :
    Sends lib s ctx (pkts ++ pkts') s'' := by
  have hremote : s'.remote = s.remote := congrArg (fun l ↦ l.2.1) h.link
  refine ⟨h'.link.trans h.link, ?_, ?_⟩
  · rw [h'.srtpOut, List.length_append, Nat.add_assoc]
  · rw [h'.log, h.log, hremote, mediaEffects_append, List.reverse_append, List.append_assoc]

/-- **One packet.** -/
theorem sends_rtpPacketSink (lib : Libraries) (ans : Answers) {ctx : SrtpContext} (hs : s.SendsBy ctx)
    {call : SinkCall}
    (hfits : call.packet.length ≤ 1200) :
    Sends lib s ctx [call.packet] (rtpPacketSink lib ans s call) ∧
      (rtpPacketSink lib ans s call).rtp = s.rtp := by
  have hsize : ¬ rtpMaxPacket + 64 < call.packet.length := by
    rw [rtpMaxPacket]
    omega
  have hgo : ¬ (s.udpFd < 0 ∨ (!s.haveRemote) = true) := by
    rw [hs.haveRemote]
    have := hs.udpFd
    simpa using this
  rw [rtpPacketSink, if_neg hsize, dtlsSrtpSendRtp, hs.srtpReady, Bool.not_true, if_neg Bool.false_ne_true,
    hs.srtpOut]
  dsimp only
  rcases hprotect : lib.srtpProtect ctx.key ctx.calls call.packet with - | data
  · refine ⟨⟨rfl, rfl, ?_⟩, rfl⟩
    rw [mediaEffects, hprotect]
    rfl
  · dsimp only [rtcCallbacks, dtlsCallbacks, dtlsSendUdp, RtcSession.emit]
    rw [if_neg hgo]
    refine ⟨⟨rfl, rfl, ?_⟩, rfl⟩
    rw [mediaEffects, hprotect]
    rfl

/-- What the packetizer hands over in one access unit is sent packet by packet. -/
theorem sends_foldl_rtpPacketSink (lib : Libraries) (ans : Answers) {ctx : SrtpContext} (hs : s.SendsBy ctx)
    {calls : List SinkCall}
    (hfits : ∀ c ∈ calls, c.packet.length ≤ 1200) :
    Sends lib s ctx (calls.map SinkCall.packet) (calls.foldl (rtpPacketSink lib ans) s) ∧
      (calls.foldl (rtpPacketSink lib ans) s).rtp = s.rtp := by
  -- By induction on the packets; each goes on with the context that the one before has left.
  induction calls generalizing s ctx with
  | nil => exact ⟨Sends.refl hs.srtpOut, rfl⟩
  | cons call calls ih =>
    obtain ⟨hone, hrtp⟩ := sends_rtpPacketSink lib ans hs (hfits call List.mem_cons_self)
    obtain ⟨hrest, hrtp'⟩ := ih (hone.sendsBy hs) fun c hc ↦ hfits c (List.mem_cons_of_mem _ hc)
    exact ⟨hone.trans hrest, hrtp'.trans hrtp⟩

/-- **One access unit.** -/
theorem sends_rtcSessionSendAccessUnit (lib : Libraries) (ans : Answers) {ctx : SrtpContext}
    (hs : s.SendsBy ctx)
    (hstate : s.state = .streaming) (au : List UInt8) (ptsUs : UInt64) (isIdr : Bool) :
    Sends lib s ctx ((sinkCalls s.rtp au ptsUs).map SinkCall.packet)
        (rtcSessionSendAccessUnit lib ans s au ptsUs isIdr).1 ∧
      (rtcSessionSendAccessUnit lib ans s au ptsUs isIdr).1.rtp = (rtpH264Packetize s.rtp au ptsUs).1 := by
  rw [rtcSessionSendAccessUnit]
  -- `idr_requested` is cleared before the packets are made; nothing that sends them reads it.
  set t : RtcSession := if isIdr ∧ s.idrRequested then { s with idrRequested := false } else s with ht
  have hsame : t.link = s.link ∧ t.dtls = s.dtls ∧ t.rtp = s.rtp ∧ t.log = s.log ∧ t.remote = s.remote := by
    rw [ht]
    split_ifs <;> exact ⟨rfl, rfl, rfl, rfl, rfl⟩
  obtain ⟨hlink, hdtls, hrtp, hlog, hremote⟩ := hsame
  have hstate' : ¬ t.state ≠ .streaming := by
    rw [show t.state = s.state from congrArg Prod.fst hlink, hstate]
    exact fun h ↦ h rfl
  dsimp only
  rw [if_neg hstate', hrtp]
  have hready : RtcSession.SendsBy { t with rtp := (rtpH264Packetize s.rtp au ptsUs).1 } ctx := by
    refine ⟨?_, ?_, ?_, ?_⟩
    · exact (congrArg (fun l ↦ l.2.2.1) hlink).trans hs.haveRemote
    · show 0 ≤ t.udpFd
      rw [show t.udpFd = s.udpFd from congrArg (fun l ↦ l.2.2.2.1) hlink]
      exact hs.udpFd
    · show t.dtls.srtpReady = true
      rw [hdtls]
      exact hs.srtpReady
    · show t.dtls.srtpOut = some ctx
      rw [hdtls]
      exact hs.srtpOut
  obtain ⟨hsends, hrtp'⟩ := sends_foldl_rtpPacketSink lib ans hready
    fun c (hc : c ∈ sinkCalls s.rtp au ptsUs) ↦ (length_of_mem_sinkCalls hc).2
  refine ⟨⟨hsends.link.trans hlink, hsends.srtpOut, ?_⟩, hrtp'⟩
  rw [← hlog, ← hremote]
  exact hsends.log

/-- **The access units of a pass.** -/
theorem sends_foldl_sendEvent (lib : Libraries) (input : PassInput) {ctx : SrtpContext} (hs : s.SendsBy ctx)
    (hstate : s.state = .streaming) (i : Fin maxRtcSessions) (units : List AccessUnit) (k : ℕ) :
    Sends lib s ctx ((unitCalls s.rtp units).map SinkCall.packet)
        (((units.zipIdx k).map (input.sendEvent i)).foldl (rtcCall lib) s) ∧
      (((units.zipIdx k).map (input.sendEvent i)).foldl (rtcCall lib) s).rtp = afterUnits s.rtp units := by
  induction units generalizing s ctx k with
  | nil => exact ⟨Sends.refl hs.srtpOut, rfl⟩
  | cons unit units ih =>
    obtain ⟨hone, hrtp⟩ := sends_rtcSessionSendAccessUnit lib (input.send k i) hs hstate
      unit.bytes unit.info.ptsUs (decide (unit.info.isIdr ≠ 0))
    have hstate' := (congrArg Prod.fst hone.link).trans hstate
    obtain ⟨hrest, hrtp'⟩ := ih (hone.sendsBy hs) hstate' (k + 1)
    rw [hrtp] at hrest hrtp'
    rw [unitCalls, List.map_append]
    exact ⟨hone.trans hrest, hrtp'⟩

/-- A session that streams has a peer, a socket and a context to send by. -/
theorem RtcSession.Sound.sendsBy (h : s.Sound) (hstate : s.state = .streaming) : ∃ ctx, s.SendsBy ctx := by
  obtain ⟨hready, hremote⟩ : s.dtls.srtpReady = true ∧ s.haveRemote = true := by
    have hphase := h.lifecycle.inPhase
    simp only [SessionView.InPhase, RtcSession.view, hstate] at hphase
    exact ⟨hphase.2.2.1, hphase.2.2.2⟩
  obtain ⟨ctx, hctx⟩ := Option.isSome_iff_exists.1 (h.keyed hready)
  exact ⟨ctx, hremote, h.udpFd, hready, hctx⟩

/-- **What the viewers are sent.** In every pass of every run of the loop, with `ticked` the table when the
access units are popped: a session that streams there still streams after the pass; it has been sent the
packets of all popped access units, in the order of the ring, each protected once by its own context, and
nothing else; its packetizer has gone on without a gap in the numbers. The payloads are those of the access
units, whatever the state of the packetizer, and so the same for every viewer. A session that does not
stream is left as it is, and leaves if it is closed. -/
theorem fanOut_of_passes {inputs : List PassInput} {start : Server}
    (hempty : ∀ i, start.sessions.get i = none)
    (hrun : Run.exec (serverPass lib model) start inputs = some server)
    (hpass : serverPass lib model server input = some server') :
    ∃ requested ticked, httpPhase model input (receivePhase lib input server) = some requested ∧
      ticked = tickPhase lib input requested ∧
      (∀ i x, ticked.sessions.get i = some x → x.2.state = .streaming →
        ∃ ctx t, x.2.dtls.srtpOut = some ctx ∧ server'.sessions.get i = some (x.1, t) ∧
          t.state = .streaming ∧ t.rtp = afterUnits x.2.rtp input.units ∧
          Sends lib x.2 ctx ((unitCalls x.2.rtp input.units).map SinkCall.packet) t) ∧
      (∀ i x, ticked.sessions.get i = some x → x.2.state ≠ .streaming →
        server'.sessions.get i = leftOpen (some x)) ∧
      ∀ p : RtpH264, (unitCalls p input.units).map SinkCall.payload =
          input.units.flatMap AccessUnit.payloads ∧
        (unitCalls p input.units).map SinkCall.sequence =
          (List.range (unitCalls p input.units).length).map fun i ↦ p.sequence + UInt16.ofNat (i + 1) := by
  obtain ⟨requested, ticked, parts⟩ := exists_passParts (sound_of_passes hempty hrun) hpass
  have hget (i : Fin maxRtcSessions) : server'.sessions.get i =
      leftOpen ((fanOutPhase lib input ticked).sessions.get i) := by
    rw [parts.reap_eq, get_reapPhase]
  refine ⟨requested, ticked, parts.http, parts.tick_eq, fun i x hx hstate ↦ ?_, fun i x hx hstate ↦ ?_,
    fun p ↦ ⟨payloads_unitCalls p _, (numbered_unitCalls p _).1⟩⟩
  · obtain ⟨ctx, hctx⟩ := (parts.sound_ticked i x hx).sendsBy hstate
    obtain ⟨hsends, hrtp⟩ := sends_foldl_sendEvent lib input hctx hstate i input.units 0
    have hstreaming := (congrArg Prod.fst hsends.link).trans hstate
    refine ⟨ctx, _, hctx.srtpOut, ?_, hstreaming, hrtp, hsends⟩
    rw [hget, get_fanOutPhase, hx, Option.map_some, if_pos hstate]
    -- A viewer that streams is still streaming when the closed sessions leave.
    refine Option.filter_eq_some_iff.2 ⟨rfl, decide_eq_true fun hclosed ↦ ?_⟩
    exact RtcSessionState.noConfusion (hstreaming.symm.trans hclosed)
  · rw [hget, get_fanOutPhase, hx, Option.map_some, if_neg hstate]

/-! ### A viewer over many passes -/

/-- The session sends no media: its packetizer has not moved, and keys stay that it can send with. -/
structure RtcSession.Rests (s s' : RtcSession) : Prop where
  rtp : s'.rtp = s.rtp
  media : s'.media = s.media
  keys : s.dtls.srtpReady = true → s'.keys = s.keys

theorem RtcSession.Rests.refl (s : RtcSession) : s.Rests s :=
  ⟨rfl, rfl, fun _ ↦ rfl⟩

theorem RtcSession.Rests.trans {s' s'' : RtcSession} (h : s.Rests s') (h' : s'.Rests s'') : s.Rests s'' :=
  ⟨h'.rtp.trans h.rtp, h'.media.trans h.media, fun hready ↦
    (h'.keys ((congrArg Prod.fst (h.keys hready)).trans hready)).trans (h.keys hready)⟩

/-- A call that attends to the handshake and the reports leaves the media path as it was. -/
theorem Attends.rests {t : RtcSession} (h : Attends ans s t) (hrtp : t.rtp = s.rtp) : s.Rests t := by
  refine ⟨hrtp, h.media, fun hready ↦ ?_⟩
  rcases h.rekeys with hsame | ⟨hnone, -⟩
  · exact hsame
  · exact absurd (hnone.symm.trans hready) Bool.false_ne_true

theorem rests_rtcSessionClose (ans : Answers) (s : RtcSession) : s.Rests (rtcSessionClose ans s) :=
  (Listens.of_secured (secured_rtcSessionClose s) : Listens ans s _).toAttends.rests (rtp_rtcSessionClose ans s)

/-- Every session is still there, and has sent no media. -/
def Server.Keeps (server server' : Server) : Prop :=
  ∀ i x, server.sessions.get i = some x →
    ∃ x', server'.sessions.get i = some x' ∧ x'.1 = x.1 ∧ x.2.Rests x'.2

theorem Server.Keeps.refl (server : Server) : server.Keeps server :=
  fun _ x hx ↦ ⟨x, hx, rfl, .refl _⟩

theorem Server.Keeps.trans {server'' : Server} (h : server.Keeps server') (h' : server'.Keeps server'') :
    server.Keeps server'' := by
  intro i x hx
  obtain ⟨y, hy, hid, hrests⟩ := h i x hx
  obtain ⟨z, hz, hid', hrests'⟩ := h' i y hy
  exact ⟨z, hz, hid'.trans hid, hrests.trans hrests'⟩

/-- A loop whose turns leave the viewers alone leaves them alone. -/
theorem keeps_foldl {α : Type*} {f : Server → α → Server} {l : List α}
    (hf : ∀ a ∈ l, ∀ server : Server, server.Keeps (f server a)) : server.Keeps (l.foldl f server) := by
  induction l generalizing server with
  | nil => exact Server.Keeps.refl server
  | cons a l ih =>
    exact (hf a List.mem_cons_self server).trans (ih fun a ha ↦ hf a (List.mem_cons_of_mem _ ha))

/-- Only access units are sent as media. -/
theorem keeps_call (slot : Fin maxRtcSessions) {e : RtcEvent}
    (he : ∀ s : RtcSession, s.Rests (rtcCall lib s e)) : server.Keeps (server.call lib slot e) := by
  intro i x hx
  rw [get_call, hx]
  split_ifs
  · exact ⟨_, rfl, rfl, he x.2⟩
  · exact ⟨x, rfl, rfl, .refl _⟩

/-- A datagram does not touch the packetizer of the session that gets it. -/
theorem rests_of_mem_recvCalls {buffer : List UInt8} {ds : List Datagram} {e : RtcEvent}
    (he : e ∈ recvCalls buffer ds) (s : RtcSession) : s.Rests (rtcCall lib s e) := by
  induction ds generalizing buffer with
  | nil => exact absurd he List.not_mem_nil
  | cons d ds ih =>
    rw [recvCalls] at he
    split_ifs at he
    · exact absurd he List.not_mem_nil
    · rcases List.mem_cons.1 he with rfl | he
      · exact (attends_rtcCall lib s fun _ _ _ ↦ RtcCall.noConfusion).rests
          (rtp_rtcSessionOnUdp lib d.answers s _ _ _)
      · exact ih he

theorem keeps_receivePhase (lib : Libraries) (input : PassInput) (server : Server) :
    server.Keeps (receivePhase lib input server) := by
  refine keeps_foldl fun fd _ server ↦ ?_
  rw [receiveFd]
  split_ifs
  swap
  · exact Server.Keeps.refl server
  refine keeps_foldl fun slot _ server ↦ ?_
  rw [receiveSlot]
  split
  swap
  · exact Server.Keeps.refl server
  split_ifs
  · exact keeps_foldl fun e he server ↦ keeps_call slot (rests_of_mem_recvCalls he)
  · exact Server.Keeps.refl server

theorem keeps_tickPhase (lib : Libraries) (input : PassInput) (server : Server) :
    server.Keeps (tickPhase lib input server) :=
  keeps_foldl fun slot _ _ ↦ keeps_call slot fun s ↦
    (attends_rtcCall lib s fun _ _ _ ↦ RtcCall.noConfusion).rests (rtp_rtcSessionTick lib _ s _)

/-- An offer takes a slot that is empty. -/
theorem keeps_httpEventHandler {message : HttpMessage}
    (h : httpEventHandler model server message = some server') : server.Keeps server' := by
  rw [httpEventHandler] at h
  split_ifs at h
  · obtain ⟨⟨server'', reply⟩, hreply, rfl⟩ := Option.map_eq_some_iff.1 h
    rcases handleRtcOffer_cases hreply with ⟨rfl, -⟩ | ⟨_, offer, slot, session, answer, -, -, hfree, -,
      rfl, -⟩
    · exact Server.Keeps.refl _
    · have hnone : server.sessions.get slot = none :=
        Option.isNone_iff_eq_none.1 (List.find?_eq_some_iff_append.1 hfree).1
      intro i x hx
      refine ⟨x, ?_, rfl, .refl _⟩
      -- A new session goes into a free slot, so it is not the place of one that was there.
      have hne : i ≠ slot := by
        rintro rfl
        exact Option.some_ne_none x (hx.symm.trans hnone)
      exact (get_openSession slot i _ session).trans ((if_neg hne).trans hx)
  · obtain rfl := Option.some.inj h
    rw [handleRtcClose]
    split_ifs
    · exact Server.Keeps.refl server
    split
    · exact Server.Keeps.refl server
    dsimp only
    split
    swap
    · exact Server.Keeps.refl server
    intro i x hx
    rw [get_closeSlot, hx]
    split_ifs
    · exact ⟨_, rfl, rfl, rests_rtcSessionClose message.close x.2⟩
    · exact ⟨x, rfl, rfl, .refl _⟩
  · obtain rfl := Option.some.inj h
    exact Server.Keeps.refl _

theorem keeps_foldlM {http : List HttpMessage}
    (h : http.foldlM (httpEventHandler model) server = some server') : server.Keeps server' := by
  induction http generalizing server with
  | nil =>
    obtain rfl := Option.some.inj h
    exact Server.Keeps.refl _
  | cons message http ih =>
    rw [List.foldlM_cons] at h
    obtain ⟨t, ht, h⟩ := Option.bind_eq_some_iff.1 h
    exact (keeps_httpEventHandler ht).trans (ih h)

/-- The session of a slot when the access units of a pass are popped, with its id. -/
def PassInput.popping (input : PassInput) (lib : Libraries) (model : DataModel) (server : Server)
    (i : Fin maxRtcSessions) : Option (UInt32 × RtcSession) :=
  (httpPhase model input (receivePhase lib input server)).bind fun requested ↦
    (tickPhase lib input requested).sessions.get i

/-- **One pass of a viewer** that still streams after it: it sends no media until the access units are
popped, and their packets then. -/
theorem viewer_serverPass (hs : server.Sound) (hpass : serverPass lib model server input = some server')
    {i : Fin maxRtcSessions} {x y : UInt32 × RtcSession} (hx : server.sessions.get i = some x)
    (hy : server'.sessions.get i = some y) (hstate : y.2.state = .streaming) :
    y.1 = x.1 ∧ y.2.rtp = afterUnits x.2.rtp input.units ∧
      ∃ s ctx, input.popping lib model server i = some (x.1, s) ∧ x.2.Rests s ∧ s.SendsBy ctx ∧
        Sends lib s ctx ((unitCalls s.rtp input.units).map SinkCall.packet) y.2 := by
  obtain ⟨requested, ticked, parts⟩ := exists_passParts hs hpass
  have hkeeps : server.Keeps ticked :=
    ((keeps_receivePhase lib input server).trans (keeps_foldlM parts.http)).trans
      (parts.tick_eq ▸ keeps_tickPhase lib input requested)
  obtain ⟨z, hz, hid, hrests⟩ := hkeeps i x hx
  rw [parts.reap_eq, get_reapPhase, get_fanOutPhase, hz, Option.map_some] at hy
  split_ifs at hy with hstreaming
  · obtain ⟨ctx, hctx⟩ := (parts.sound_ticked i z hz).sendsBy hstreaming
    obtain ⟨hsends, hafter⟩ := sends_foldl_sendEvent lib input hctx hstreaming i input.units 0
    have hpopping : input.popping lib model server i = some (x.1, z.2) := by
      rw [PassInput.popping, parts.http, Option.bind_some, ← parts.tick_eq, hz, ← hid]
    obtain rfl := Option.some.inj (Option.filter_eq_some_iff.1 hy).1
    exact ⟨hid, hrests.rtp ▸ hafter, z.2, ctx, hpopping, hrests, hctx, hsends⟩
  · -- A session that does not stream before the access units does not stream after them.
    obtain rfl := Option.some.inj (Option.filter_eq_some_iff.1 hy).1
    exact absurd hstate hstreaming

/-- **A viewer over a run.** While a slot has a session that streams after every pass, it is one session;
what it is sent for the access units of all these passes is one sequence of packets, built by one
packetizer: its numbers have no gap, and its payloads are those of the access units, in their order. In
every pass the session in the slot sends no media until the access units are popped; it is sent their part
of the sequence then, and that is how it is found after the pass. -/
theorem stream_of_passes {start : Server} {before inputs : List PassInput}
    (hempty : ∀ i, start.sessions.get i = none)
    (hbefore : Run.exec (serverPass lib model) start before = some server) {i : Fin maxRtcSessions}
    {x : UInt32 × RtcSession} (hx : server.sessions.get i = some x)
    (hstreams : ∀ inputs' t, inputs' <+: inputs → Run.exec (serverPass lib model) server inputs' = some t →
      ∃ y, t.sessions.get i = some y ∧ y.2.state = .streaming)
    (hrun : Run.exec (serverPass lib model) server inputs = some server') :
    (∃ y, server'.sessions.get i = some y ∧ y.1 = x.1 ∧
      y.2.rtp = afterUnits x.2.rtp (inputs.flatMap PassInput.units)) ∧
    (∀ done input rest, inputs = done ++ input :: rest → ∃ before after y s z ctx,
      Run.exec (serverPass lib model) server done = some before ∧
      serverPass lib model before input = some after ∧ before.sessions.get i = some (x.1, y) ∧
      input.popping lib model before i = some (x.1, s) ∧ after.sessions.get i = some (x.1, z) ∧
      y.Rests s ∧ s.rtp = afterUnits x.2.rtp (done.flatMap PassInput.units) ∧
      s.dtls.srtpOut = some ctx ∧ Sends lib s ctx ((unitCalls s.rtp input.units).map SinkCall.packet) z) ∧
    (unitCalls x.2.rtp (inputs.flatMap PassInput.units)).map SinkCall.payload =
      (inputs.flatMap PassInput.units).flatMap AccessUnit.payloads ∧
    (unitCalls x.2.rtp (inputs.flatMap PassInput.units)).map SinkCall.sequence =
      (List.range (unitCalls x.2.rtp (inputs.flatMap PassInput.units)).length).map
        fun k ↦ x.2.rtp.sequence + UInt16.ofNat (k + 1) := by
  have hs := sound_of_passes hempty hbefore
  -- The packetizer after every initial run of the passes, by induction on them.
  have hone : ∀ done t, done <+: inputs → Run.exec (serverPass lib model) server done = some t →
      ∃ y, t.sessions.get i = some y ∧ y.1 = x.1 ∧
        y.2.rtp = afterUnits x.2.rtp (done.flatMap PassInput.units) := by
    intro done t hdone hexec
    induction done using List.reverseRecOn generalizing t with
    | nil =>
      obtain rfl := Option.some.inj hexec
      exact ⟨x, hx, rfl, rfl⟩
    | append_singleton done input ih =>
      obtain ⟨u, hu, hpass⟩ := Run.exists_of_exec_snoc hexec
      obtain ⟨y, hy, hid, hrtp⟩ := ih u ((List.prefix_append done [input]).trans hdone) hu
      obtain ⟨z, hz, hstate⟩ := hstreams _ t hdone hexec
      have hsu := sound_of_passes hempty (Run.exec_append hbefore hu)
      obtain ⟨hid', hrtp', -⟩ := viewer_serverPass hsu hpass hy hz hstate
      refine ⟨z, hz, hid'.trans hid, hrtp'.trans ?_⟩
      rw [hrtp, List.flatMap_append, List.flatMap_singleton, afterUnits, afterUnits, afterUnits,
        List.foldl_append]
  refine ⟨hone inputs server' (List.prefix_refl inputs) hrun, fun done input rest hinputs ↦ ?_,
    payloads_unitCalls _ _, (numbered_unitCalls _ _).1⟩
  -- One pass, between those in front of it and the rest.
  have hdone : done ++ [input] <+: inputs := ⟨rest, by rw [hinputs, List.append_assoc]; rfl⟩
  rw [hinputs] at hrun
  obtain ⟨u, hu, hrest⟩ := Run.exists_of_exec_append hrun
  rw [Run.exec_cons] at hrest
  obtain ⟨t, hpass, -⟩ := Option.bind_eq_some_iff.1 hrest
  obtain ⟨y, hy, hid, hrtp⟩ := hone done u ((List.prefix_append done [input]).trans hdone) hu
  obtain ⟨z, hz, hstate⟩ := hstreams _ t hdone (Run.exec_snoc hu hpass)
  have hsu := sound_of_passes hempty (Run.exec_append hbefore hu)
  obtain ⟨hid', -, s, ctx, hpopping, hrests, hctx, hsends⟩ := viewer_serverPass hsu hpass hy hz hstate
  exact ⟨u, t, y.2, s, z.2, ctx, hu, hpass, hid ▸ hy, hid ▸ hpopping, (hid'.trans hid) ▸ hz, hrests,
    hrests.rtp.trans hrtp, hctx.srtpOut, hsends⟩

/-! ### The pass of an access unit -/

/-- The connection. -/
theorem exists_connected : ∃ s offered connected,
    rtcSessionCreate sampleCreate ⟨viewerOffer, true, true⟩ = some s ∧
    Run.exec (serverPass sampleLibraries .lp64) idleServer [samplePass [sampleOfferMessage]] =
      some offered ∧
    serverPass sampleLibraries .lp64 offered connectPass = some connected ∧
    connected.sessions.get viewerSlot = some (sampleOfferEnv.id, viewerConnected s) := by
  obtain ⟨s, offered, hs, hrun, hget⟩ := exists_offered
  have hconnected := (states_viewer hs).2.1
  refine ⟨s, offered, _, hs, hrun, serverPass_of_quiet _ _ _ rfl, ?_⟩
  have hreceived :=
    get_receivePhase_of_passes get_idleServer freshSockets_sample hrun connectPass viewerSlot
  rw [hget, Option.map_some] at hreceived
  refine get_passTail _ _ _ viewerSlot hreceived rfl ?_ fun h ↦
    RtcSessionState.noConfusion (hconnected.symm.trans h)
  split_ifs <;> rfl

theorem freshSockets_connect : FreshSockets sampleLibraries .lp64 idleServer
    ([samplePass [sampleOfferMessage]] ++ [connectPass]) := by
  rw [List.singleton_append]
  exact ⟨freshSockets_sample.1, fun _ _ ↦ ⟨trivial, fun _ _ ↦ trivial⟩⟩

/-- Nothing is received before the access unit. -/
theorem get_receivePhase_streamPass {s : RtcSession} {connected : Server}
    (hrun : Run.exec (serverPass sampleLibraries .lp64) idleServer
      ([samplePass [sampleOfferMessage]] ++ [connectPass]) = some connected)
    (hget : connected.sessions.get viewerSlot = some (sampleOfferEnv.id, viewerConnected s)) :
    (receivePhase sampleLibraries streamPass connected).sessions.get viewerSlot =
      some (sampleOfferEnv.id, viewerConnected s) := by
  rw [get_receivePhase_of_passes get_idleServer freshSockets_connect hrun streamPass viewerSlot, hget,
    Option.map_some, received_of_inbox rfl]
  rfl

/-- The session in the slot of the viewer when the access units of the sample pass are sent. -/
theorem get_ticked_streamPass {s : RtcSession} {connected : Server}
    (hrun : Run.exec (serverPass sampleLibraries .lp64) idleServer
      ([samplePass [sampleOfferMessage]] ++ [connectPass]) = some connected)
    (hget : connected.sessions.get viewerSlot = some (sampleOfferEnv.id, viewerConnected s)) :
    (tickPhase sampleLibraries streamPass
      (receivePhase sampleLibraries streamPass connected)).sessions.get viewerSlot =
      some (sampleOfferEnv.id, viewerTicked s) := by
  rw [get_tickPhase, get_receivePhase_streamPass hrun hget]
  rfl

/-- An access unit. -/
theorem exists_streamed {s : RtcSession} {connected : Server}
    (hs : rtcSessionCreate sampleCreate ⟨viewerOffer, true, true⟩ = some s)
    (hrun : Run.exec (serverPass sampleLibraries .lp64) idleServer
      ([samplePass [sampleOfferMessage]] ++ [connectPass]) = some connected)
    (hget : connected.sessions.get viewerSlot = some (sampleOfferEnv.id, viewerConnected s)) :
    ∃ streamed, serverPass sampleLibraries .lp64 connected streamPass = some streamed ∧
      streamed.sessions.get viewerSlot = some (sampleOfferEnv.id, viewerStreamed s) := by
  obtain ⟨-, -, hticked, hstreamed⟩ := states_viewer hs
  refine ⟨_, serverPass_of_quiet _ _ _ rfl, ?_⟩
  refine get_passTail _ _ _ viewerSlot (get_receivePhase_streamPass hrun hget) rfl ?_ fun h ↦
    RtcSessionState.noConfusion (hstreamed.symm.trans h)
  exact if_pos hticked

/-- The viewer streams before the access unit and after it. -/
theorem streams_sample {s : RtcSession} {connected streamed : Server}
    (hs : rtcSessionCreate sampleCreate ⟨viewerOffer, true, true⟩ = some s)
    (hx : connected.sessions.get viewerSlot = some (sampleOfferEnv.id, viewerConnected s))
    (hy : streamed.sessions.get viewerSlot = some (sampleOfferEnv.id, viewerStreamed s))
    (hrun : Run.exec (serverPass sampleLibraries .lp64) connected [streamPass] = some streamed)
    (inputs : List PassInput) (t : Server) (hbegins : inputs <+: [streamPass])
    (hexec : Run.exec (serverPass sampleLibraries .lp64) connected inputs = some t) :
    ∃ y, t.sessions.get viewerSlot = some y ∧ y.2.state = .streaming := by
  obtain ⟨-, hconnected, -, hstreamed⟩ := states_viewer hs
  rcases List.prefix_cons_iff.1 hbegins with rfl | ⟨rest, rfl, hrest⟩
  · obtain rfl := Option.some.inj hexec
    exact ⟨_, hx, hconnected⟩
  · obtain rfl := List.prefix_nil.1 hrest
    obtain rfl := Option.some.inj (hexec.symm.trans hrun)
    exact ⟨_, hy, hstreamed⟩

/-- The viewer streams after the access unit as before, and its packetizer has gone on by one packet. -/
theorem stream_of_passes_sample : ∃ connected streamed y session z ctx,
    serverPass sampleLibraries .lp64 connected streamPass = some streamed ∧
    connected.sessions.get viewerSlot = some (sampleOfferEnv.id, y) ∧
    streamPass.popping sampleLibraries .lp64 connected viewerSlot = some (sampleOfferEnv.id, session) ∧
    streamed.sessions.get viewerSlot = some (sampleOfferEnv.id, z) ∧
    Sends sampleLibraries session ctx ((unitCalls session.rtp streamPass.units).map SinkCall.packet) z ∧
    (unitCalls y.rtp streamPass.units).map SinkCall.payload = [[0x65, 1]] := by
  obtain ⟨s, offered, connected, hs, hrun, hconnect, hx⟩ := exists_connected
  have hbefore := Run.exec_snoc hrun hconnect
  obtain ⟨streamed, hstream, hy⟩ := exists_streamed hs hbefore hx
  have hinputs := Run.exec_cons_of_step hstream (Run.exec_nil streamed)
  obtain ⟨-, hpasses, hpayloads, -⟩ :=
    stream_of_passes get_idleServer hbefore hx (streams_sample hs hx hy hinputs) hinputs
  obtain ⟨before, after, y, session, z, ctx, hdone, hpass, hget, hpopping, hafter, -, -, -, hsends⟩ :=
    hpasses [] streamPass [] rfl
  obtain rfl := Option.some.inj hdone
  obtain rfl : y = viewerConnected s := (Prod.mk.inj (Option.some.inj (hget.symm.trans hx))).2
  rw [List.flatMap_singleton] at hpayloads
  exact ⟨connected, after, _, session, z, ctx, hpass, hget, hpopping, hafter, hsends,
    hpayloads.trans (by decide +kernel)⟩

/-- What it is sent in this pass. -/
theorem fanOut_of_passes_sample : ∃ connected streamed requested session ctx t,
    serverPass sampleLibraries .lp64 connected streamPass = some streamed ∧
    httpPhase .lp64 streamPass (receivePhase sampleLibraries streamPass connected) = some requested ∧
    (tickPhase sampleLibraries streamPass requested).sessions.get viewerSlot =
      some (sampleOfferEnv.id, session) ∧ session.state = .streaming ∧
    streamed.sessions.get viewerSlot = some (sampleOfferEnv.id, t) ∧
    Sends sampleLibraries session ctx ((unitCalls session.rtp streamPass.units).map SinkCall.packet) t := by
  obtain ⟨s, offered, connected, hs, hrun, hconnect, hx⟩ := exists_connected
  have hbefore := Run.exec_snoc hrun hconnect
  obtain ⟨streamed, hstream, hy⟩ := exists_streamed hs hbefore hx
  obtain ⟨requested, ticked, hhttp, rfl, hsends, -⟩ := fanOut_of_passes get_idleServer hbefore hstream
  have hquiet := httpPhase_of_quiet .lp64 streamPass
    (receivePhase sampleLibraries streamPass connected) rfl
  obtain rfl := Option.some.inj (hquiet.symm.trans hhttp)
  have hticked := get_ticked_streamPass hbefore hx
  obtain ⟨ctx, t, -, hget, -, -, h⟩ := hsends viewerSlot _ hticked (states_viewer hs).2.2.1
  dsimp only at hget h
  exact ⟨connected, streamed, _, _, ctx, t, hstream, hquiet, hticked, (states_viewer hs).2.2.1, hget, h⟩

end Camstream
