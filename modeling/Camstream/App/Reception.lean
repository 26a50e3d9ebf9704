import Camstream.App.FanOut

/-!
# What a viewer receives

The far end of a viewer that streams: it takes the protection off what it is sent and puts the access units
together again. `reception_of_passes` is the way of the media as a whole, from the ring through the event
loop, the packetizer and libsrtp: while a viewer streams, it gets all access units that are popped, in their
order, with their times and with the NAL units that the encoder has put into them, and nothing else.

The key of the viewer stays (`keys_of_run`), the packetizer goes on from pass to pass, and no other call sends
media: these are the invariants of `viewed_of_passes`, by induction on the passes.

Of libsrtp it is assumed that a packet is protected, and that the other end has it back with the same key.
-/

namespace Camstream

variable {lib : Libraries} {model : DataModel} {server server' : Server} {s : RtcSession}

/-- What one end protects, the other end has back. -/
def Libraries.Restores (lib : Libraries) (unprotect : List UInt8 → List UInt8 → Option (List UInt8)) : Prop :=
  ∀ key calls pkt, pkt.length ≤ 1200 →
    ∃ data, lib.srtpProtect key calls pkt = some data ∧ unprotect key data = some pkt

variable {unprotect : List UInt8 → List UInt8 → Option (List UInt8)}

/-! ### Media packets -/

/-- The packetizer works through two lists of access units as through one. -/
theorem unitCalls_append (p : RtpH264) (units units' : List AccessUnit) :
    unitCalls p (units ++ units') = unitCalls p units ++ unitCalls (afterUnits p units) units' := by
  induction units generalizing p with
  | nil => rfl
  | cons unit units ih =>
    rw [List.cons_append, unitCalls, unitCalls, ih, List.append_assoc]
    rfl

/-- **What is sent, can be read.** -/
theorem mapM_mediaEffects (hlib : lib.Restores unprotect) (remote : SockAddr) (ctx : SrtpContext)
    {pkts : List (List UInt8)} (hpkts : ∀ pkt ∈ pkts, pkt.length ≤ 1200) :
    ((mediaEffects lib remote ctx pkts).filterMap Effect.media?).mapM (unprotect ctx.key) = some pkts := by
  induction pkts generalizing ctx with
  | nil => rfl
  | cons pkt pkts ih =>
    obtain ⟨data, hdata, hback⟩ := hlib ctx.key ctx.calls pkt (hpkts pkt List.mem_cons_self)
    have hrest := ih ⟨ctx.key, ctx.calls + 1⟩ fun pkt h ↦ hpkts pkt (List.mem_cons_of_mem _ h)
    rw [mediaEffects, hdata]
    show (data :: (mediaEffects lib remote ⟨ctx.key, ctx.calls + 1⟩ pkts).filterMap Effect.media?).mapM
      (unprotect ctx.key) = some (pkt :: pkts)
    rw [List.mapM_cons, hback, hrest]
    rfl

/-- The media that sending adds. -/
theorem Sends.media {s' : RtcSession} {ctx : SrtpContext} {pkts : List (List UInt8)}
    (h : Sends lib s ctx pkts s') :
    s'.media = ((mediaEffects lib s.remote ctx pkts).filterMap Effect.media?).reverse ++ s.media := by
  rw [RtcSession.media, h.log, List.filterMap_append, List.filterMap_reverse, RtcSession.media]

/-! ### Passes -/

/-- A session can send, and does so with this key. -/
def RtcSession.SendsWith (s : RtcSession) (key : List UInt8) : Prop :=
  s.dtls.srtpReady = true ∧ s.dtls.srtpOut.map SrtpContext.key = some key

theorem RtcSession.SendsWith.rests {s' : RtcSession} {key : List UInt8} (h : s.SendsWith key)
    (hs : s.Rests s') : s'.SendsWith key :=
  ⟨(congrArg Prod.fst (hs.keys h.1)).trans h.1, (congrArg (fun k ↦ k.2.1) (hs.keys h.1)).trans h.2⟩

/-- The context that sends is keyed with the key of the session, and remains so. -/
theorem RtcSession.SendsWith.sends {s' : RtcSession} {key : List UInt8} {ctx : SrtpContext}
    {pkts : List (List UInt8)} (h : s.SendsWith key) (hctx : s.SendsBy ctx) (hs : Sends lib s ctx pkts s') :
    ctx.key = key ∧ s'.SendsWith key := by
  have hkey : ctx.key = key := by
    have hmap := h.2
    rw [hctx.srtpOut] at hmap
    exact Option.some.inj hmap
  have hctx' := hs.sendsBy hctx
  refine ⟨hkey, hctx'.srtpReady, ?_⟩
  rw [hctx'.srtpOut, ← hkey]
  rfl

/-- What a viewer has to show for some access units: they are what its media since the session `x` comes to,
and it goes on from there. -/
structure Viewed (unprotect : List UInt8 → List UInt8 → Option (List UInt8)) (key : List UInt8)
    (x y : UInt32 × RtcSession) (units : List AccessUnit) : Prop where
  id : y.1 = x.1
  rtp : y.2.rtp = afterUnits x.2.rtp units
  sendsWith : y.2.SendsWith key
  media : ∃ datagrams : List (List UInt8), y.2.media = datagrams.reverse ++ x.2.media ∧
    datagrams.mapM (unprotect key) = some ((unitCalls x.2.rtp units).map SinkCall.packet)

/-- **One more pass.** -/
theorem Viewed.pass {key : List UInt8} {x y z : UInt32 × RtcSession} {units : List AccessUnit}
    {input : PassInput} {i : Fin maxRtcSessions} (h : Viewed unprotect key x y units)
    (hlib : lib.Restores unprotect) (hs : server.Sound)
    (hpass : serverPass lib model server input = some server') (hy : server.sessions.get i = some y)
    (hz : server'.sessions.get i = some z) (hstate : z.2.state = .streaming) :
    Viewed unprotect key x z (units ++ input.units) := by
  obtain ⟨hid, hrtp, s, ctx, -, hrests, hctx, hsends⟩ := viewer_serverPass hs hpass hy hz hstate
  obtain ⟨hkey, hwith⟩ := (h.sendsWith.rests hrests).sends hctx hsends
  obtain ⟨datagrams, hmedia, hread⟩ := h.media
  refine ⟨hid.trans h.id, ?_, hwith, datagrams ++ (mediaEffects lib s.remote ctx
    ((unitCalls s.rtp input.units).map SinkCall.packet)).filterMap Effect.media?, ?_, ?_⟩
  · rw [hrtp, h.rtp, afterUnits, afterUnits, afterUnits, List.foldl_append]
  · rw [hsends.media, hrests.media, hmedia, List.reverse_append, List.append_assoc]
  · have hshort : ∀ pkt ∈ (unitCalls s.rtp input.units).map SinkCall.packet, pkt.length ≤ 1200 := by
      intro pkt hpkt
      obtain ⟨c, hc, rfl⟩ := List.mem_map.1 hpkt
      exact length_of_mem_unitCalls hc
    have hnew := mapM_mediaEffects hlib s.remote ctx hshort
    rw [hkey] at hnew
    rw [List.mapM_append, hread, hnew, unitCalls_append, List.map_append, ← h.rtp, ← hrests.rtp]
    rfl

/-- **A run of a viewer.** -/
theorem viewed_of_passes {start : Server} {before inputs : List PassInput} (hlib : lib.Restores unprotect)
    (hempty : ∀ i, start.sessions.get i = none)
    (hbefore : Run.exec (serverPass lib model) start before = some server) {i : Fin maxRtcSessions}
    {x : UInt32 × RtcSession} (hx : server.sessions.get i = some x)
    (hstreams : ∀ inputs' t, inputs' <+: inputs → Run.exec (serverPass lib model) server inputs' = some t →
      ∃ y, t.sessions.get i = some y ∧ y.2.state = .streaming)
    (hrun : Run.exec (serverPass lib model) server inputs = some server') :
    ∃ key y, x.2.SendsWith key ∧ server'.sessions.get i = some y ∧
      Viewed unprotect key x y (inputs.flatMap PassInput.units) := by
  have hs := sound_of_passes hempty hbefore
  obtain ⟨x', hx', hstreaming⟩ := hstreams [] server (List.nil_prefix) rfl
  obtain rfl := Option.some.inj (hx.symm.trans hx')
  obtain ⟨ctx, hctx⟩ := (hs i x hx).sendsBy hstreaming
  have hwith : x.2.SendsWith ctx.key := ⟨hctx.srtpReady, congrArg _ hctx.srtpOut⟩
  refine ⟨ctx.key, ?_⟩
  -- What is claimed of the run holds of every initial run of it.
  suffices hall : ∀ done t, done <+: inputs → Run.exec (serverPass lib model) server done = some t →
      ∃ y, t.sessions.get i = some y ∧ Viewed unprotect ctx.key x y (done.flatMap PassInput.units) by
    obtain ⟨y, hy, hviewed⟩ := hall inputs server' (List.prefix_refl inputs) hrun
    exact ⟨y, hwith, hy, hviewed⟩
  intro done t hdone hexec
  induction done using List.reverseRecOn generalizing t with
  | nil =>
    obtain rfl := Option.some.inj hexec
    exact ⟨x, hx, rfl, rfl, hwith, [], rfl, rfl⟩
  | append_singleton done input ih =>
    obtain ⟨u, hu, hpass⟩ := Run.exists_of_exec_snoc hexec
    obtain ⟨y, hy, hviewed⟩ := ih u ((List.prefix_append done [input]).trans hdone) hu
    obtain ⟨z, hz, hstate⟩ := hstreams _ t hdone hexec
    have hsu := sound_of_passes hempty (Run.exec_append hbefore hu)
    rw [List.flatMap_append, List.flatMap_singleton]
    exact ⟨z, hz, hviewed.pass hlib hsu hpass hy hz hstate⟩

/-- **From the ring to the viewer.** While a slot has a session that streams after every pass, whatever
datagrams, requests and ticks come in between: the media that it is sent, unprotected with its key and put
together by a receiver that refuses any gap in the numbers, any change of time inside an access unit and any
malformed payload, is all access units that were popped, in their order, each with its time and the NAL units
that the encoder had put into it. -/
theorem reception_of_passes {start : Server} {before inputs : List PassInput} (hlib : lib.Restores unprotect)
    (hempty : ∀ i, start.sessions.get i = none)
    (hbefore : Run.exec (serverPass lib model) start before = some server) {i : Fin maxRtcSessions}
    {x : UInt32 × RtcSession} (hx : server.sessions.get i = some x)
    (hstreams : ∀ inputs' t, inputs' <+: inputs → Run.exec (serverPass lib model) server inputs' = some t →
      ∃ y, t.sessions.get i = some y ∧ y.2.state = .streaming)
    (hrun : Run.exec (serverPass lib model) server inputs = some server') {units : List EncodedUnit}
    (hunits : inputs.flatMap PassInput.units = units.map EncodedUnit.accessUnit) :
    ∃ key y, ∃ datagrams : List (List UInt8), ∃ packets, x.2.SendsWith key ∧
      server'.sessions.get i = some y ∧ y.1 = x.1 ∧
      y.2.media = datagrams.reverse ++ x.2.media ∧ datagrams.mapM (unprotect key) = some packets ∧
      (RtpReceiver.between (x.2.rtp.sequence + 1) []).receiveAll packets =
        some (.between (y.2.rtp.sequence + 1)
          (units.map (EncodedUnit.received (clockBase x.2.rtp units)))) := by
  obtain ⟨key, y, hwith, hy, hviewed⟩ := viewed_of_passes hlib hempty hbefore hx hstreams hrun
  obtain ⟨datagrams, hmedia, hread⟩ := hviewed.media
  have hrtp := hviewed.rtp
  rw [hunits] at hread hrtp
  refine ⟨key, y, datagrams, _, hwith, hy, hviewed.id, hmedia, hread, ?_⟩
  rw [RtpReceiver.receiveAll_unitCalls, hrtp, (numbered_unitCalls _ _).2, UInt16.add_assoc,
    UInt16.add_comm 1, ← UInt16.add_assoc, List.nil_append]

/-- What the sample libraries add is cut off. -/
def sampleUnprotect (_ data : List UInt8) : Option (List UInt8) :=
  some (data.take (data.length - 10))

theorem restores_sampleLibraries : sampleLibraries.Restores sampleUnprotect := by
  refine fun _ _ pkt _ ↦ ⟨_, rfl, congrArg some ?_⟩
  rw [List.length_append, List.length_replicate, Nat.add_sub_cancel, List.take_left]

/-- The access unit of the sample pass. -/
def sampleSlice : EncodedUnit where
  codes := [(false, ⟨[0x65, 1], ⟨by decide, by decide, by decide⟩, by decide, by decide, by decide⟩)]
  codes_ne_nil := by decide
  info := ⟨0, 0, 1, 5⟩

/-- A viewer gets the access unit of a pass. -/
theorem reception_of_passes_sample : ∃ (s : RtcSession) (connected streamed : Server)
    (packets : List (List UInt8)) (next : UInt16),
    serverPass sampleLibraries .lp64 connected streamPass = some streamed ∧
    (RtpReceiver.between ((viewerConnected s).rtp.sequence + 1) []).receiveAll packets =
      some (.between next [sampleSlice.received (clockBase (viewerConnected s).rtp [sampleSlice])]) := by
  obtain ⟨s, offered, connected, hs, hrun, hconnect, hx⟩ := exists_connected
  have hbefore := Run.exec_snoc hrun hconnect
  obtain ⟨streamed, hstream, hy⟩ := exists_streamed hs hbefore hx
  have hinputs := Run.exec_cons_of_step hstream (Run.exec_nil streamed)
  have hunits : [streamPass].flatMap PassInput.units = [sampleSlice].map EncodedUnit.accessUnit := rfl
  obtain ⟨_, _, _, packets, _, _, _, _, _, hreceived⟩ := reception_of_passes restores_sampleLibraries
    get_idleServer hbefore hx (streams_sample hs hx hy hinputs) hinputs hunits
  exact ⟨s, connected, streamed, packets, _, hstream, hreceived⟩

end Camstream
