import Camstream.Media.AuRing
import Camstream.Rtp.Bookkeeping
import Camstream.Rtp.Depacketizer
import Camstream.Rtp.Marker

/-!
# An RTP receiver

`RtpReceiver` is the other end of a stream: it puts access units together from packets and gives up at a
packet that does not continue what it has, be it by its number, by its time or by its payload. An access unit
ends at the marker.

`receiveAll_unitCalls` is that it gets back what one packetizer has sent, access units with their times and
their NAL units, whatever the packetizer did before. Inside one access unit the induction is on the packets
that are left (`receiveAll_calls`), and the NAL units come from `receiveAll_auPlan`.
-/

namespace Camstream

open AnnexB Bytes

/-! ### What is sent -/

/-- The packets of some access units, as one packetizer builds them one after the other. -/
def unitCalls (p : RtpH264) : List AccessUnit → List SinkCall
  | [] => []
  | unit :: units =>
    sinkCalls p unit.bytes unit.info.ptsUs ++
      unitCalls (rtpH264Packetize p unit.bytes unit.info.ptsUs).1 units

/-- The packetizer afterwards. -/
def afterUnits (p : RtpH264) (units : List AccessUnit) : RtpH264 :=
  units.foldl (fun p unit ↦ (rtpH264Packetize p unit.bytes unit.info.ptsUs).1) p

/-- The payloads of an access unit. -/
def AccessUnit.payloads (unit : AccessUnit) : List (List UInt8) :=
  (auPlan (AnnexB.units unit.bytes)).map Prod.fst

/-- **The payloads are the same for every packetizer.** -/
theorem payloads_unitCalls (p : RtpH264) (units : List AccessUnit) :
    (unitCalls p units).map SinkCall.payload = units.flatMap AccessUnit.payloads := by
  induction units generalizing p with
  | nil => rfl
  | cons unit units ih =>
    rw [unitCalls, List.map_append, ih, sinkCalls_payloads, List.flatMap_cons]
    rfl

/-- **The numbers go on without a gap** from one access unit to the next. -/
theorem numbered_unitCalls (p : RtpH264) (units : List AccessUnit) :
    (unitCalls p units).map SinkCall.sequence =
        (List.range (unitCalls p units).length).map (fun i ↦ p.sequence + UInt16.ofNat (i + 1)) ∧
      (afterUnits p units).sequence = p.sequence + UInt16.ofNat (unitCalls p units).length := by
  induction units generalizing p with
  | nil => exact ⟨rfl, (UInt16.add_zero _).symm⟩
  | cons unit units ih =>
    obtain ⟨hfirst, hnext⟩ := sinkCalls_numbered p unit.bytes unit.info.ptsUs
    obtain ⟨hrest, hlast⟩ := ih (rtpH264Packetize p unit.bytes unit.info.ptsUs).1
    rw [unitCalls, List.length_append]
    constructor
    · have hhead : (sinkCalls p unit.bytes unit.info.ptsUs).map SinkCall.sequence =
          (List.range (sinkCalls p unit.bytes unit.info.ptsUs).length).map
            fun i ↦ p.sequence + UInt16.ofNat (i + 1) := by
        refine List.ext_getElem (by simp) fun i hi hi' ↦ ?_
        rw [List.getElem_map, List.getElem_map, List.getElem_range]
        exact hfirst i (by simpa using hi)
      rw [List.map_append, hhead, hrest, List.range_add, List.map_append, List.map_map, hnext]
      refine congrArg _ (List.map_congr_left fun i _ ↦ ?_)
      rw [Function.comp_apply, UInt16.add_assoc, ← UInt16.ofNat_add, Nat.add_assoc]
    · rw [afterUnits, List.foldl_cons, ← afterUnits, hlast, hnext, UInt16.add_assoc, ← UInt16.ofNat_add]

theorem length_of_mem_unitCalls {p : RtpH264} {units : List AccessUnit} {c : SinkCall}
    (hc : c ∈ unitCalls p units) : c.packet.length ≤ 1200 := by
  induction units generalizing p with
  | nil => exact absurd hc List.not_mem_nil
  | cons unit units ih =>
    rcases List.mem_append.1 hc with hc | hc
    · exact (length_of_mem_sinkCalls hc).2
    · exact ih hc

/-- An access unit of an encoder: NAL units behind start codes, one at least. -/
structure EncodedUnit where
  codes : List (Bool × NalUnit)
  codes_ne_nil : codes ≠ []
  info : AuMeta

namespace EncodedUnit

/-- The NAL units. -/
def nals (u : EncodedUnit) : List (List UInt8) :=
  u.codes.map fun c ↦ c.2.bytes

/-- The bytes in the ring. -/
def accessUnit (u : EncodedUnit) : AccessUnit :=
  ⟨join (u.codes.map fun c ↦ (c.1, c.2.bytes)), u.info⟩

theorem units_accessUnit (u : EncodedUnit) :
    AnnexB.units u.accessUnit.bytes = (u.codes.map Prod.snd).map NalUnit.bytes := by
  rw [accessUnit, units_join]
  · rw [List.map_map, List.map_map]
    rfl
  · intro v hv
    obtain ⟨c, -, rfl⟩ := List.mem_map.1 hv
    exact c.2.clean

theorem bytes_accessUnit_ne_nil (u : EncodedUnit) : u.accessUnit.bytes ≠ [] := by
  intro he
  have hunits := u.units_accessUnit
  rw [he, units_of_seek_eq_nil seek_nil] at hunits
  exact u.codes_ne_nil (List.map_eq_nil_iff.1 (List.map_eq_nil_iff.1 hunits.symm))

end EncodedUnit

/-! ### The receiver -/

/-- The number that comes next, the time and the NAL units of the access unit under way, and the access units
that are complete. -/
structure RtpReceiver where
  next : UInt16
  timestamp : Option ℕ
  unit : Depacketizer
  units : List (ℕ × List (List UInt8))
  deriving DecidableEq, Repr

/-- One packet. -/
def RtpReceiver.receive (r : RtpReceiver) (packet : List UInt8) : Option RtpReceiver :=
  let timestamp := readBe32 packet 4
  if readBe16 packet 2 ≠ r.next.toNat then none
  else if r.timestamp ≠ none ∧ r.timestamp ≠ some timestamp then none
  else
    (r.unit.receive (packet.drop rtpHeaderSize)).bind fun unit ↦
      if packet.getD 1 0 &&& 0x80 = 0 then some ⟨r.next + 1, some timestamp, unit, r.units⟩
      else if unit.pending ≠ none then none
      else some ⟨r.next + 1, none, ⟨[], none⟩, r.units ++ [(timestamp, unit.nals)]⟩

/-- A sequence of packets. -/
def RtpReceiver.receiveAll (r : RtpReceiver) (packets : List (List UInt8)) : Option RtpReceiver :=
  packets.foldlM RtpReceiver.receive r

/-- Between two access units. -/
def RtpReceiver.between (next : UInt16) (units : List (ℕ × List (List UInt8))) : RtpReceiver :=
  ⟨next, none, ⟨[], none⟩, units⟩

theorem RtpReceiver.receiveAll_append (r : RtpReceiver) (xs ys : List (List UInt8)) :
    r.receiveAll (xs ++ ys) = (r.receiveAll xs).bind fun r ↦ r.receiveAll ys :=
  List.foldlM_append

/-! ### One access unit -/

variable {next : UInt16} {ts : ℕ} {done : List (ℕ × List (List UInt8))} {nals : List (List UInt8)}

/-- A packet that continues what the receiver has. -/
theorem RtpReceiver.receive_call {c : SinkCall} {timestamp : Option ℕ} {d d' : Depacketizer}
    (hwell : c.WellFormed) (hnext : c.sequence = next) (hstamp : readBe32 c.packet 4 = ts)
    (htime : timestamp = none ∨ timestamp = some ts) (hd : d.receive c.payload = some d') :
    RtpReceiver.receive ⟨next, timestamp, d, done⟩ c.packet =
      if c.marker = false then some ⟨next + 1, some ts, d', done⟩
      else if d'.pending ≠ none then none
      else some (.between (next + 1) (done ++ [(ts, d'.nals)])) := by
  have hbit : (c.packet.getD 1 0 &&& 0x80 = 0) ↔ c.marker = false := by
    rw [← hwell.marker_eq, decide_eq_false_iff_not, not_not]
  have hpayload : d.receive (c.packet.drop rtpHeaderSize) = some d' := hd
  rw [RtpReceiver.receive, hwell.sequence_eq, hstamp, hnext]
  dsimp only
  rw [if_neg (not_not.2 rfl), if_neg (fun h ↦ htime.elim h.1 h.2), hpayload, Option.bind_some]
  exact if_congr hbit rfl rfl

/-- **The packets of one access unit**, from any one on: they are numbered and have one time, the last has the
marker, and the receiver of the payloads gets some NAL units out of them. -/
theorem RtpReceiver.receiveAll_calls {calls : List SinkCall} {timestamp : Option ℕ} {d : Depacketizer}
    (hne : calls ≠ []) (hwell : ∀ c ∈ calls, c.WellFormed)
    (hnumbered : ∀ i (h : i < calls.length), calls[i].sequence = next + UInt16.ofNat i)
    (hstamped : ∀ c ∈ calls, readBe32 c.packet 4 = ts) (hlast : OnlyLast (calls.map SinkCall.marker))
    (htime : timestamp = none ∨ timestamp = some ts)
    (hd : d.receiveAll (calls.map SinkCall.payload) = some ⟨nals, none⟩) :
    RtpReceiver.receiveAll ⟨next, timestamp, d, done⟩ (calls.map SinkCall.packet) =
      some (.between (next + UInt16.ofNat calls.length) (done ++ [(ts, nals)])) := by
  induction calls generalizing next timestamp d with
  | nil => exact absurd rfl hne
  | cons c calls ih =>
    rw [List.map_cons, onlyLast_cons, List.map_eq_nil_iff] at hlast
    obtain ⟨hmarker, hlast⟩ := hlast
    rw [List.map_cons, receiveAll_cons, Option.bind_eq_some_iff] at hd
    obtain ⟨d', hd', hd⟩ := hd
    have hfirst : c.sequence = next := (hnumbered 0 (Nat.zero_lt_succ _)).trans (UInt16.add_zero next)
    have hone : RtpReceiver.receive ⟨next, timestamp, d, done⟩ c.packet = _ :=
      receive_call (hwell c List.mem_cons_self) hfirst (hstamped c List.mem_cons_self) htime hd'
    rw [List.map_cons, RtpReceiver.receiveAll, List.foldlM_cons, hone]
    have hnext : next + 1 + UInt16.ofNat calls.length = next + UInt16.ofNat (calls.length + 1) := by
      rw [UInt16.add_assoc, Nat.add_comm, UInt16.ofNat_add]
      rfl
    by_cases hempty : calls = []
    · -- the last packet
      subst hempty
      obtain rfl : d' = ⟨nals, none⟩ := Option.some.inj hd
      have hmarked : ¬ c.marker = false := by
        rw [hmarker.2 rfl]
        exact Bool.noConfusion
      rw [if_neg hmarked, if_neg (not_not.2 rfl)]
      rfl
    · have hunmarked : c.marker = false := Bool.eq_false_iff.2 fun h ↦ hempty (hmarker.1 h)
      rw [if_pos hunmarked]
      refine (ih hempty (fun c hc ↦ hwell c (List.mem_cons_of_mem _ hc)) (fun i hi ↦ ?_)
        (fun c hc ↦ hstamped c (List.mem_cons_of_mem _ hc)) hlast (.inr rfl) hd).trans ?_
      · have hi' := hnumbered (i + 1) (Nat.succ_lt_succ hi)
        rw [List.getElem_cons_succ] at hi'
        rw [hi', UInt16.add_assoc, Nat.add_comm, UInt16.ofNat_add]
        rfl
      · rw [hnext]
        rfl

/-- **One access unit.** -/
theorem RtpReceiver.receiveAll_sinkCalls (p : RtpH264) (u : EncodedUnit) :
    (RtpReceiver.between (p.sequence + 1) done).receiveAll
        ((sinkCalls p u.accessUnit.bytes u.info.ptsUs).map SinkCall.packet) =
      some (.between ((rtpH264Packetize p u.accessUnit.bytes u.info.ptsUs).1.sequence + 1)
        (done ++ [((beginAccessUnit p u.info.ptsUs).lastTimestamp.toNat, u.nals)])) := by
  obtain ⟨hnumbered, hsequence⟩ := sinkCalls_numbered p u.accessUnit.bytes u.info.ptsUs
  have hpayloads := sinkCalls_payloads p u.accessUnit.bytes u.info.ptsUs
  have hmarkers := sinkCalls_markers p u.accessUnit.bytes u.info.ptsUs
  have hwell := sinkCalls_wellFormed p u.accessUnit.bytes u.info.ptsUs
  have hstamped := (rtpH264Packetize_delivers p u.bytes_accessUnit_ne_nil u.info.ptsUs).stamped
  have hnonempty : ∀ v ∈ AnnexB.units u.accessUnit.bytes, v ≠ [] := by
    rw [u.units_accessUnit]
    intro v hv
    obtain ⟨nal, -, rfl⟩ := List.mem_map.1 hv
    exact nal.clean.ne_nil
  -- The marker is on the last packet and on no other, since no NAL unit is empty.
  have hlast : OnlyLast ((auPlan (AnnexB.units u.accessUnit.bytes)).map Prod.snd) := by
    refine (onlyLast_auPlan_iff _).2 fun pre v post h _ ↦ ?_
    exact absurd rfl (hnonempty [] (h ▸ List.mem_append_right _ (List.mem_cons_of_mem _ List.mem_cons_self)))
  have hplan : auPlan (AnnexB.units u.accessUnit.bytes) ≠ [] := by
    intro h
    rw [u.units_accessUnit] at hnonempty h
    obtain ⟨c, codes, hcodes⟩ := List.exists_cons_of_ne_nil u.codes_ne_nil
    rw [hcodes] at hnonempty h
    exact hnonempty c.2.bytes List.mem_cons_self (auPlan_eq_nil.1 h c.2.bytes List.mem_cons_self)
  -- The depacketizer alone has the NAL units back; what is left is that the receiver lets everything
  -- pass.
  have hd : Depacketizer.receiveAll ⟨[], none⟩
      ((sinkCalls p u.accessUnit.bytes u.info.ptsUs).map SinkCall.payload) = some ⟨u.nals, none⟩ := by
    rw [hpayloads, u.units_accessUnit, receiveAll_auPlan, List.nil_append, List.map_map]
    rfl
  set calls := sinkCalls p u.accessUnit.bytes u.info.ptsUs
  have hne : calls ≠ [] := by
    intro h
    rw [h] at hpayloads
    exact hplan (List.map_eq_nil_iff.1 hpayloads.symm)
  refine (receiveAll_calls hne hwell (fun i hi ↦ ?_) hstamped (hmarkers ▸ hlast) (.inl rfl) hd).trans ?_
  · rw [hnumbered i hi, Nat.add_comm i 1, UInt16.ofNat_add, ← UInt16.add_assoc]
    rfl
  · rw [hsequence, UInt16.add_assoc, UInt16.add_comm 1, ← UInt16.add_assoc]

/-! ### Many access units -/

/-- The time that the clock of a packetizer starts at. -/
def clockBase (p : RtpH264) : List EncodedUnit → UInt64
  | [] => p.basePtsUs
  | u :: _ => (beginAccessUnit p u.info.ptsUs).basePtsUs

/-- What the receiver is to make of an access unit. -/
def EncodedUnit.received (base : UInt64) (u : EncodedUnit) : ℕ × List (List UInt8) :=
  ((mediaTimestamp base u.info.ptsUs).toNat, u.nals)

/-- A clock that has a base keeps it. -/
theorem basePtsUs_beginAccessUnit {p : RtpH264} (h : p.haveBase = true) (ptsUs : UInt64) :
    (beginAccessUnit p ptsUs).basePtsUs = p.basePtsUs := by
  rw [beginAccessUnit, if_pos h]

/-- **What was sent is what is received**: all access units with their times, in their order, and the number
that the next packet will have. -/
theorem RtpReceiver.receiveAll_unitCalls (p : RtpH264) (us : List EncodedUnit) :
    (RtpReceiver.between (p.sequence + 1) done).receiveAll
        ((unitCalls p (us.map EncodedUnit.accessUnit)).map SinkCall.packet) =
      some (.between (p.sequence + 1 + UInt16.ofNat (unitCalls p (us.map EncodedUnit.accessUnit)).length)
        (done ++ us.map (EncodedUnit.received (clockBase p us)))) := by
  induction us generalizing p done with
  | nil =>
    rw [List.map_nil, List.map_nil, List.append_nil]
    exact congrArg (fun next ↦ some (RtpReceiver.between next done)) (UInt16.add_zero _).symm
  | cons u us ih =>
    obtain ⟨hhave, hbase⟩ := rtpH264Packetize_base p u.bytes_accessUnit_ne_nil u.info.ptsUs
    obtain ⟨-, hsequence⟩ := sinkCalls_numbered p u.accessUnit.bytes u.info.ptsUs
    have hclock : clockBase (rtpH264Packetize p u.accessUnit.bytes u.info.ptsUs).1 us =
        clockBase p (u :: us) := by
      cases us with
      | nil => exact hbase
      | cons v us => exact (basePtsUs_beginAccessUnit hhave v.info.ptsUs).trans hbase
    have hstamp : ((beginAccessUnit p u.info.ptsUs).lastTimestamp.toNat, u.nals) =
        u.received (clockBase p (u :: us)) := by
      rw [beginAccessUnit_lastTimestamp]
      rfl
    rw [List.map_cons, unitCalls, List.map_append, receiveAll_append, List.length_append, List.map_cons]
    refine (congrArg (Option.bind · _) (receiveAll_sinkCalls p u)).trans ?_
    rw [Option.bind_some]
    refine (ih (rtpH264Packetize p u.accessUnit.bytes u.info.ptsUs).1).trans ?_
    have hnext (m n : ℕ) : p.sequence + UInt16.ofNat m + 1 + UInt16.ofNat n =
        p.sequence + 1 + UInt16.ofNat (m + n) := by
      rw [UInt16.ofNat_add, UInt16.add_assoc p.sequence, UInt16.add_comm _ 1, ← UInt16.add_assoc,
        UInt16.add_assoc]
    rw [hclock, hstamp, List.append_assoc, hsequence, hnext]
    rfl

end Camstream
