import Camstream.Lib.DropOldest
import Camstream.Lib.Run
import Camstream.Session.Lifecycle

/-!
# The receive queue of the DTLS engine

Datagrams wait in a circular buffer of 64 slots until OpenSSL reads them. `dtls_srtp_on_udp` makes room by
dropping the oldest, and `bio_rx_read` drops a datagram that is larger than the read.

The queue is a `DropOldest` queue: `Queues` connects the slots to what is stored, `QueueHistory` a run to
the history of the queue. How the calls of the engine use it is a matter of its own:
`rxQueue_dtlsSrtpOnUdp` says that a datagram is queued and that nothing but the reads of OpenSSL happens
to the queue in the same call.
-/

namespace Camstream

/-- The oldest datagram leaves its slot. -/
def rxqShift (d : DtlsSrtp) : DtlsSrtp :=
  { d with
    rxq := Function.update d.rxq d.rxHead none
    rxHead := (d.rxHead + 1) % dtlsRxQueue
    rxCount := d.rxCount - 1 }

/-- A datagram enters the slot at the tail. -/
def rxqStore (d : DtlsSrtp) (packet : List UInt8) : DtlsSrtp :=
  { d with
    rxq := Function.update d.rxq d.rxTail (some packet)
    rxTail := (d.rxTail + 1) % dtlsRxQueue
    rxCount := d.rxCount + 1 }

/-- `dtls_srtp_on_udp` before it pumps, where the allocation succeeds. -/
def rxqArrive (d : DtlsSrtp) (packet : List UInt8) : DtlsSrtp :=
  rxqStore (rxqMakeRoom d) packet

/-- Room is made by dropping the oldest datagram, and only in a full queue. -/
theorem rxqMakeRoom_eq (d : DtlsSrtp) :
    rxqMakeRoom d = if dtlsRxQueue ≤ d.rxCount then rxqShift d else d := rfl

/-- A read takes the oldest datagram out, whether it fits or not. -/
theorem bioRxRead_eq (d : DtlsSrtp) (size : ℕ) :
    bioRxRead d size =
      if d.rxCount = 0 then (d, none)
      else (rxqShift d, (d.rxq d.rxHead).filter fun data ↦ data.length ≤ size) := rfl

/-- The call is the arrival and the pump. -/
theorem dtlsSrtpOnUdp_eq_pumpSsl (lib : Libraries) (cb : DtlsSrtpCallbacks) {ans : Answers}
    {s : RtcSession} (packet : List UInt8) (hstate : s.dtls.state ≠ .failed)
    (hmalloc : ans.malloc = true) :
    dtlsSrtpOnUdp lib cb ans s packet =
      pumpSsl lib cb ans { s with dtls := rxqArrive s.dtls packet } := by
  rw [dtlsSrtpOnUdp, if_neg hstate, hmalloc]
  rfl

/-! ### Runs of the queue -/

/-- What happens to the queue. -/
inductive RxEvent
  | arrive (packet : List UInt8)
  | read (size : ℕ)
  deriving DecidableEq, Repr

/-- An engine with the datagrams that have arrived and those that OpenSSL has received. -/
structure RxTrace where
  dtls : DtlsSrtp
  arrived : List (List UInt8)
  received : List (List UInt8)

/-- One event. -/
def rxStep (t : RxTrace) : RxEvent → RxTrace
  | .arrive packet =>
    { t with dtls := rxqArrive t.dtls packet, arrived := t.arrived ++ [packet] }
  | .read size =>
    let r := bioRxRead t.dtls size
    { t with dtls := r.1, received := t.received ++ r.2.toList }

/-- A run from an engine. -/
def rxRun (d : DtlsSrtp) (es : List RxEvent) : RxTrace :=
  es.foldl rxStep ⟨d, [], []⟩

theorem rxRun_snoc (d : DtlsSrtp) (es : List RxEvent) (e : RxEvent) :
    rxRun d (es ++ [e]) = rxStep (rxRun d es) e :=
  List.foldl_concat rxStep ⟨d, [], []⟩ e es

/-- The next event loses the oldest datagram, the `k`-th to arrive: 64 datagrams are queued and another
one arrives, or the read is smaller than the datagram. -/
def RxTrace.Loses (t : RxTrace) (k : ℕ) : RxEvent → Prop
  | .arrive _ => k + dtlsRxQueue = t.arrived.length ∧ t.dtls.rxCount = dtlsRxQueue
  | .read size => k + t.dtls.rxCount = t.arrived.length ∧
      ∃ packet, t.arrived[k]? = some packet ∧ size < packet.length

/-- The `k`-th datagram is lost somewhere in a run. -/
def LostDuring (d : DtlsSrtp) (es : List RxEvent) (k : ℕ) : Prop :=
  ∃ es₁ e es₂, es = es₁ ++ e :: es₂ ∧ (rxRun d es₁).Loses k e

/-- **A bounded queue that loses datagrams only where it must.** A read with room for the oldest datagram
queued returns it. The history has every datagram that has left the queue in the order of arrival, with the fact
whether OpenSSL received it. -/
structure RxQueueLaw (d : DtlsSrtp) (es : List RxEvent) (t : RxTrace) : Prop where
  head_lt : t.dtls.rxHead < dtlsRxQueue
  tail_lt : t.dtls.rxTail < dtlsRxQueue
  count_le : t.dtls.rxCount ≤ dtlsRxQueue
  tail_eq : t.dtls.rxTail = (t.dtls.rxHead + t.dtls.rxCount) % dtlsRxQueue
  owned_iff : ∀ slot, (t.dtls.rxq slot).isSome = true ↔
    ∃ k < t.dtls.rxCount, slot = (t.dtls.rxHead + k) % dtlsRxQueue
  received_sublist : t.received.Sublist t.arrived
  returned : ∀ packet size, t.arrived[t.arrived.length - t.dtls.rxCount]? = some packet →
    packet.length ≤ size → (bioRxRead t.dtls size).2 = some packet
  history : ∃ q : DropOldest (List UInt8),
    q.accepted = t.arrived ∧ q.taken = t.received ∧
    q.stored.map some = Circular.window t.dtls.rxq dtlsRxQueue t.dtls.rxHead t.dtls.rxCount ∧
    ∀ k packet, q.gone[k]? = some (packet, false) → LostDuring d es k

/-! ### Refinement -/

/-- The slots hold the datagrams, the oldest at the head, and no slot holds anything else. -/
structure DtlsSrtp.Queues (d : DtlsSrtp) (stored : List (List UInt8)) : Prop where
  head_lt : d.rxHead < dtlsRxQueue
  count_le : d.rxCount ≤ dtlsRxQueue
  tail_eq : d.rxTail = (d.rxHead + d.rxCount) % dtlsRxQueue
  window_eq : Circular.window d.rxq dtlsRxQueue d.rxHead d.rxCount = stored.map some
  free : ∀ slot, (∀ k < d.rxCount, slot ≠ (d.rxHead + k) % dtlsRxQueue) → d.rxq slot = none

namespace DtlsSrtp.Queues

variable {d : DtlsSrtp} {packet : List UInt8} {stored : List (List UInt8)}

/-- `rx_count` is the number of the datagrams that are stored. -/
theorem count_eq (h : d.Queues stored) : d.rxCount = stored.length := by
  have hlength := congrArg List.length h.window_eq
  rwa [Circular.length_window, List.length_map] at hlength

theorem dtlsSrtpCreate (fingerprint : List UInt8) : (dtlsSrtpCreate fingerprint).Queues [] where
  head_lt := Nat.zero_lt_succ 63
  count_le := Nat.zero_le _
  tail_eq := rfl
  window_eq := rfl
  free := fun _ _ ↦ rfl

/-- The datagram at the head. -/
theorem rxq_head (h : d.Queues (packet :: stored)) : d.rxq d.rxHead = some packet := by
  have hwindow := h.window_eq
  rw [h.count_eq, List.length_cons, Circular.window_eq_cons h.head_lt, List.map_cons] at hwindow
  exact (List.cons.inj hwindow).1

/-- A read of the empty queue. -/
theorem bioRxRead_nil (h : d.Queues []) (size : ℕ) : bioRxRead d size = (d, none) := by
  rw [bioRxRead_eq, if_pos (by rw [h.count_eq]; rfl)]

/-- A read that the oldest datagram is too long for. -/
theorem bioRxRead_of_lt (h : d.Queues (packet :: stored)) {size : ℕ} (hsmall : size < packet.length) :
    bioRxRead d size = (rxqShift d, none) := by
  rw [bioRxRead_eq, if_neg (by rw [h.count_eq]; exact Nat.succ_ne_zero _), h.rxq_head,
    Option.filter_some, decide_eq_false (Nat.not_le.2 hsmall)]
  rfl

/-- A read that returns the oldest datagram. -/
theorem bioRxRead_of_le (h : d.Queues (packet :: stored)) {size : ℕ} (hfits : packet.length ≤ size) :
    bioRxRead d size = (rxqShift d, some packet) := by
  rw [bioRxRead_eq, if_neg (by rw [h.count_eq]; exact Nat.succ_ne_zero _), h.rxq_head,
    Option.filter_some, decide_eq_true hfits]
  rfl

/-- **The head moves on** when the oldest datagram leaves. -/
theorem rxqShift (h : d.Queues (packet :: stored)) : (rxqShift d).Queues stored := by
  have hcount : d.rxCount = stored.length + 1 := h.count_eq
  have hle := h.count_le
  have hpred : d.rxCount - 1 = stored.length := by omega
  have hslot : ∀ k, ((d.rxHead + 1) % dtlsRxQueue + k) % dtlsRxQueue =
      (d.rxHead + (k + 1)) % dtlsRxQueue := fun k ↦ by
    rw [Nat.mod_add_mod, Nat.add_assoc, Nat.add_comm 1 k]
  -- The slots that stay are none of them the one that is emptied.
  have hne : ∀ k < stored.length, (d.rxHead + (k + 1)) % dtlsRxQueue ≠ d.rxHead := fun k hk he ↦ by
    have hnot : (d.rxHead + 0) % dtlsRxQueue ≠ (d.rxHead + (k + 1)) % dtlsRxQueue :=
      Circular.add_mod_ne (Nat.zero_lt_succ k) (by omega)
    rw [Nat.add_zero, Nat.mod_eq_of_lt h.head_lt] at hnot
    exact hnot he.symm
  refine ⟨Nat.mod_lt _ (Nat.zero_lt_succ 63), (Nat.sub_le _ _).trans h.count_le, ?_, ?_, ?_⟩
  · show d.rxTail = ((d.rxHead + 1) % dtlsRxQueue + (d.rxCount - 1)) % dtlsRxQueue
    rw [hslot, hpred, ← hcount, h.tail_eq]
  · have hwindow := h.window_eq
    rw [hcount, Circular.window_eq_cons h.head_lt, List.map_cons] at hwindow
    show Circular.window (Function.update d.rxq d.rxHead none) dtlsRxQueue
      ((d.rxHead + 1) % dtlsRxQueue) (d.rxCount - 1) = stored.map some
    rw [hpred, ← (List.cons.inj hwindow).2]
    refine Circular.window_congr fun k hk ↦ ?_
    rw [hslot, Function.update_of_ne (hne k hk)]
  · intro slot hfree
    show Function.update d.rxq d.rxHead none slot = none
    rcases eq_or_ne slot d.rxHead with rfl | hslotNe
    · exact Function.update_self _ _ _
    rw [Function.update_of_ne hslotNe]
    refine h.free slot fun k hk ↦ ?_
    rcases k with - | k
    · rwa [Nat.add_zero, Nat.mod_eq_of_lt h.head_lt]
    · rw [← hslot]
      exact hfree k (by show k < d.rxCount - 1; omega)

/-- **The tail takes a datagram**, where there is room. -/
theorem rxqStore (h : d.Queues stored) (hroom : d.rxCount < dtlsRxQueue) (packet : List UInt8) :
    (rxqStore d packet).Queues (stored ++ [packet]) := by
  have htail := h.tail_eq
  have hkeep : ∀ k < d.rxCount, (d.rxHead + k) % dtlsRxQueue ≠ d.rxTail := fun k hk ↦ by
    rw [htail]
    exact Circular.add_mod_ne hk hroom
  refine ⟨h.head_lt, hroom, ?_, ?_, ?_⟩
  · show (d.rxTail + 1) % dtlsRxQueue = (d.rxHead + (d.rxCount + 1)) % dtlsRxQueue
    rw [htail, Nat.mod_add_mod, Nat.add_assoc]
  · show Circular.window (Function.update d.rxq d.rxTail (some packet)) dtlsRxQueue d.rxHead
      (d.rxCount + 1) = (stored ++ [packet]).map some
    rw [Circular.window_succ, List.map_append, ← h.window_eq, ← htail, Function.update_self]
    refine congrArg (· ++ _) (Circular.window_congr fun k hk ↦ ?_)
    exact Function.update_of_ne (hkeep k hk) _ _
  · intro slot hfree
    show Function.update d.rxq d.rxTail (some packet) slot = none
    have hne : slot ≠ d.rxTail := htail ▸ hfree d.rxCount (Nat.lt_succ_self _)
    rw [Function.update_of_ne hne]
    exact h.free slot fun k hk ↦ hfree k (Nat.lt_succ_of_lt hk)

/-- The buffers that are owned are those of the queued datagrams. -/
theorem owned_iff (h : d.Queues stored) (slot : ℕ) :
    (d.rxq slot).isSome = true ↔ ∃ k < d.rxCount, slot = (d.rxHead + k) % dtlsRxQueue := by
  constructor
  · intro hsome
    by_contra hnone
    rw [h.free slot fun k hk he ↦ hnone ⟨k, hk, he⟩] at hsome
    exact Bool.false_ne_true hsome
  · rintro ⟨k, hk, rfl⟩
    have hmem : d.rxq ((d.rxHead + k) % dtlsRxQueue) ∈
        Circular.window d.rxq dtlsRxQueue d.rxHead d.rxCount :=
      List.mem_map_of_mem (List.mem_range.2 hk)
    rw [h.window_eq] at hmem
    obtain ⟨packet, -, hpacket⟩ := List.mem_map.1 hmem
    rw [← hpacket]
    rfl

end DtlsSrtp.Queues

/-- A run and the history of its queue. -/
structure QueueHistory (d : DtlsSrtp) (es : List RxEvent) (q : DropOldest (List UInt8)) : Prop where
  queues : (rxRun d es).dtls.Queues q.stored
  arrived_eq : (rxRun d es).arrived = q.accepted
  received_eq : (rxRun d es).received = q.taken
  lost : ∀ k packet, q.gone[k]? = some (packet, false) → LostDuring d es k

namespace QueueHistory

variable {d : DtlsSrtp} {es : List RxEvent} {q : DropOldest (List UInt8)} {packet : List UInt8}
  {rest : List (List UInt8)}

theorem start (h : d.Queues []) : QueueHistory d [] .empty where
  queues := h
  arrived_eq := rfl
  received_eq := rfl
  lost := fun k packet hk ↦ by
    rw [show (DropOldest.empty : DropOldest (List UInt8)).gone = [] from rfl, List.getElem?_nil] at hk
    exact absurd hk.symm (Option.some_ne_none _)

/-- What was lost stays lost. -/
theorem lost_snoc {k : ℕ} (h : LostDuring d es k) (e : RxEvent) : LostDuring d (es ++ [e]) k := by
  obtain ⟨es₁, e₁, es₂, rfl, hloses⟩ := h
  exact ⟨es₁, e₁, es₂ ++ [e], by rw [List.append_assoc, List.cons_append], hloses⟩

/-- The losses after one more event, by which the oldest datagram may leave. -/
theorem lost_shift (h : QueueHistory d es q) {e : RxEvent} {b : Bool} (hstored : q.stored = packet :: rest)
    (hloses : b = false → (rxRun d es).Loses q.gone.length e) (k : ℕ) (p : List UInt8)
    (hk : (q.shift b).gone[k]? = some (p, false)) : LostDuring d (es ++ [e]) k := by
  obtain ⟨gone, stored⟩ := q
  obtain rfl : stored = packet :: rest := hstored
  rw [DropOldest.shift_cons] at hk
  rcases Nat.lt_or_ge k gone.length with hlt | hge
  · rw [List.getElem?_append_left hlt] at hk
    exact lost_snoc (h.lost k p hk) e
  · have hlast : k = gone.length ∧ b = false := by
      rw [List.getElem?_append_right hge, List.getElem?_singleton] at hk
      split_ifs at hk with hzero
      obtain ⟨-, rfl⟩ := Prod.mk.inj (Option.some.inj hk)
      exact ⟨by omega, rfl⟩
    rw [hlast.1]
    exact ⟨es, e, [], rfl, hloses hlast.2⟩

/-- The number of the oldest datagram. -/
theorem length_gone (h : QueueHistory d es q) :
    q.gone.length + (rxRun d es).dtls.rxCount = (rxRun d es).arrived.length := by
  rw [h.arrived_eq, h.queues.count_eq, DropOldest.accepted, List.length_append, List.length_map]

/-- **A step with an arrival.** -/
theorem arrive (h : QueueHistory d es q) (packet : List UInt8) :
    QueueHistory d (es ++ [.arrive packet]) (q.push dtlsRxQueue packet) := by
  have hcount := h.queues.count_eq
  have hle := h.queues.count_le
  have harrived : (rxRun d (es ++ [.arrive packet])).arrived =
      (q.push dtlsRxQueue packet).accepted := by
    rw [rxRun_snoc, DropOldest.accepted_push, ← h.arrived_eq]
    rfl
  have hreceived : (rxRun d (es ++ [.arrive packet])).received =
      (q.push dtlsRxQueue packet).taken := by
    rw [rxRun_snoc, DropOldest.taken_push, ← h.received_eq]
    rfl
  have hdtls : (rxRun d (es ++ [.arrive packet])).dtls =
      rxqStore (rxqMakeRoom (rxRun d es).dtls) packet := by
    rw [rxRun_snoc]
    rfl
  -- With room the datagram is added behind; without, the oldest is lost first.
  rcases hle.lt_or_eq with hroom | hfull
  · have hpush : q.push dtlsRxQueue packet = ⟨q.gone, q.stored ++ [packet]⟩ := by
      rw [DropOldest.push, if_neg (by omega)]
    refine ⟨?_, harrived, hreceived, ?_⟩
    · rw [hdtls, rxqMakeRoom_eq, if_neg (by omega), hpush]
      exact h.queues.rxqStore hroom packet
    · rw [hpush]
      exact fun k p hk ↦ lost_snoc (h.lost k p hk) _
  · obtain ⟨oldest, rest, hstored⟩ : ∃ oldest rest, q.stored = oldest :: rest := by
      refine List.exists_cons_of_ne_nil fun hnil ↦ ?_
      rw [hnil, hfull] at hcount
      exact absurd hcount (Nat.succ_ne_zero 63)
    have hpush : q.push dtlsRxQueue packet =
        ⟨(q.shift false).gone, rest ++ [packet]⟩ := by
      rw [DropOldest.push, if_pos (by omega), DropOldest.stored_shift, hstored, List.tail_cons]
    have hqueues := h.queues
    rw [hstored] at hqueues
    refine ⟨?_, harrived, hreceived, ?_⟩
    · rw [hdtls, rxqMakeRoom_eq, if_pos hfull.ge, hpush]
      refine hqueues.rxqShift.rxqStore ?_ packet
      show (rxRun d es).dtls.rxCount - 1 < dtlsRxQueue
      rw [hfull]
      exact Nat.pred_lt (Nat.succ_ne_zero 63)
    · have hloses : (rxRun d es).Loses q.gone.length (.arrive packet) :=
        ⟨hfull ▸ h.length_gone, hfull⟩
      rw [hpush]
      exact h.lost_shift hstored fun _ ↦ hloses

/-- **A step with a read.** -/
theorem read (h : QueueHistory d es q) (size : ℕ) :
    ∃ q', QueueHistory d (es ++ [.read size]) q' := by
  have hstep : rxRun d (es ++ [.read size]) =
      { rxRun d es with
        dtls := (bioRxRead (rxRun d es).dtls size).1
        received := (rxRun d es).received ++ (bioRxRead (rxRun d es).dtls size).2.toList } :=
    rxRun_snoc d es _
  have hqueues := h.queues
  rcases hstored : q.stored with - | ⟨oldest, rest⟩ <;> rw [hstored] at hqueues
  · refine ⟨q, ?_, ?_, ?_, fun k p hk ↦ lost_snoc (h.lost k p hk) _⟩
    · rw [hstep, hqueues.bioRxRead_nil]
      exact h.queues
    · rw [hstep]
      exact h.arrived_eq
    · rw [hstep, hqueues.bioRxRead_nil]
      exact (List.append_nil _).trans h.received_eq
  have hshift : ∀ b, (q.shift b).stored = rest := fun b ↦ by
    rw [DropOldest.stored_shift, hstored, List.tail_cons]
  -- The oldest datagram leaves the queue in both cases. If the buffer is too small, it is lost.
  rcases Nat.lt_or_ge size oldest.length with hsmall | hfits
  · have hread := hqueues.bioRxRead_of_lt hsmall
    refine ⟨q.shift false, ?_, ?_, ?_, h.lost_shift hstored fun _ ↦ ⟨h.length_gone, oldest, ?_, hsmall⟩⟩
    · rw [hstep, hread, hshift]
      exact hqueues.rxqShift
    · rw [hstep, DropOldest.accepted_shift]
      exact h.arrived_eq
    · rw [hstep, hread, DropOldest.taken_shift_false]
      exact (List.append_nil _).trans h.received_eq
    · rw [h.arrived_eq, DropOldest.accepted, hstored,
        List.getElem?_append_right (by rw [List.length_map]), List.length_map, Nat.sub_self]
      rfl
  · have hread := hqueues.bioRxRead_of_le hfits
    refine ⟨q.take, ?_, ?_, ?_, h.lost_shift hstored fun hb ↦ absurd hb (by decide)⟩
    · rw [hstep, hread, DropOldest.take, hshift]
      exact hqueues.rxqShift
    · rw [hstep, DropOldest.accepted_take]
      exact h.arrived_eq
    · rw [hstep, hread, DropOldest.taken_take hstored, ← h.received_eq]
      rfl

/-- A run has a history. -/
theorem exists_of_run (h : d.Queues []) (es : List RxEvent) : ∃ q, QueueHistory d es q := by
  induction es using List.reverseRecOn with
  | nil => exact ⟨_, start h⟩
  | append_singleton es e ih =>
    obtain ⟨q, hq⟩ := ih
    cases e with
    | arrive packet => exact ⟨_, hq.arrive packet⟩
    | read size => exact hq.read size

/-- The history is the law of the queue. -/
theorem law (h : QueueHistory d es q) : RxQueueLaw d es (rxRun d es) where
  head_lt := h.queues.head_lt
  tail_lt := by
    rw [h.queues.tail_eq]
    exact Nat.mod_lt _ (Nat.zero_lt_succ 63)
  count_le := h.queues.count_le
  tail_eq := h.queues.tail_eq
  owned_iff := h.queues.owned_iff
  received_sublist := by
    rw [h.received_eq, h.arrived_eq]
    exact DropOldest.taken_sublist
  returned packet size holdest hfits := by
    have hlength := h.length_gone
    have hqueues := h.queues
    rw [← hlength, Nat.add_sub_cancel, h.arrived_eq, DropOldest.accepted,
      List.getElem?_append_right (by rw [List.length_map]), List.length_map, Nat.sub_self] at holdest
    -- What has left is in front of what is stored, so the oldest is the first that is stored.
    rcases hstored : q.stored with - | ⟨oldest, rest⟩ <;> rw [hstored] at holdest hqueues
    · cases holdest
    · obtain rfl := Option.some.inj holdest
      rw [hqueues.bioRxRead_of_le hfits]
  history := ⟨q, h.arrived_eq.symm, h.received_eq.symm, h.queues.window_eq.symm, h.lost⟩

end QueueHistory

/-! ### The calls of the engine -/

/-- The fields of the engine that make up its queue. -/
structure RxQueue where
  rxq : ℕ → Option (List UInt8)
  rxHead : ℕ
  rxTail : ℕ
  rxCount : ℕ

/-- The queue of an engine. -/
def DtlsSrtp.rxQueue (d : DtlsSrtp) : RxQueue :=
  ⟨d.rxq, d.rxHead, d.rxTail, d.rxCount⟩

/-- The reads among the uses of the BIOs. -/
def readEvents (ops : List BioOp) : List RxEvent :=
  ops.filterMap fun op ↦
    match op with
    | .read size => some (.read size)
    | .write _ => none

/-- What a read does to the queue depends on the queue alone. -/
theorem rxQueue_bioRxRead_congr {d d' : DtlsSrtp} (h : d.rxQueue = d'.rxQueue) (size : ℕ) :
    (bioRxRead d size).1.rxQueue = (bioRxRead d' size).1.rxQueue := by
  obtain ⟨hrxq, hhead, htail, hcount⟩ := RxQueue.mk.inj h
  rw [bioRxRead_eq, bioRxRead_eq, hcount]
  split_ifs
  · exact h
  · rw [DtlsSrtp.rxQueue, DtlsSrtp.rxQueue, rxqShift, rxqShift]
    dsimp only
    rw [hrxq, hhead, htail, hcount]

/-- So does what an arrival does. -/
theorem rxQueue_rxqArrive_congr {d d' : DtlsSrtp} (h : d.rxQueue = d'.rxQueue) (packet : List UInt8) :
    (rxqArrive d packet).rxQueue = (rxqArrive d' packet).rxQueue := by
  obtain ⟨hrxq, hhead, htail, hcount⟩ := RxQueue.mk.inj h
  rw [rxqArrive, rxqArrive, rxqMakeRoom_eq, rxqMakeRoom_eq, hcount]
  split_ifs <;>
  · rw [DtlsSrtp.rxQueue, DtlsSrtp.rxQueue, rxqStore, rxqStore]
    simp only [rxqShift, hrxq, hhead, htail, hcount]

variable (lib : Libraries) (ans : Answers) (s : RtcSession)

theorem dtls_dtlsSendUdp (kind : UdpKind) (packet : List UInt8) :
    (dtlsSendUdp kind s packet).dtls = s.dtls := by
  rw [dtlsSendUdp]
  split_ifs <;> rfl

/-- **The BIOs**: of what OpenSSL does, the queue sees the reads. -/
theorem rxQueue_sslIo (close : RtcSession → RtcSession) {t : RxTrace} (h : s.dtls.rxQueue = t.dtls.rxQueue)
    (ops : List BioOp) :
    (sslIo (dtlsCallbacks close ans) s ops).dtls.rxQueue =
      ((readEvents ops).foldl rxStep t).dtls.rxQueue := by
  induction ops generalizing s t with
  | nil => exact h
  | cons op ops ih =>
    cases op with
    | read size => exact ih _ (rxQueue_bioRxRead_congr h size)
    | write buf =>
      refine ih _ (Eq.trans (congrArg DtlsSrtp.rxQueue ?_) h)
      show (bioTxWrite (dtlsCallbacks close ans) s buf).dtls = s.dtls
      rw [bioTxWrite]
      split_ifs
      · rfl
      · exact dtls_dtlsSendUdp s .dtls buf

/-- Closing a session whose engine is not connected reads nothing. -/
theorem rxQueue_rtcSessionCloseDepth (n : ℕ) {s : RtcSession} (h : s.dtls.state ≠ .connected) :
    (rtcSessionCloseDepth ans n s).dtls.rxQueue = s.dtls.rxQueue := by
  induction n generalizing s with
  | zero => rfl
  | succ n ih =>
    show (rtcSessionCloseWith (rtcSessionCloseDepth ans n) ans s).dtls.rxQueue = s.dtls.rxQueue
    have hclose : (dtlsSrtpClose (dtlsCallbacks (rtcSessionCloseDepth ans n) ans) ans
        (setState s .closed)).dtls.rxQueue = s.dtls.rxQueue := by
      have hopen : (setState s .closed).dtls.state ≠ .connected := h
      rw [dtlsSrtpClose, if_neg hopen, dtlsSetState]
      split_ifs
      · rfl
      · exact ih fun hstate ↦ DtlsSrtpState.noConfusion hstate
    rw [rtcSessionCloseWith]
    split_ifs
    · rfl
    · dsimp only
      split_ifs <;> exact hclose

@[simp]
theorem rxQueue_dtlsSetState (state : DtlsSrtpState) :
    (dtlsSetState (rtcCallbacks ans) s state).dtls.rxQueue = s.dtls.rxQueue := by
  rw [dtlsSetState]
  split_ifs
  · rfl
  · cases state with
    | failed | closed =>
      exact rxQueue_rtcSessionCloseDepth ans 2 fun hstate ↦ DtlsSrtpState.noConfusion hstate
    | init | handshaking | connected => rfl

/-- **The call of OpenSSL** in the pump: its reads and nothing else. -/
theorem rxQueue_pumpSslCall {t : RxTrace} (h : s.dtls.rxQueue = t.dtls.rxQueue) :
    (pumpSslCall (rtcCallbacks ans) ans s).1.dtls.rxQueue =
      ((readEvents ans.ssl.io).foldl rxStep t).dtls.rxQueue := by
  have hio (u : RtcSession) (hu : u.dtls.rxQueue = s.dtls.rxQueue) :
      (sslIo (rtcCallbacks ans) u ans.ssl.io).dtls.rxQueue =
        ((readEvents ans.ssl.io).foldl rxStep t).dtls.rxQueue :=
    rxQueue_sslIo ans u _ (hu.trans h) ans.ssl.io
  have hstarted := hio (dtlsSetState (rtcCallbacks ans)
    { s with dtls := { s.dtls with handshakeStarted := true } } .handshaking)
    (rxQueue_dtlsSetState ans _ .handshaking)
  rw [pumpSslCall]
  dsimp only
  split_ifs <;> simp [hio, hstarted]

theorem rxQueue_deriveSrtpKeys : (deriveSrtpKeys lib ans s).1.dtls.rxQueue = s.dtls.rxQueue := by
  have hcheck (t : RtcSession) : (fingerprintCheck lib ans t).1.dtls = t.dtls := by
    rw [fingerprintCheck]
    split_ifs
    · rfl
    · split
      · rfl
      · split <;> rfl
  rw [deriveSrtpKeys]
  split
  · rfl
  dsimp only
  split_ifs
  · rfl
  · rfl
  split <;> rename_i heq
  all_goals
    have h := congrArg (fun x ↦ x.1.dtls.rxQueue) heq
    dsimp only at h
    rw [hcheck] at h
    exact h.symm

/-- The queue belongs to the BIO; what is done with the keys leaves it alone. -/
theorem rxQueue_pumpSslKeys :
    (pumpSslKeys lib (rtcCallbacks ans) ans s).dtls.rxQueue = s.dtls.rxQueue := by
  have hderive := rxQueue_deriveSrtpKeys lib ans s
  rw [pumpSslKeys]
  split_ifs
  · rcases ht : deriveSrtpKeys lib ans s with ⟨t, - | -⟩ <;> rw [ht] at hderive
    · exact (rxQueue_dtlsSetState ans t .failed).trans hderive
    · refine Eq.trans ?_ ((rxQueue_dtlsSetState ans t .connected).trans hderive)
      show (rtcSessionRequestIdr ans _).dtls.rxQueue = _
      rw [rtcSessionRequestIdr]
      dsimp only
      split_ifs <;> rfl
  · rfl

/-- The reads of one call of `dtls_srtp_on_udp`: a closed engine is not pumped. -/
def pumpReads (d : DtlsSrtp) (ans : Answers) : List RxEvent :=
  if d.state = .closed then [] else readEvents ans.ssl.io

/-- **A call of `dtls_srtp_on_udp` is an arrival and the reads of OpenSSL.** -/
theorem rxQueue_dtlsSrtpOnUdp {t : RxTrace} (h : s.dtls.rxQueue = t.dtls.rxQueue) (packet : List UInt8)
    (hstate : s.dtls.state ≠ .failed) (hmalloc : ans.malloc = true) :
    (dtlsSrtpOnUdp lib (rtcCallbacks ans) ans s packet).dtls.rxQueue =
      ((.arrive packet :: pumpReads s.dtls ans).foldl rxStep t).dtls.rxQueue := by
  have hsame : (rxqArrive s.dtls packet).state = s.dtls.state := by
    rw [rxqArrive, rxqMakeRoom_eq]
    split_ifs <;> rfl
  have harrive := rxQueue_rxqArrive_congr h packet
  rw [dtlsSrtpOnUdp_eq_pumpSsl lib _ packet hstate hmalloc, pumpSsl, pumpReads, List.foldl_cons]
  dsimp only
  rw [hsame]
  rcases eq_or_ne s.dtls.state .closed with hclosed | hopen
  · rw [if_pos (.inl hclosed), if_pos hclosed]
    exact harrive
  · rw [if_neg (not_or.2 ⟨hopen, hstate⟩), if_neg hopen]
    have hcall := rxQueue_pumpSslCall ans { s with dtls := rxqArrive s.dtls packet }
      (t := rxStep t (.arrive packet)) harrive
    rcases hu : pumpSslCall (rtcCallbacks ans) ans { s with dtls := rxqArrive s.dtls packet } with
      ⟨u, - | -⟩ <;> rw [hu] at hcall
    · exact hcall
    · exact (rxQueue_pumpSslKeys lib ans u).trans hcall

/-- What uses the queue: datagrams from the network, and OpenSSL wherever it is called. -/
inductive QueueCall
  | onUdp (ans : Answers) (packet : List UInt8)
  | bio (ans : Answers) (ops : List BioOp)

/-- One call, with the events of the queue so far. A datagram is queued where the engine has not failed and
the allocation succeeds. -/
def queueCallStep (lib : Libraries) (c : RtcSession × List RxEvent) :
    QueueCall → Option (RtcSession × List RxEvent)
  | .onUdp ans packet =>
    if c.1.dtls.state = .failed ∨ ans.malloc = false then none
    else
      some (dtlsSrtpOnUdp lib (rtcCallbacks ans) ans c.1 packet,
        c.2 ++ .arrive packet :: pumpReads c.1.dtls ans)
  | .bio ans ops => some (sslIo (rtcCallbacks ans) c.1 ops, c.2 ++ readEvents ops)

/-- What one call does to the queue are its events. -/
theorem rxQueue_queueCallStep {d : DtlsSrtp} {c c' : RtcSession × List RxEvent} {call : QueueCall}
    (h : c.1.dtls.rxQueue = (rxRun d c.2).dtls.rxQueue) (hstep : queueCallStep lib c call = some c') :
    c'.1.dtls.rxQueue = (rxRun d c'.2).dtls.rxQueue := by
  cases call with
  | onUdp ans packet =>
    rw [queueCallStep] at hstep
    split_ifs at hstep with hbad
    obtain ⟨hstate, hmalloc⟩ := not_or.1 hbad
    obtain rfl := Option.some.inj hstep
    rw [rxRun, List.foldl_append]
    exact rxQueue_dtlsSrtpOnUdp lib ans c.1 h packet hstate (Bool.eq_true_of_not_eq_false hmalloc)
  | bio ans ops =>
    obtain rfl := Option.some.inj hstep
    rw [rxRun, List.foldl_append]
    exact rxQueue_sslIo ans c.1 _ h ops

/-- **The receive queue is a bounded first-in first-out queue.** It is one over every run of arrivals and
reads, and to a created engine every sequence of calls is such a run. -/
theorem rxQueue_fifo (lib : Libraries) (fingerprint : List UInt8) :
    (∀ es, RxQueueLaw (dtlsSrtpCreate fingerprint) es (rxRun (dtlsSrtpCreate fingerprint) es)) ∧
    ∀ s s' calls es, s.dtls = dtlsSrtpCreate fingerprint →
      Run.exec (queueCallStep lib) (s, []) calls = some (s', es) →
      s'.dtls.rxQueue = (rxRun (dtlsSrtpCreate fingerprint) es).dtls.rxQueue := by
  refine ⟨fun es ↦ ?_, fun s s' calls es hcreate hrun ↦ ?_⟩
  · obtain ⟨q, hq⟩ := QueueHistory.exists_of_run (DtlsSrtp.Queues.dtlsSrtpCreate fingerprint) es
    exact hq.law
  · refine Run.exec_invariant (P := fun c : RtcSession × List RxEvent ↦
      c.1.dtls.rxQueue = (rxRun (dtlsSrtpCreate fingerprint) c.2).dtls.rxQueue)
      (fun c call c' h hstep ↦ rxQueue_queueCallStep lib h hstep) ?_ hrun
    rw [hcreate]
    rfl

/-- Two datagrams arrive while OpenSSL reads nothing, and then it reads once. -/
def queuedCalls : List QueueCall :=
  let silent : Answers := { sampleAnswers 1 with ssl := ⟨[], -1, .wantRead⟩ }
  [.onUdp silent [22, 1], .onUdp silent [22, 2, 2], .bio (sampleAnswers 2) [.read 2]]

theorem rxQueue_fifo_sample : ∃ s₀ s es,
    rtcSessionCreate sampleCreate (sampleConfig sampleFingerprint) = some s₀ ∧
    Run.exec (queueCallStep sampleLibraries) (s₀, []) queuedCalls = some (s, es) ∧
    s.dtls.rxQueue = (rxRun (dtlsSrtpCreate sampleFingerprint) es).dtls.rxQueue ∧
    (rxRun (dtlsSrtpCreate sampleFingerprint) es).received = [[22, 1]] ∧
    (bioRxRead (rxRun (dtlsSrtpCreate sampleFingerprint) es).dtls 3).2 = some [22, 2, 2] := by
  have hrun : ((rtcSessionCreate sampleCreate (sampleConfig sampleFingerprint)).bind fun s₀ ↦
      (Run.exec (queueCallStep sampleLibraries) (s₀, []) queuedCalls).map Prod.snd) =
        some [.arrive [22, 1], .arrive [22, 2, 2], .read 2] := by
    decide +kernel
  obtain ⟨s₀, hcreate, hrun⟩ := Option.bind_eq_some_iff.1 hrun
  obtain ⟨⟨s, es⟩, hs, hes⟩ := Option.map_eq_some_iff.1 hrun
  obtain rfl : es = [.arrive [22, 1], .arrive [22, 2, 2], .read 2] := hes
  obtain ⟨hlaw, hcalls⟩ := rxQueue_fifo sampleLibraries sampleFingerprint
  obtain ⟨-, -, -, -, -, hdtls, -⟩ := rtcSessionCreate_spec hcreate
  exact ⟨s₀, s, _, hcreate, hs, hcalls s₀ s queuedCalls _ hdtls hs, rfl,
    (hlaw _).returned [22, 2, 2] 3 rfl (by decide)⟩

end Camstream
