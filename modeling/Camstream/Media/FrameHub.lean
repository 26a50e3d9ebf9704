import Camstream.Lib.Run
import Camstream.Media.FramePool

/-!
# The frame hub

`src/media/frame_hub.c`: one producer publishes frames, every consumer owns a mailbox of one slot, and an
untaken frame is replaced by a newer one. Producer and consumers are threads; the model interleaves
their critical sections. A publish is therefore several steps — acquire and fill a frame, take the hub
lock, one step per consumer, drop the lock, drop the producer's reference — and an unsubscribe is two,
the critical section that unlinks the consumer and the release of its mailbox that follows it.

`FrameHub.taken` is the one component the source does not store: the frames that `frame_hub_take` has
returned to a consumer and that it has not yet released, which live in that consumer's own variables.
-/

namespace Camstream

/-- `struct FrameHubConsumer`, without its links. -/
structure FrameHubConsumer where
  slot : Option ℕ
  active : Bool
  deriving DecidableEq, Repr

/-- Where the producer is inside `frame_hub_publish`. -/
inductive Publisher
  /-- Outside of it. -/
  | idle
  /-- The frame is acquired and filled, the hub lock not yet taken. -/
  | filled (frame : ℕ)
  /-- In the loop, with the consumers still to be visited. -/
  | delivering (frame : ℕ) (rest : List ℕ)
  /-- Behind the loop, the producer's own reference still held. -/
  | delivered (frame : ℕ)
  deriving DecidableEq, Repr

/-- The frame the producer holds a reference to. -/
def Publisher.frame? : Publisher → Option ℕ
  | idle => none
  | filled frame | delivering frame _ | delivered frame => some frame

/-- The consumers the loop has yet to visit. -/
def Publisher.rest : Publisher → List ℕ
  | delivering _ rest => rest
  | _ => []

/-- Whether the producer is inside the hub lock. -/
def Publisher.locked : Publisher → Bool
  | delivering _ _ => true
  | _ => false

/-- Outside the hub lock no loop is under way. -/
theorem Publisher.rest_eq_nil {p : Publisher} (h : p.locked = false) : p.rest = [] := by
  cases p with
  | delivering frame rest => exact absurd h.symm Bool.false_ne_true
  | idle | filled frame | delivered frame => rfl

/-- `struct FrameHub` with its consumers: `consumers` is the linked list from its head, `unlinked` the
consumers that `frame_hub_unsubscribe` has unlinked and not yet freed. -/
structure FrameHub where
  pool : FramePool
  consumers : List ℕ
  unlinked : List ℕ
  consumer : ℕ → FrameHubConsumer
  publisher : Publisher
  taken : List (ℕ × ℕ)

/-- `frame_hub_create` -/
def frameHubCreate (bufferCapacity poolCount : ℕ) : Option FrameHub :=
  (framePoolCreate bufferCapacity poolCount).map fun pool ↦
    { pool := pool
      consumers := []
      unlinked := []
      consumer := fun _ ↦ ⟨none, false⟩
      publisher := .idle
      taken := [] }

/-- Write one consumer. -/
def FrameHub.setConsumer (hub : FrameHub) (c : ℕ) (v : FrameHubConsumer) : FrameHub :=
  { hub with consumer := Function.update hub.consumer c v }

/-- The consumers that exist: linked, or unlinked and not yet freed. -/
def FrameHub.live (hub : FrameHub) : List ℕ :=
  hub.consumers ++ hub.unlinked

/-- Unlinking a consumer moves it within the live ones. -/
theorem perm_unlink {linked unlinked : List ℕ} {c : ℕ} (h : c ∈ linked) :
    (linked ++ unlinked).Perm (linked.erase c ++ c :: unlinked) :=
  ((List.perm_cons_erase h).append_right _).trans List.perm_middle.symm

/-- Freeing it takes it out of them. -/
theorem perm_free {linked unlinked : List ℕ} {c : ℕ} (h : c ∈ unlinked) :
    (linked ++ unlinked).Perm (c :: (linked ++ unlinked.erase c)) :=
  ((List.perm_cons_erase h).append_left _).trans List.perm_middle

/-! ### The operations -/

/-- `frame_hub_subscribe`; `c` is the address `calloc` returns, which is that of no existing consumer. -/
def frameHubSubscribe (hub : FrameHub) (c : ℕ) : Option FrameHub :=
  if hub.publisher.locked ∨ c ∈ hub.live then none
  else some { hub.setConsumer c ⟨none, true⟩ with consumers := c :: hub.consumers }

/-- The critical section of `frame_hub_unsubscribe`. -/
def frameHubUnsubscribe (hub : FrameHub) (c : ℕ) : Option FrameHub :=
  if hub.publisher.locked ∨ c ∉ hub.consumers then none
  else
    let v := hub.consumer c
    let hub :=
      if v.active then
        { hub.setConsumer c { v with active := false } with consumers := hub.consumers.erase c }
      else hub
    some { hub with unlinked := c :: hub.unlinked }

/-- The end of `frame_hub_unsubscribe`: drop the mailboxed frame and free the consumer. -/
def frameHubFree (hub : FrameHub) (c : ℕ) : Option FrameHub :=
  if c ∉ hub.unlinked then none
  else
    let v := hub.consumer c
    let hub :=
      match v.slot with
      | some frame =>
        { hub.setConsumer c { v with slot := none } with pool := frameUnref hub.pool frame }
      | none => hub
    some { hub with unlinked := hub.unlinked.erase c }

/-- What `frame_hub_publish` copies into the frame. -/
structure FrameInfo where
  data : List UInt8
  width : UInt32
  height : UInt32
  format : UInt32
  stride : UInt32
  sequence : UInt64
  timestampUs : UInt64

/-- The `memcpy` and the assignments of `frame_hub_publish`. -/
def fillFrame (pool : FramePool) (frame : ℕ) (info : FrameInfo) : FramePool :=
  let f := pool.frames frame
  let copied (k : ℕ) : UInt8 :=
    if f.data ≤ k ∧ k < f.data + info.data.length then info.data.getD (k - f.data) 0
    else pool.backing k
  { pool with backing := copied }.setFrame frame
    { f with
      width := info.width
      height := info.height
      format := info.format
      stride := info.stride
      size := info.data.length
      sequence := info.sequence
      timestampUs := info.timestampUs }

/-- `frame_hub_publish` up to the hub lock. An empty frame, or a pool with no frame free, makes it
return `-1` with nothing changed. There is no state after an access outside the frames. -/
def frameHubPublish (hub : FrameHub) (info : FrameInfo) : Option FrameHub :=
  if hub.publisher ≠ .idle then none
  else if info.data.length = 0 then some hub
  else
    match framePoolAcquire hub.pool with
    | .null => some hub
    | .outside _ => none
    | .frame frame pool =>
      some { hub with pool := fillFrame pool frame info, publisher := .filled frame }

/-- **Where a publish starts**: it fails with nothing changed, or it copies to the frame on top of the
stack. -/
theorem frameHubPublish_cases {hub begun : FrameHub} {info : FrameInfo}
    (hs : frameHubPublish hub info = some begun) : hub.publisher = .idle ∧
      (begun = hub ∧ (info.data.length = 0 ∨ hub.pool.freeCount = 0) ∨
        info.data.length ≠ 0 ∧ ∃ i pool, framePoolAcquire hub.pool = .frame i pool ∧
          begun = { hub with pool := fillFrame pool i info, publisher := .filled i }) := by
  rw [frameHubPublish] at hs
  split_ifs at hs with hidle hsize
  · exact ⟨not_not.1 hidle, .inl ⟨(Option.some.inj hs).symm, .inl hsize⟩⟩
  refine ⟨not_not.1 hidle, ?_⟩
  rcases hacq : framePoolAcquire hub.pool with - | ⟨i, pool⟩ | index
  · rw [hacq] at hs
    exact .inl ⟨(Option.some.inj hs).symm, .inr (framePoolAcquire_eq_null_iff.1 hacq)⟩
  · rw [hacq] at hs
    exact .inr ⟨hsize, i, pool, rfl, (Option.some.inj hs).symm⟩
  · rw [hacq] at hs
    exact absurd hs.symm (Option.some_ne_none begun)

/-- A publish of a picture that gets a frame. -/
theorem frameHubPublish_of_frame {hub : FrameHub} {info : FrameInfo} {i : ℕ} {pool : FramePool}
    (hidle : hub.publisher = .idle) (hsize : info.data.length ≠ 0)
    (hacq : framePoolAcquire hub.pool = .frame i pool) :
    frameHubPublish hub info =
      some { hub with pool := fillFrame pool i info, publisher := .filled i } := by
  rw [frameHubPublish, if_neg (not_not.2 hidle), if_neg hsize, hacq]

/-- The body of the delivery loop. -/
def deliver (hub : FrameHub) (frame c : ℕ) : FrameHub :=
  let v := hub.consumer c
  if v.active then
    let pool := frameRef hub.pool frame
    let pool :=
      match v.slot with
      | some old => frameUnref pool old
      | none => pool
    { hub.setConsumer c { v with slot := some frame } with pool := pool }
  else hub

/-- The next step of a publish under way. -/
def frameHubPublishNext (hub : FrameHub) : Option FrameHub :=
  match hub.publisher with
  | .idle => none
  | .filled frame => some { hub with publisher := .delivering frame hub.consumers }
  | .delivering frame (c :: rest) =>
    some { deliver hub frame c with publisher := .delivering frame rest }
  | .delivering frame [] => some { hub with publisher := .delivered frame }
  | .delivered frame =>
    some { hub with pool := frameUnref hub.pool frame, publisher := .idle }

/-- `frame_hub_take`: the frame it returns, or `NULL`, and the hub it leaves. -/
def frameHubTake (hub : FrameHub) (c : ℕ) : Option (Option ℕ × FrameHub) :=
  if c ∉ hub.live then none
  else
    let v := hub.consumer c
    let frame := v.slot
    some (frame, hub.setConsumer c { v with slot := none })

/-- The consumer keeps what `frame_hub_take` has returned to it. -/
def FrameHub.keep (hub : FrameHub) (c : ℕ) (frame : Option ℕ) : FrameHub :=
  { hub with taken := frame.toList.map (c, ·) ++ hub.taken }

/-- A consumer releases a frame it has taken. -/
def frameHubRelease (hub : FrameHub) (c frame : ℕ) : Option FrameHub :=
  if (c, frame) ∉ hub.taken then none
  else
    some { hub with
      pool := frameUnref hub.pool frame
      taken := hub.taken.erase (c, frame) }

/-! ### The machine -/

/-- One step of some thread. -/
inductive HubEvent
  | subscribe (c : ℕ)
  | unsubscribe (c : ℕ)
  | free (c : ℕ)
  | publish (info : FrameInfo)
  | publishNext
  | take (c : ℕ)
  | release (c frame : ℕ)

/-- The step relation: `none` when the thread cannot take this step now. -/
def hubStep (hub : FrameHub) : HubEvent → Option FrameHub
  | .subscribe c => frameHubSubscribe hub c
  | .unsubscribe c => frameHubUnsubscribe hub c
  | .free c => frameHubFree hub c
  | .publish info => frameHubPublish hub info
  | .publishNext => frameHubPublishNext hub
  | .take c => (frameHubTake hub c).map fun taken ↦ taken.2.keep c taken.1
  | .release c frame => frameHubRelease hub c frame

end Camstream
