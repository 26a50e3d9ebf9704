import Camstream.Media.References

/-!
# The hub without its pool

What consumers and producer can see of each other: the linked consumers, the mailboxes, the frames taken
and the producer's phase. Reference counts, the stack of free indices and the bytes are left out; of the
pool it is only kept that a publish starts with a frame nobody holds, or does not start.

`HubView.Step` says for every event of the hub what it can do, with its guard, and `view_hubStep` that
every step of the hub does one of these. What is proved about the order of frames, or about how many of
them are held, follows from these eleven cases, without unfolding an operation of the source.
-/

namespace Camstream

/-! ### The view -/

/-- The hub without its pool. -/
structure HubView where
  linked : List ℕ
  unlinked : List ℕ
  slot : ℕ → Option ℕ
  publisher : Publisher
  taken : List (ℕ × ℕ)

/-- What the consumers and the producer see. -/
def FrameHub.view (hub : FrameHub) : HubView where
  linked := hub.consumers
  unlinked := hub.unlinked
  slot c := (hub.consumer c).slot
  publisher := hub.publisher
  taken := hub.taken

/-- The consumers that exist. -/
def HubView.live (v : HubView) : List ℕ :=
  v.linked ++ v.unlinked

/-- No consumer holds the frame, in its mailbox or in its hands. -/
structure HubView.Unheld (v : HubView) (frame : ℕ) : Prop where
  slot_ne : ∀ c ∈ v.live, v.slot c ≠ some frame
  taken_ne : ∀ c, (c, frame) ∉ v.taken

/-- What the event `e` can do. -/
inductive HubView.Step (v : HubView) : HubEvent → HubView → Prop
  | subscribe {c : ℕ} (hlock : v.publisher.locked = false) (hfresh : c ∉ v.live) :
    Step v (.subscribe c) { v with linked := c :: v.linked, slot := Function.update v.slot c none }
  | unsubscribe {c : ℕ} (hlock : v.publisher.locked = false) (hlinked : c ∈ v.linked) :
    Step v (.unsubscribe c) { v with linked := v.linked.erase c, unlinked := c :: v.unlinked }
  | free {c : ℕ} (hunlinked : c ∈ v.unlinked) :
    Step v (.free c)
      { v with slot := Function.update v.slot c none, unlinked := v.unlinked.erase c }
  | fail {info : FrameInfo} (hidle : v.publisher = .idle) : Step v (.publish info) v
  | fill {info : FrameInfo} {frame : ℕ} (hidle : v.publisher = .idle) (hunheld : v.Unheld frame) :
    Step v (.publish info) { v with publisher := .filled frame }
  | lock {frame : ℕ} (hfilled : v.publisher = .filled frame) :
    Step v .publishNext { v with publisher := .delivering frame v.linked }
  | deliver {frame c : ℕ} {rest : List ℕ} (hloop : v.publisher = .delivering frame (c :: rest)) :
    Step v .publishNext
      { v with
        slot := Function.update v.slot c (some frame)
        publisher := .delivering frame rest }
  | unlock {frame : ℕ} (hloop : v.publisher = .delivering frame []) :
    Step v .publishNext { v with publisher := .delivered frame }
  | finish {frame : ℕ} (hdelivered : v.publisher = .delivered frame) :
    Step v .publishNext { v with publisher := .idle }
  | miss {c : ℕ} (hlive : c ∈ v.live) (hempty : v.slot c = none) : Step v (.take c) v
  | take {c frame : ℕ} (hlive : c ∈ v.live) (hslot : v.slot c = some frame) :
    Step v (.take c)
      { v with slot := Function.update v.slot c none, taken := (c, frame) :: v.taken }
  | release {c frame : ℕ} (htaken : (c, frame) ∈ v.taken) :
    Step v (.release c frame) { v with taken := v.taken.erase (c, frame) }

/-! ### Refinement -/

variable {n : ℕ} {hub hub' : FrameHub} {c : ℕ}

/-- Writing a consumer is writing its mailbox. -/
theorem slot_setConsumer (hub : FrameHub) (c : ℕ) (w : FrameHubConsumer) :
    (fun d ↦ (Function.update hub.consumer c w d).slot) =
      Function.update hub.view.slot c w.slot := by
  funext d
  rcases eq_or_ne d c with rfl | hne
  · rw [Function.update_self, Function.update_self]
  · rw [Function.update_of_ne hne, Function.update_of_ne hne]
    rfl

/-- Emptying an empty mailbox changes nothing. -/
theorem update_slot_none {slot : ℕ → Option ℕ} (h : slot c = none) :
    Function.update slot c none = slot := by
  rw [← h]
  exact Function.update_eq_self c slot

/-- A frame the pool hands out is one that nobody holds. -/
theorem unheld_of_framePoolAcquire (h : hub.Accounted n) {frame : ℕ} {pool : FramePool}
    (hacq : framePoolAcquire hub.pool = .frame frame pool) : hub.view.Unheld frame := by
  obtain ⟨a, ha, href⟩ := h.represents
  obtain ⟨-, hnot, -⟩ := represents_framePoolAcquire ha hacq
  have hzero : hub.references frame = 0 := (href frame).symm.trans (Multiset.count_eq_zero.2 hnot)
  rw [FrameHub.references] at hzero
  refine ⟨fun c hc hslot ↦ ?_, fun c hc ↦ ?_⟩
  · have hmail : hub.mailboxes frame = 0 := by omega
    exact List.countP_eq_zero.1 hmail c hc (decide_eq_true hslot)
  · have hout : hub.outstanding frame = 0 := by omega
    exact List.countP_eq_zero.1 hout (c, frame) hc (decide_eq_true rfl)

/-- **Every step of the hub is one of the steps of its view.** -/
theorem view_hubStep {e : HubEvent} (h : hub.Accounted n) (hs : hubStep hub e = some hub') :
    hub.view.Step e hub'.view := by
  cases e with
  | subscribe c =>
    rw [hubStep, frameHubSubscribe] at hs
    split_ifs at hs with hguard
    obtain ⟨hlock, hfresh⟩ := not_or.1 hguard
    obtain rfl := Option.some.inj hs
    have := HubView.Step.subscribe (v := hub.view) (c := c) (Bool.eq_false_iff.2 hlock) hfresh
    rwa [← slot_setConsumer hub c ⟨none, true⟩] at this
  | unsubscribe c =>
    obtain ⟨hlock, hmem, rfl⟩ := h.eq_of_frameHubUnsubscribe hs
    have hslot : (fun d ↦ (Function.update hub.consumer c
        { hub.consumer c with active := false } d).slot) = hub.view.slot :=
      (slot_setConsumer hub c _).trans (Function.update_eq_self c hub.view.slot)
    have := HubView.Step.unsubscribe (v := hub.view) (c := c) hlock hmem
    rwa [← hslot] at this
  | free c =>
    rw [hubStep, frameHubFree] at hs
    split_ifs at hs with hmem
    have := HubView.Step.free (v := hub.view) (c := c) hmem
    rcases hslot : (hub.consumer c).slot with - | frame <;>
      simp only [hslot, Option.some.injEq] at hs <;> subst hs
    · have hnone : hub.view.slot c = none := hslot
      rwa [update_slot_none hnone] at this
    · rwa [← slot_setConsumer hub c { hub.consumer c with slot := none }] at this
  | publish info =>
    obtain ⟨hidle, ⟨rfl, -⟩ | ⟨-, frame, pool, hacq, rfl⟩⟩ := frameHubPublish_cases hs
    · exact .fail hidle
    · exact .fill hidle (unheld_of_framePoolAcquire h hacq)
  | publishNext =>
    rw [hubStep, frameHubPublishNext] at hs
    rcases hp : hub.publisher with - | frame | ⟨frame, _ | ⟨c, rest⟩⟩ | frame <;>
      simp only [hp, Option.some.injEq, reduceCtorEq] at hs <;> subst hs
    · exact .lock hp
    · exact .unlock hp
    · -- The consumer visited is in the list, so it is active.
      have hc : c ∈ hub.consumers := h.rest_subset c (hp ▸ List.mem_cons_self)
      have := HubView.Step.deliver (v := hub.view) hp
      rw [← slot_setConsumer hub c { hub.consumer c with slot := some frame }] at this
      rw [deliver]
      dsimp only
      rw [if_pos (h.active c hc)]
      exact this
    · exact .finish hp
  | take c =>
    obtain ⟨hmem, rfl⟩ := eq_of_frameHubTake hs
    have hupd := slot_setConsumer hub c { hub.consumer c with slot := none }
    rcases hslot : (hub.consumer c).slot with - | frame
    · have hnone : hub.view.slot c = none := hslot
      have hview : ((hub.setConsumer c { hub.consumer c with slot := none }).keep c none).view = hub.view :=
        congrArg (fun slot ↦ { hub.view with slot := slot }) (hupd.trans (update_slot_none hnone))
      rw [hview]
      exact .miss hmem hnone
    · have := HubView.Step.take (v := hub.view) hmem hslot
      rwa [← hupd] at this
  | release c frame =>
    rw [hubStep, frameHubRelease] at hs
    split_ifs at hs with hmem
    obtain rfl := Option.some.inj hs
    exact .release hmem

end Camstream
