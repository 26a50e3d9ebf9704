import Mathlib.Data.List.Pairwise
import Mathlib.Data.List.ReduceOption
import Camstream.Media.Mailboxes

/-!
# Keep-newest mailboxes

What one consumer receives. The buffers of the pool are recycled, so a frame is identified by its
**publish number**: the hub is run together with a count of the publishes that got a frame, the number of
the publish whose frame each buffer holds, and a log of what happened. None of it is seen by the hub.

Facts about the log, of which the last says why the others hold:

* the numbers one consumer takes increase;
* each take returns what was delivered last, unless it was taken already;
* what a consumer has in its hands is what its takes have returned;
* seen from one consumer, the hub is a `Mailbox`: a machine with a single slot that knows its own calls
  and the producer's, and no other consumer. What the consumer receives is a function of these.

The numbering rests on `HubView.Unheld`: a buffer gets a new number only when nobody holds it.
-/

namespace Camstream

/-! ### What happens -/

/-- What happens in a run, as far as a consumer can tell. -/
inductive HubHappening
  | subscribed (c : ℕ)
  | unsubscribed (c : ℕ)
  /-- A publish got a frame. -/
  | published (n : ℕ)
  /-- A publish returned `-1`. -/
  | failed
  /-- The producer entered the loop over the consumers. -/
  | locked
  | delivered (c n : ℕ)
  | unlocked
  /-- What `frame_hub_take` returned. -/
  | took (c : ℕ) (result : Option ℕ)

/-- The hub with publish numbers and a log, latest first. -/
structure HubTrace where
  hub : FrameHub
  number : ℕ → ℕ
  published : ℕ
  log : List HubHappening

/-- A new hub. -/
def HubTrace.start (hub : FrameHub) : HubTrace :=
  ⟨hub, fun _ ↦ 0, 0, []⟩

/-- The frame a publish has acquired with its first step. -/
def acquiredFrame : HubEvent → Publisher → Option ℕ
  | .publish _, .filled frame => some frame
  | _, _ => none

/-- What the call of `frame_hub_take` returns, if the event is one. -/
def HubEvent.returned (hub : FrameHub) : HubEvent → Option ℕ
  | .take c => (frameHubTake hub c).bind Prod.fst
  | _ => none

/-- What happens in a step from `v` to `v'` that has returned the frame `returned`. -/
def HubView.happening (number : ℕ → ℕ) (published : ℕ) (returned : Option ℕ) (v v' : HubView) :
    HubEvent → Option HubHappening
  | .subscribe c => some (.subscribed c)
  | .unsubscribe c => some (.unsubscribed c)
  | .free _ => none
  | .publish _ =>
    match v'.publisher with
    | .filled _ => some (.published published)
    | _ => some .failed
  | .publishNext =>
    match v.publisher with
    | .filled _ => some .locked
    | .delivering frame (c :: _) => some (.delivered c (number frame))
    | .delivering _ [] => some .unlocked
    | _ => none
  | .take c => some (.took c (returned.map number))
  | .release _ _ => none

/-- A step of the hub, recorded. -/
def tracedStep (t : HubTrace) (e : HubEvent) : Option HubTrace :=
  (hubStep t.hub e).map fun hub ↦
    { hub := hub
      number :=
        match acquiredFrame e hub.publisher with
        | some frame => Function.update t.number frame t.published
        | none => t.number
      published := if (acquiredFrame e hub.publisher).isSome then t.published + 1 else t.published
      log := (t.hub.view.happening t.number t.published (e.returned t.hub) hub.view e).toList ++ t.log }

/-- Recording does not get in the way: the runs are those of the hub. -/
theorem exec_hubStep_iff {hub hub' : FrameHub} {es : List HubEvent} :
    Run.exec hubStep hub es = some hub' ↔
      ∃ t, Run.exec tracedStep (HubTrace.start hub) es = some t ∧ t.hub = hub' := by
  suffices h : ∀ t : HubTrace, (Run.exec tracedStep t es).map HubTrace.hub = Run.exec hubStep t.hub es by
    rw [← Option.map_eq_some_iff, h (HubTrace.start hub)]
    exact Iff.rfl
  induction es with
  | nil => exact fun t ↦ rfl
  | cons e es ih =>
    intro t
    rw [Run.exec_cons, Run.exec_cons, tracedStep]
    rcases hubStep t.hub e with - | hub
    · rfl
    · exact ih _

/-! ### Reading the log -/

/-- What was delivered to `c` last, if it has not been taken since. -/
def pendingFor (c : ℕ) : List HubHappening → Option ℕ
  | [] => none
  | .subscribed d :: log => if d = c then none else pendingFor c log
  | .took d _ :: log => if d = c then none else pendingFor c log
  | .delivered d n :: log => if d = c then some n else pendingFor c log
  | _ :: log => pendingFor c log

/-- What was delivered to `c`, latest first. -/
def deliveries (c : ℕ) (log : List HubHappening) : List ℕ :=
  log.filterMap fun
    | .delivered d n => if d = c then some n else none
    | _ => none

/-- What the takes of `c` returned, latest first. -/
def takes (c : ℕ) (log : List HubHappening) : List (Option ℕ) :=
  log.filterMap fun
    | .took d result => if d = c then some result else none
    | _ => none

/-- Every take of `c` returned what was pending. -/
def TakesPending (c : ℕ) (log : List HubHappening) : Prop :=
  ∀ newer older result, log = newer ++ .took c result :: older → result = pendingFor c older

/-- **What is taken was delivered**, each delivery at most once and in their order. -/
theorem takes_sublist_deliveries {c : ℕ} {log : List HubHappening} (h : TakesPending c log) :
    ((pendingFor c log).toList ++ (takes c log).reduceOption).Sublist (deliveries c log) := by
  induction log with
  | nil => exact List.Sublist.slnil
  | cons x log ih =>
    have ih := ih fun newer older result he ↦ h (x :: newer) older result (congrArg (x :: ·) he)
    -- Whatever was pending may be overwritten or taken, and what remains is still in order.
    have htakes := (List.sublist_append_right (pendingFor c log).toList _).trans ih
    cases x with
    | subscribed d =>
      by_cases hd : d = c
      · simpa [pendingFor, takes, deliveries, hd] using htakes
      · simpa [pendingFor, takes, deliveries, hd] using ih
    | delivered d n =>
      by_cases hd : d = c
      · simpa [pendingFor, takes, deliveries, hd] using htakes
      · simpa [pendingFor, takes, deliveries, hd] using ih
    | took d result =>
      by_cases hd : d = c
      · subst hd
        obtain rfl := h [] log result rfl
        rcases hp : pendingFor d log with - | n <;> rw [hp] at ih
        · simpa [pendingFor, takes, deliveries, List.reduceOption_cons_of_none] using ih
        · simpa [pendingFor, takes, deliveries, List.reduceOption_cons_of_some] using ih
      · simpa [pendingFor, takes, deliveries, hd] using ih
    | unsubscribed d => exact ih
    | published n => exact ih
    | failed => exact ih
    | locked => exact ih
    | unlocked => exact ih

/-! ### One mailbox -/

/-- What the mailbox of one consumer sees: the calls of its consumer, and the steps of the producer. -/
inductive MailboxEvent
  | subscribe
  | unsubscribe
  | publish
  | fail
  | lock
  | deliver
  | unlock
  | take

/-- The hub as one consumer knows it. `due` says that the publish under way has yet to deliver. -/
structure Mailbox where
  linked : Bool
  slot : Option ℕ
  published : ℕ
  due : Bool
  received : List (Option ℕ)

/-- Before its consumer subscribes. -/
def Mailbox.new : Mailbox :=
  ⟨false, none, 0, false, []⟩

/-- A publish delivers to a linked consumer once, before it leaves the loop, and what it delivers is the
frame of the latest publish. -/
def Mailbox.step (m : Mailbox) : MailboxEvent → Option Mailbox
  | .subscribe => some { m with linked := true, slot := none }
  | .unsubscribe => some { m with linked := false }
  | .publish => some { m with published := m.published + 1 }
  | .fail => some m
  | .lock => some { m with due := m.linked }
  | .deliver => if m.due then some { m with slot := some (m.published - 1), due := false } else none
  | .unlock => if m.due then none else some m
  | .take => some { m with slot := none, received := m.slot :: m.received }

/-- What a happening is to the mailbox of `c`: nothing, when it concerns another consumer. -/
def HubHappening.forMailbox (c : ℕ) : HubHappening → Option MailboxEvent
  | .subscribed d => if d = c then some .subscribe else none
  | .unsubscribed d => if d = c then some .unsubscribe else none
  | .published _ => some .publish
  | .failed => some .fail
  | .locked => some .lock
  | .delivered d _ => if d = c then some .deliver else none
  | .unlocked => some .unlock
  | .took d _ => if d = c then some .take else none

/-- What the mailbox of `c` sees of a run, in the order in which it happens. -/
def schedule (c : ℕ) (log : List HubHappening) : List MailboxEvent :=
  (log.filterMap (HubHappening.forMailbox c)).reverse

/-- What is newest happens last. -/
theorem schedule_cons (c : ℕ) (x : HubHappening) (log : List HubHappening) :
    schedule c (x :: log) = schedule c log ++ (x.forMailbox c).toList := by
  rw [schedule, List.filterMap_cons]
  rcases x.forMailbox c with - | e
  · exact (List.append_nil _).symm
  · exact List.reverse_cons

/-! ### The invariant -/

/-- What holds of consumer `c` and the log after any run. -/
structure Kept (c : ℕ) (v : HubView) (number : ℕ → ℕ) (published : ℕ) (log : List HubHappening) :
    Prop where
  nodup_live : v.live.Nodup
  nodup_rest : v.publisher.rest.Nodup
  rest_subset : ∀ d ∈ v.publisher.rest, d ∈ v.linked
  /-- The frame of the publish under way has the latest number. -/
  current : ∀ frame, v.publisher.frame? = some frame → number frame + 1 = published
  /-- What is in the mailbox is what is pending. -/
  slot_eq : c ∈ v.live → (v.slot c).map number = pendingFor c log
  takes_pending : TakesPending c log
  /-- What the consumer has in its hands was returned to it. -/
  hands : ∀ frame, (c, frame) ∈ v.taken → some (number frame) ∈ takes c log
  delivered_lt : ∀ n ∈ deliveries c log, n < published
  /-- The publish under way has not delivered to `c` when it still has to. -/
  undelivered : (∃ frame, v.publisher = .filled frame) ∨ c ∈ v.publisher.rest →
    ∀ n ∈ deliveries c log, n + 1 < published
  increasing : (deliveries c log).Pairwise (· > ·)
  /-- The mailbox machine has come to the same. -/
  mailbox : Run.exec Mailbox.step Mailbox.new (schedule c log) =
    some ⟨decide (c ∈ v.linked), pendingFor c log, published, decide (c ∈ v.publisher.rest), takes c log⟩

variable {c : ℕ} {v v' : HubView} {number : ℕ → ℕ} {published : ℕ} {log : List HubHappening}

/-- A take returns what is in the mailbox. -/
theorem returned_take {hub hub' : FrameHub} {d : ℕ} (hs : hubStep hub (.take d) = some hub') :
    (HubEvent.take d).returned hub = hub.view.slot d := by
  rw [HubEvent.returned, frameHubTake, if_neg (not_not.2 (eq_of_frameHubTake hs).1)]
  rfl

/-- Another happening than a take of `c` leaves the takes of `c` as they are. -/
theorem TakesPending.cons (h : TakesPending c log) {x : HubHappening}
    (hx : ∀ result, x = .took c result → result = pendingFor c log) : TakesPending c (x :: log) := by
  intro newer older result he
  cases newer with
  | nil =>
    obtain ⟨rfl, rfl⟩ := List.cons.inj he
    exact hx result rfl
  | cons y newer => exact h newer older result (List.cons.inj he).2

/-- Nothing has happened, and nothing is kept. -/
theorem kept_start {hub : FrameHub} {bufferCapacity poolCount : ℕ}
    (h : frameHubCreate bufferCapacity poolCount = some hub) :
    Kept c hub.view (fun _ ↦ 0) 0 [] := by
  obtain ⟨pool, -, rfl⟩ := Option.map_eq_some_iff.1 h
  exact {
    nodup_live := List.nodup_nil
    nodup_rest := List.nodup_nil
    rest_subset := nofun
    current := nofun
    slot_eq := fun _ ↦ rfl
    takes_pending := fun newer older result he ↦ by
      have := congrArg List.length he
      simp at this
    hands := nofun
    delivered_lt := nofun
    undelivered := fun _ ↦ nofun
    increasing := List.Pairwise.nil
    mailbox := rfl }

/-- A happening that concerns `c` moves its mailbox. -/
theorem Kept.mailbox_snoc (h : Kept c v number published log) {x : HubHappening} {ev : MailboxEvent}
    (hx : x.forMailbox c = some ev) {m : Mailbox}
    (hstep : Mailbox.step ⟨decide (c ∈ v.linked), pendingFor c log, published,
      decide (c ∈ v.publisher.rest), takes c log⟩ ev = some m) :
    Run.exec Mailbox.step Mailbox.new (schedule c (x :: log)) = some m := by
  rw [schedule_cons, hx]
  exact Run.exec_snoc h.mailbox hstep

/-- A happening that concerns another consumer does not. -/
theorem schedule_cons_of_none {x : HubHappening} (hx : x.forMailbox c = none) :
    schedule c (x :: log) = schedule c log := by
  rw [schedule_cons, hx]
  exact List.append_nil _

/-- A new mailbox is empty. -/
theorem kept_subscribe (h : Kept c v number published log) {d : ℕ}
    (hlock : v.publisher.locked = false) (hfresh : d ∉ v.live) :
    Kept c { v with linked := d :: v.linked, slot := Function.update v.slot d none } number published
      (.subscribed d :: log) := by
  have hrest : v.publisher.rest = [] := Publisher.rest_eq_nil hlock
  refine {
    nodup_live := List.nodup_cons.2 ⟨hfresh, h.nodup_live⟩
    nodup_rest := h.nodup_rest
    rest_subset := fun i hi ↦ List.mem_cons_of_mem d (h.rest_subset i hi)
    current := h.current
    slot_eq := fun hc ↦ ?_
    takes_pending := h.takes_pending.cons nofun
    hands := h.hands
    delivered_lt := h.delivered_lt
    undelivered := h.undelivered
    increasing := h.increasing
    mailbox := ?_ }
  -- This consumer begins with an empty mailbox; another one does not matter.
  · rcases eq_or_ne d c with rfl | hd
    · simp [pendingFor]
    · have hc : c ∈ v.live := (List.mem_cons.1 hc).resolve_left hd.symm
      rw [pendingFor, if_neg hd, ← h.slot_eq hc]
      exact congrArg (Option.map number) (Function.update_of_ne hd.symm none v.slot)
  · rcases eq_or_ne d c with rfl | hd
    · refine h.mailbox_snoc (x := .subscribed d) (if_pos rfl) ?_
      simp [Mailbox.step, pendingFor, hrest, takes]
    · rw [schedule_cons_of_none (x := .subscribed d) (if_neg hd), h.mailbox]
      simp [pendingFor, hd, hd.symm, takes]

/-- An unlinked mailbox keeps what it has. -/
theorem kept_unsubscribe (h : Kept c v number published log) {d : ℕ} (hlinked : d ∈ v.linked)
    (hlock : v.publisher.locked = false) :
    Kept c { v with linked := v.linked.erase d, unlinked := d :: v.unlinked } number published
      (.unsubscribed d :: log) := by
  have hrest : v.publisher.rest = [] := Publisher.rest_eq_nil hlock
  -- The consumer is still live, in the other of the two lists.
  have hperm : v.live.Perm (v.linked.erase d ++ d :: v.unlinked) := perm_unlink hlinked
  have hnot : d ∉ v.linked.erase d := fun hd ↦
    List.disjoint_of_nodup_append (hperm.nodup_iff.1 h.nodup_live) hd List.mem_cons_self
  refine {
    nodup_live := hperm.nodup_iff.1 h.nodup_live
    nodup_rest := h.nodup_rest
    rest_subset := fun i hi ↦ absurd (hrest ▸ hi) List.not_mem_nil
    current := h.current
    slot_eq := fun hc ↦ h.slot_eq (hperm.mem_iff.2 hc)
    takes_pending := h.takes_pending.cons nofun
    hands := h.hands
    delivered_lt := h.delivered_lt
    undelivered := h.undelivered
    increasing := h.increasing
    mailbox := ?_ }
  rcases eq_or_ne d c with rfl | hd
  · refine h.mailbox_snoc (x := .unsubscribed d) (if_pos rfl) ?_
    simp [Mailbox.step, pendingFor, takes, hnot]
  · rw [schedule_cons_of_none (x := .unsubscribed d) (if_neg hd), h.mailbox]
    simp [pendingFor, takes, List.mem_erase_of_ne hd.symm]

/-- What is in a mailbox when it is freed is gone. -/
theorem kept_free (h : Kept c v number published log) {d : ℕ} (hunlinked : d ∈ v.unlinked) :
    Kept c { v with slot := Function.update v.slot d none, unlinked := v.unlinked.erase d } number
      published log := by
  have hperm : v.live.Perm (d :: (v.linked ++ v.unlinked.erase d)) := perm_free hunlinked
  obtain ⟨hnot, hnodup⟩ := List.nodup_cons.1 (hperm.nodup_iff.1 h.nodup_live)
  refine { h with nodup_live := hnodup, slot_eq := fun hc ↦ ?_ }
  have hne : c ≠ d := fun he ↦ hnot (he ▸ hc)
  rw [← h.slot_eq (hperm.mem_iff.2 (List.mem_cons_of_mem d hc))]
  exact congrArg (Option.map number) (Function.update_of_ne hne none v.slot)

/-- A frame that is filled is in no mailbox yet. -/
theorem kept_fill (h : Kept c v number published log) {frame : ℕ} (hidle : v.publisher = .idle)
    (hunheld : v.Unheld frame) :
    Kept c { v with publisher := .filled frame } (Function.update number frame published)
      (published + 1) (.published published :: log) := by
  refine {
    nodup_live := h.nodup_live
    nodup_rest := List.nodup_nil
    rest_subset := nofun
    current := fun i hi ↦ ?_
    slot_eq := fun hc ↦ ?_
    takes_pending := h.takes_pending.cons nofun
    hands := fun i hi ↦ ?_
    delivered_lt := fun n hn ↦ Nat.lt_succ_of_lt (h.delivered_lt n hn)
    undelivered := fun _ n hn ↦ Nat.succ_lt_succ (h.delivered_lt n hn)
    increasing := h.increasing
    mailbox := h.mailbox_snoc (x := .published published) rfl ?_ }
  · obtain rfl := Option.some.inj hi
    rw [Function.update_self]
  · -- The buffer that gets the new number is in nobody's mailbox.
    have hslot : (v.slot c).map (Function.update number frame published) = (v.slot c).map number := by
      rcases hs : v.slot c with - | i
      · rfl
      · have hne : i ≠ frame := fun he ↦ hunheld.slot_ne c hc (he ▸ hs)
        exact congrArg some (Function.update_of_ne hne published number)
    exact hslot.trans (h.slot_eq hc)
  · -- Nor in anybody's hands.
    have hne : i ≠ frame := fun he ↦ hunheld.taken_ne c (he ▸ hi)
    rw [Function.update_of_ne hne]
    exact h.hands i hi
  · rw [hidle]
    rfl

/-- The deliveries begin. -/
theorem kept_lock (h : Kept c v number published log) {frame : ℕ}
    (hfilled : v.publisher = .filled frame) :
    Kept c { v with publisher := .delivering frame v.linked } number published (.locked :: log) := by
  have hnodup : v.linked.Nodup := (List.nodup_append.1 h.nodup_live).1
  exact {
    nodup_live := h.nodup_live
    nodup_rest := hnodup
    rest_subset := fun d hd ↦ hd
    current := fun i hi ↦ h.current i (hfilled ▸ hi)
    slot_eq := h.slot_eq
    takes_pending := h.takes_pending.cons nofun
    hands := h.hands
    delivered_lt := h.delivered_lt
    undelivered := fun _ ↦ h.undelivered (Or.inl ⟨frame, hfilled⟩)
    increasing := h.increasing
    mailbox := h.mailbox_snoc (x := .locked) rfl rfl }

/-- The delivery to `c` itself: the loop does not come back to it. -/
theorem kept_deliver_self (h : Kept c v number published log) {frame : ℕ} {rest : List ℕ}
    (hloop : v.publisher = .delivering frame (c :: rest)) :
    Kept c { v with
        slot := Function.update v.slot c (some frame)
        publisher := .delivering frame rest } number published
      (.delivered c (number frame) :: log) := by
  have hrest : v.publisher.rest = c :: rest := by rw [hloop]; rfl
  have hcurrent : number frame + 1 = published := h.current frame (by rw [hloop]; rfl)
  obtain ⟨hnot, hnodup⟩ := List.nodup_cons.1 (hrest ▸ h.nodup_rest)
  have hdeliveries : deliveries c (.delivered c (number frame) :: log) =
      number frame :: deliveries c log := by
    simp [deliveries]
  -- Nothing from this publish has been delivered here, so what was delivered is older.
  have hold (n : ℕ) (hn : n ∈ deliveries c log) : n < number frame := by
    have := h.undelivered (Or.inr (hrest ▸ List.mem_cons_self)) n hn
    omega
  refine {
    nodup_live := h.nodup_live
    nodup_rest := hnodup
    rest_subset := fun i hi ↦ h.rest_subset i (hrest ▸ List.mem_cons_of_mem c hi)
    current := fun i hi ↦ h.current i (by rw [hloop]; exact hi)
    slot_eq := fun _ ↦ ?_
    takes_pending := h.takes_pending.cons nofun
    hands := h.hands
    delivered_lt := fun n hn ↦ ?_
    undelivered := fun hdue ↦ ?_
    increasing := ?_
    mailbox := h.mailbox_snoc (x := .delivered c (number frame)) (if_pos rfl) ?_ }
  · rw [pendingFor, if_pos rfl]
    exact congrArg (Option.map number) (Function.update_self c (some frame) v.slot)
  · rw [hdeliveries] at hn
    rcases List.mem_cons.1 hn with rfl | hn
    · omega
    · exact h.delivered_lt n hn
  · rcases hdue with ⟨i, hi⟩ | hmem
    · exact nomatch hi
    · exact absurd hmem hnot
  · rw [hdeliveries]
    exact List.pairwise_cons.2 ⟨hold, h.increasing⟩
  · have hlinked : c ∈ v.linked := h.rest_subset c (hrest ▸ List.mem_cons_self)
    have hnumber : published - 1 = number frame := by omega
    simp [Mailbox.step, hloop, hlinked, hnot, hnumber, pendingFor, takes, Publisher.rest]

/-- A delivery to another consumer. -/
theorem kept_deliver_of_ne (h : Kept c v number published log) {frame d : ℕ} {rest : List ℕ}
    (hd : d ≠ c) (hloop : v.publisher = .delivering frame (d :: rest)) :
    Kept c { v with
        slot := Function.update v.slot d (some frame)
        publisher := .delivering frame rest } number published
      (.delivered d (number frame) :: log) := by
  have hrest : v.publisher.rest = d :: rest := by rw [hloop]; rfl
  have hdeliveries : deliveries c (.delivered d (number frame) :: log) = deliveries c log := by
    simp [deliveries, hd]
  refine {
    nodup_live := h.nodup_live
    nodup_rest := (List.nodup_cons.1 (hrest ▸ h.nodup_rest)).2
    rest_subset := fun i hi ↦ h.rest_subset i (hrest ▸ List.mem_cons_of_mem d hi)
    current := fun i hi ↦ h.current i (by rw [hloop]; exact hi)
    slot_eq := fun hc ↦ ?_
    takes_pending := h.takes_pending.cons nofun
    hands := h.hands
    delivered_lt := hdeliveries ▸ h.delivered_lt
    undelivered := fun hdue ↦ ?_
    increasing := hdeliveries ▸ h.increasing
    mailbox := ?_ }
  · rw [pendingFor, if_neg hd, ← h.slot_eq hc]
    exact congrArg (Option.map number) (Function.update_of_ne hd.symm (some frame) v.slot)
  · rw [hdeliveries]
    rcases hdue with ⟨i, hi⟩ | hmem
    · exact nomatch hi
    · exact h.undelivered (Or.inr (hrest ▸ List.mem_cons_of_mem d hmem))
  -- A delivery elsewhere changes nothing here, nor whether this mailbox still waits.
  · have hdue : decide (c ∈ v.publisher.rest) = decide (c ∈ rest) := by
      rw [decide_eq_decide, hrest, List.mem_cons, or_iff_right hd.symm]
    rw [schedule_cons_of_none (x := .delivered d (number frame)) (if_neg hd), h.mailbox, hdue]
    simp only [pendingFor, hd, if_false, takes, List.filterMap_cons]
    rfl

/-- A delivery, to this consumer or to another. -/
theorem kept_deliver (h : Kept c v number published log) {frame d : ℕ} {rest : List ℕ}
    (hloop : v.publisher = .delivering frame (d :: rest)) :
    Kept c { v with
        slot := Function.update v.slot d (some frame)
        publisher := .delivering frame rest } number published
      (.delivered d (number frame) :: log) := by
  rcases eq_or_ne d c with rfl | hd
  · exact kept_deliver_self h hloop
  · exact kept_deliver_of_ne h hd hloop

/-- The deliveries are done: whoever was linked has the frame. -/
theorem kept_unlock (h : Kept c v number published log) {frame : ℕ}
    (hloop : v.publisher = .delivering frame []) :
    Kept c { v with publisher := .delivered frame } number published (.unlocked :: log) := by
  have hnot : c ∉ v.publisher.rest := by
    rw [hloop]
    exact List.not_mem_nil
  refine {
    nodup_live := h.nodup_live
    nodup_rest := List.nodup_nil
    rest_subset := nofun
    current := fun i hi ↦ h.current i (by rw [hloop]; exact hi)
    slot_eq := h.slot_eq
    takes_pending := h.takes_pending.cons nofun
    hands := h.hands
    delivered_lt := h.delivered_lt
    undelivered := fun hdue ↦ hdue.elim (fun ⟨_, hi⟩ ↦ nomatch hi) fun hmem ↦ absurd hmem List.not_mem_nil
    increasing := h.increasing
    mailbox := h.mailbox_snoc (x := .unlocked) rfl ?_ }
  rw [decide_eq_false hnot]
  rfl

/-- Between its last step in the loop and its return a publish changes nothing a consumer sees. -/
theorem kept_finish (h : Kept c v number published log) {frame : ℕ}
    (hdelivered : v.publisher = .delivered frame) :
    Kept c { v with publisher := .idle } number published log := by
  refine { h with
    nodup_rest := List.nodup_nil
    rest_subset := nofun
    current := nofun
    undelivered := fun hdue ↦ hdue.elim (fun ⟨_, hi⟩ ↦ nomatch hi) fun hmem ↦ absurd hmem List.not_mem_nil
    mailbox := ?_ }
  rw [h.mailbox, hdelivered]
  rfl

/-- A failed publish is seen as such, and changes nothing. -/
theorem kept_fail (h : Kept c v number published log) : Kept c v number published (.failed :: log) :=
  { h with
    takes_pending := h.takes_pending.cons nofun
    mailbox := h.mailbox_snoc (x := .failed) rfl rfl }

/-- A take empties the mailbox, and returns what was in it. -/
theorem kept_took (h : Kept c v number published log) {d : ℕ} (hlive : d ∈ v.live) :
    Kept c { v with
        slot := Function.update v.slot d none
        taken := (v.slot d).toList.map (d, ·) ++ v.taken } number published
      (.took d ((v.slot d).map number) :: log) := by
  rcases eq_or_ne d c with rfl | hd
  · have hslot : (v.slot d).map number = pendingFor d log := h.slot_eq hlive
    have htakes : takes d (.took d ((v.slot d).map number) :: log) = (v.slot d).map number :: takes d log := by
      simp [takes]
    refine { h with
      slot_eq := fun _ ↦ ?_
      takes_pending := h.takes_pending.cons fun result he ↦ ?_
      hands := fun i hi ↦ ?_
      mailbox := h.mailbox_snoc (x := .took d ((v.slot d).map number)) (if_pos rfl) ?_ }
    · rw [pendingFor, if_pos rfl]
      exact congrArg (Option.map number) (Function.update_self d none v.slot)
    · exact (HubHappening.took.inj he).2.symm.trans hslot
    · rw [htakes]
      rcases List.mem_append.1 hi with hi | hi
      · -- The frame just returned.
        obtain ⟨frame, hframe, heq⟩ := List.mem_map.1 hi
        obtain rfl := (Prod.mk.inj heq).2
        rw [Option.mem_toList.1 hframe]
        exact List.mem_cons_self
      · exact List.mem_cons_of_mem _ (h.hands i hi)
    · simp [Mailbox.step, pendingFor, takes, hslot]
  · refine { h with
      slot_eq := fun hc ↦ ?_
      takes_pending := h.takes_pending.cons fun result he ↦ absurd (HubHappening.took.inj he).1 hd
      hands := fun i hi ↦ ?_
      mailbox := ?_ }
    · rw [pendingFor, if_neg hd, ← h.slot_eq hc]
      exact congrArg (Option.map number) (Function.update_of_ne hd.symm none v.slot)
    · have htakes : takes c (.took d ((v.slot d).map number) :: log) = takes c log := by
        simp [takes, hd]
      rw [htakes]
      refine h.hands i ((List.mem_append.1 hi).resolve_left fun hi ↦ ?_)
      obtain ⟨frame, _, heq⟩ := List.mem_map.1 hi
      exact hd (Prod.mk.inj heq).1
    · rw [schedule_cons_of_none (x := .took d ((v.slot d).map number)) (if_neg hd), h.mailbox]
      simp [pendingFor, hd, takes]

/-- **One step keeps the invariant.** -/
theorem kept_tracedStep {n : ℕ} {t t' : HubTrace} {e : HubEvent} (hacc : t.hub.Accounted n)
    (h : Kept c t.hub.view t.number t.published t.log) (hs : tracedStep t e = some t') :
    t'.hub.Accounted n ∧ Kept c t'.hub.view t'.number t'.published t'.log := by
  obtain ⟨hub', hhub, rfl⟩ := Option.map_eq_some_iff.1 hs
  refine ⟨accounted_hubStep hacc hhub, ?_⟩
  have hstep := view_hubStep hacc hhub
  have hreturned : ∀ d, e = .take d → e.returned t.hub = t.hub.view.slot d := by
    rintro d rfl
    exact returned_take hhub
  show Kept c hub'.view _ _ _
  rw [show hub'.publisher = hub'.view.publisher from rfl]
  -- From here on only the view, and what a take has returned.
  generalize e.returned t.hub = returned at hreturned ⊢
  generalize hub'.view = v' at hstep ⊢
  generalize t.hub.view = v at h hstep hreturned ⊢
  cases hstep with
  | subscribe hlock hfresh => exact kept_subscribe h hlock hfresh
  | unsubscribe hlock hlinked => exact kept_unsubscribe h hlinked hlock
  | free hunlinked => exact kept_free h hunlinked
  | fail hidle =>
    rw [HubView.happening, hidle]
    exact kept_fail h
  | fill hidle hunheld => exact kept_fill h hidle hunheld
  | lock hfilled =>
    rw [HubView.happening, hfilled]
    exact kept_lock h hfilled
  | deliver hloop =>
    rw [HubView.happening, hloop]
    exact kept_deliver h hloop
  | unlock hloop =>
    rw [HubView.happening, hloop]
    exact kept_unlock h hloop
  | finish hdelivered =>
    rw [HubView.happening, hdelivered]
    exact kept_finish h hdelivered
  | @miss d hlive hempty =>
    have := kept_took h hlive
    rw [update_slot_none hempty, hempty] at this
    rw [HubView.happening, hreturned d rfl, hempty]
    exact this
  | @take d frame hlive hslot =>
    have := kept_took h hlive
    rw [hslot] at this
    rw [HubView.happening, hreturned d rfl, hslot]
    exact this
  | release htaken => exact { h with hands := fun i hi ↦ h.hands i (List.mem_of_mem_erase hi) }

/-- By induction on the run. -/
theorem kept_of_run {bufferCapacity poolCount : ℕ} {hub₀ : FrameHub} {es : List HubEvent}
    {t : HubTrace} (c : ℕ) (hcreate : frameHubCreate bufferCapacity poolCount = some hub₀)
    (hrun : Run.exec tracedStep (HubTrace.start hub₀) es = some t) :
    Kept c t.hub.view t.number t.published t.log :=
  (Run.exec_invariant
    (P := fun t ↦ t.hub.Accounted poolCount ∧ Kept c t.hub.view t.number t.published t.log)
    (fun _ _ _ h hs ↦ kept_tracedStep h.1 h.2 hs)
    ⟨accounted_frameHubCreate hcreate, kept_start hcreate⟩ hrun).2

/-! ### What a consumer receives -/

/-- **Keep-newest mailboxes.** After any run of a hub, for every consumer `c`:

* the publish numbers of the frames it took increase, so none was taken twice;
* each take returned what was delivered last since the subscription, unless it was taken already, and
  `NULL` when there was no such delivery;
* what it has in its hands was returned by its takes;
* the hub is a single mailbox to it, which delivers every publish to it once, if it is linked then;
* in every other run, of any hub, that its mailbox sees as the same, it receives the same. Other
  consumers are not part of what the mailbox sees; all they can do is to exhaust the pool, so that a
  publish fails. -/
theorem keepNewest_of_run {bufferCapacity poolCount : ℕ} {hub₀ : FrameHub} {es : List HubEvent}
    {t : HubTrace} (c : ℕ) (hcreate : frameHubCreate bufferCapacity poolCount = some hub₀)
    (hrun : Run.exec tracedStep (HubTrace.start hub₀) es = some t) :
    (takes c t.log).reduceOption.Pairwise (· > ·) ∧
    TakesPending c t.log ∧
    (∀ frame, (c, frame) ∈ t.hub.taken → some (t.number frame) ∈ takes c t.log) ∧
    (∃ m, Run.exec Mailbox.step Mailbox.new (schedule c t.log) = some m ∧
      m.received = takes c t.log) ∧
    ∀ {bufferCapacity' poolCount' : ℕ} {hub₀' : FrameHub} {es' : List HubEvent} {t' : HubTrace},
      frameHubCreate bufferCapacity' poolCount' = some hub₀' →
      Run.exec tracedStep (HubTrace.start hub₀') es' = some t' →
      schedule c t'.log = schedule c t.log → takes c t'.log = takes c t.log := by
  have h := kept_of_run c hcreate hrun
  refine ⟨?_, h.takes_pending, h.hands, ⟨_, h.mailbox, rfl⟩, fun hcreate' hrun' hsame ↦ ?_⟩
  · have hsub := takes_sublist_deliveries h.takes_pending
    exact h.increasing.sublist ((List.sublist_append_right _ _).trans hsub)
  · have h' := (kept_of_run c hcreate' hrun').mailbox
    rw [hsame, h.mailbox] at h'
    exact (congrArg Mailbox.received (Option.some.inj h')).symm

/-- Two publishes to two consumers, and two takes of one of them. -/
def sampleDeliveries : List HubEvent :=
  let info : FrameInfo := ⟨[1, 2, 3], 1, 1, 0, 3, 0, 0⟩
  let publish := .publish info :: List.replicate 5 .publishNext
  [.subscribe 7, .subscribe 9] ++ publish ++ publish ++ [.take 7, .take 7]

/-- The first take jumps to the newest frame, the second finds nothing. -/
theorem keepNewest_of_run_sample : ∃ hub₀ t,
    frameHubCreate 4 3 = some hub₀ ∧
    Run.exec tracedStep (HubTrace.start hub₀) sampleDeliveries = some t ∧
    takes 7 t.log = [none, some 1] ∧ TakesPending 7 t.log := by
  have heval : ((frameHubCreate 4 3).bind fun hub₀ ↦
      (Run.exec tracedStep (HubTrace.start hub₀) sampleDeliveries).map fun t ↦ takes 7 t.log) =
        some [none, some 1] := by decide
  obtain ⟨hub₀, hcreate, heval⟩ := Option.bind_eq_some_iff.1 heval
  obtain ⟨t, hrun, htakes⟩ := Option.map_eq_some_iff.1 heval
  exact ⟨hub₀, t, hcreate, hrun, htakes, (keepNewest_of_run 7 hcreate hrun).2.1⟩

end Camstream
