import Camstream.Media.Isolation
import Camstream.Media.Mailboxes

/-!
# How many frames the hub needs

A consumer that holds at most one frame at a time can occupy two: the one it works on and the one in its
mailbox. But between publishes all mailboxes that are not empty hold the same frame, the newest, so `K`
consumers occupy at most `K + 1` frames when the next publish acquires its own: with `K + 2` frames no
publish ever fails. With `K + 1` one can: let every consumer take another frame, and fill the mailboxes
again.

A consumer counts until `frame_hub_unsubscribe` has returned, because up to then the frame in its mailbox
is occupied.
-/

namespace Camstream

/-! ### Consumers that hold one frame -/

/-- What the worker threads do: no more than `K` consumers exist, and a consumer takes a frame, or
unsubscribes, only when it has released the one it took. A consumer that unsubscribes takes no more. -/
def HubView.Allows (K : ℕ) (v : HubView) : HubEvent → Prop
  | .subscribe _ => v.live.length < K
  | .unsubscribe c => c ∉ v.taken.map Prod.fst
  | .take c => c ∈ v.linked ∧ c ∉ v.taken.map Prod.fst
  | _ => True

instance (K : ℕ) (v : HubView) (e : HubEvent) : Decidable (v.Allows K e) :=
  match e with
  | .subscribe _ => inferInstanceAs (Decidable (v.live.length < K))
  | .unsubscribe c => inferInstanceAs (Decidable (c ∉ v.taken.map Prod.fst))
  | .take c => inferInstanceAs (Decidable (c ∈ v.linked ∧ c ∉ v.taken.map Prod.fst))
  | .free _ | .publish _ | .publishNext | .release _ _ => inferInstanceAs (Decidable True)

/-- The hub with such consumers. -/
def workerStep (K : ℕ) (hub : FrameHub) (e : HubEvent) : Option FrameHub :=
  if hub.view.Allows K e then hubStep hub e else none

variable {K n : ℕ} {hub hub' : FrameHub} {e : HubEvent}

/-- A step of the frugal system is a step of the hub that is allowed. -/
theorem workerStep_eq_some : workerStep K hub e = some hub' ↔
    hub.view.Allows K e ∧ hubStep hub e = some hub' := by
  rw [workerStep]
  split_ifs with h
  · rw [and_iff_right h]
  · exact iff_of_false nofun fun he ↦ h he.1

/-! ### Counting the frames that are held -/

/-- A frame is referenced if somebody has it: a mailbox, a consumer or the producer. -/
theorem references_pos_iff {i : ℕ} : 0 < hub.references i ↔
    (∃ c ∈ hub.live, (hub.consumer c).slot = some i) ∨ (∃ c, (c, i) ∈ hub.taken) ∨
      hub.publisher.frame? = some i := by
  have hmail : 0 < hub.mailboxes i ↔ ∃ c ∈ hub.live, (hub.consumer c).slot = some i := by
    rw [FrameHub.mailboxes, mailboxHolders, List.countP_pos_iff]
    simp only [decide_eq_true_eq]
  have hout : 0 < hub.outstanding i ↔ ∃ c, (c, i) ∈ hub.taken := by
    rw [FrameHub.outstanding, List.countP_pos_iff]
    constructor
    · rintro ⟨⟨c, j⟩, hmem, hj⟩
      obtain rfl : j = i := of_decide_eq_true hj
      exact ⟨c, hmem⟩
    · rintro ⟨c, hmem⟩
      exact ⟨(c, i), hmem, decide_eq_true rfl⟩
  have hpub : 0 < hub.published i ↔ hub.publisher.frame? = some i := by
    rw [FrameHub.published]
    split_ifs with h
    · exact iff_of_true Nat.one_pos h
    · exact iff_of_false (Nat.lt_irrefl 0) h
  rw [← hmail, ← hout, ← hpub, FrameHub.references]
  omega

/-- A frame can be had when fewer frames are held than can be used. -/
theorem exists_framePoolAcquire_of_held (h : hub.Accounted n) {l : List ℕ}
    (hl : ∀ i, 0 < hub.references i → i ∈ l) (hlen : l.length < usableFrames n) :
    ∃ i pool, framePoolAcquire hub.pool = .frame i pool := by
  obtain ⟨a, ha, href⟩ := h.represents
  refine exists_framePoolAcquire ha fun hnil ↦ ?_
  have hnone : Finset.range (usableFrames n) \ a.refs.toFinset = ∅ := by
    rw [← Finset.card_eq_zero, ← a.length_free, hnil, List.length_nil]
  rw [Finset.sdiff_eq_empty_iff_subset] at hnone
  have hsub : Finset.range (usableFrames n) ⊆ l.toFinset := fun i hi ↦ by
    rw [List.mem_toFinset]
    refine hl i ?_
    rw [← href, Multiset.count_pos]
    exact Multiset.mem_toFinset.1 (hnone hi)
  have hcard := (Finset.card_le_card hsub).trans (List.toFinset_card_le l)
  rw [Finset.card_range] at hcard
  omega

/-- The pool is exhausted when as many frames as it has are held. -/
theorem freeCount_eq_zero (h : hub.Accounted n) (hall : usableFrames n = n) {l : List ℕ} (hnodup : l.Nodup)
    (hl : ∀ i ∈ l, 0 < hub.references i) (hlen : n ≤ l.length) : hub.pool.freeCount = 0 := by
  obtain ⟨a, ha, href⟩ := h.represents
  have hsub : l.toFinset ⊆ a.refs.toFinset ∩ Finset.range (usableFrames n) := fun i hi ↦ by
    have hmem : i ∈ a.refs := by
      rw [← Multiset.count_pos, href]
      exact hl i (List.mem_toFinset.1 hi)
    exact Finset.mem_inter.2 ⟨Multiset.mem_toFinset.2 hmem, a.refs_subset i hmem⟩
  have hcard : (Finset.range (usableFrames n)).card ≤
      (a.refs.toFinset ∩ Finset.range (usableFrames n)).card := by
    rw [Finset.card_range]
    refine (hall.trans_le hlen).trans ?_
    rw [← List.toFinset_card_of_nodup hnodup]
    exact Finset.card_le_card hsub
  have hfree : a.free.length = 0 := by
    rw [a.length_free, Finset.card_eq_zero, Finset.sdiff_eq_empty_iff_subset]
    intro i hi
    have hinter := Finset.eq_of_subset_of_card_le Finset.inter_subset_right hcard
    exact (Finset.mem_inter.1 ((Finset.ext_iff.1 hinter i).2 hi)).1
  have hcount := ha.freeCount_eq
  omega

/-! ### The invariant -/

/-- At most `K` consumers hold at most one frame each, and the mailboxes the producer has no more to
visit hold one frame among them. -/
structure HubView.Frugal (K : ℕ) (v : HubView) : Prop where
  nodup_live : v.live.Nodup
  length_live : v.live.length ≤ K
  nodup_takers : (v.taken.map Prod.fst).Nodup
  takers : ∀ c ∈ v.taken.map Prod.fst, c ∈ v.linked
  newest : ∃ i, (∀ frame rest, v.publisher = .delivering frame rest → i = frame) ∧
    ∀ c ∈ v.linked, c ∉ v.publisher.rest → ∀ frame, v.slot c = some frame → frame = i

/-- **One step keeps the invariant.** -/
theorem frugal_step {v v' : HubView} (h : v.Frugal K) (hallows : v.Allows K e)
    (hstep : v.Step e v') : v'.Frugal K := by
  obtain ⟨i, hframe, hslots⟩ := h.newest
  cases hstep with
  | @subscribe c hlock hfresh =>
    refine ⟨List.nodup_cons.2 ⟨hfresh, h.nodup_live⟩, hallows, h.nodup_takers,
      fun d hd ↦ List.mem_cons_of_mem c (h.takers d hd), i, hframe, fun d hd hrest frame hslot ↦ ?_⟩
    -- The new mailbox is empty.
    rcases eq_or_ne d c with rfl | hne
    · exact absurd ((Function.update_self d none v.slot).symm.trans hslot) nofun
    · refine hslots d ((List.mem_cons.1 hd).resolve_left hne) hrest frame ?_
      exact (Function.update_of_ne hne none v.slot).symm.trans hslot
  | @unsubscribe c hlock hlinked =>
    have hperm : v.live.Perm (v.linked.erase c ++ c :: v.unlinked) := perm_unlink hlinked
    refine ⟨hperm.nodup_iff.1 h.nodup_live, hperm.length_eq ▸ h.length_live, h.nodup_takers,
      fun d hd ↦ ?_, i, hframe, fun d hd ↦ hslots d (List.mem_of_mem_erase hd)⟩
    have hne : d ≠ c := fun he ↦ hallows (he ▸ hd)
    exact (List.mem_erase_of_ne hne).2 (h.takers d hd)
  | @free c hunlinked =>
    have hsub : (v.linked ++ v.unlinked.erase c).Sublist v.live :=
      List.erase_sublist.append_left v.linked
    refine ⟨h.nodup_live.sublist hsub, hsub.length_le.trans h.length_live, h.nodup_takers, h.takers,
      i, hframe, fun d hd hrest frame hslot ↦ hslots d hd hrest frame ?_⟩
    have hne : d ≠ c := fun he ↦
      List.disjoint_of_nodup_append h.nodup_live (he ▸ hd) hunlinked
    exact (Function.update_of_ne hne none v.slot).symm.trans hslot
  | fail hidle => exact h
  | fill hidle hunheld =>
    refine ⟨h.nodup_live, h.length_live, h.nodup_takers, h.takers, i, nofun, fun d hd _ ↦ ?_⟩
    exact hslots d hd (by rw [hidle]; exact List.not_mem_nil)
  | @lock frame hfilled =>
    exact ⟨h.nodup_live, h.length_live, h.nodup_takers, h.takers, frame,
      fun _ _ he ↦ (Publisher.delivering.inj he).1, fun d hd hrest ↦ absurd hd hrest⟩
  | @deliver frame c rest hloop =>
    refine ⟨h.nodup_live, h.length_live, h.nodup_takers, h.takers, frame,
      fun _ _ he ↦ (Publisher.delivering.inj he).1, fun d hd hrest f hslot ↦ ?_⟩
    rcases eq_or_ne d c with rfl | hne
    · exact (Option.some.inj ((Function.update_self d _ v.slot).symm.trans hslot)).symm
    · have hold : d ∉ v.publisher.rest := by
        rw [hloop]
        exact fun hmem ↦ hrest ((List.mem_cons.1 hmem).resolve_left hne)
      rw [← hframe frame (c :: rest) hloop]
      exact hslots d hd hold f ((Function.update_of_ne hne _ v.slot).symm.trans hslot)
  | @unlock frame hloop =>
    refine ⟨h.nodup_live, h.length_live, h.nodup_takers, h.takers, i, nofun, fun d hd _ ↦ ?_⟩
    exact hslots d hd (by rw [hloop]; exact List.not_mem_nil)
  | @finish frame hdelivered =>
    refine ⟨h.nodup_live, h.length_live, h.nodup_takers, h.takers, i, nofun, fun d hd _ ↦ ?_⟩
    exact hslots d hd (by rw [hdelivered]; exact List.not_mem_nil)
  | miss hlive hempty => exact h
  | @take c frame hlive hslot =>
    refine ⟨h.nodup_live, h.length_live, List.nodup_cons.2 ⟨hallows.2, h.nodup_takers⟩, fun d hd ↦ ?_,
      i, hframe, fun d hd hrest f hf ↦ ?_⟩
    · rcases List.mem_cons.1 hd with rfl | hd
      · exact hallows.1
      · exact h.takers d hd
    · rcases eq_or_ne d c with rfl | hne
      · exact absurd ((Function.update_self d none v.slot).symm.trans hf) nofun
      · exact hslots d hd hrest f ((Function.update_of_ne hne none v.slot).symm.trans hf)
  | @release c frame htaken =>
    have hsub : ((v.taken.erase (c, frame)).map Prod.fst).Sublist (v.taken.map Prod.fst) :=
      List.erase_sublist.map Prod.fst
    exact ⟨h.nodup_live, h.length_live, h.nodup_takers.sublist hsub,
      fun d hd ↦ h.takers d (hsub.subset hd), i, hframe, hslots⟩

/-- Accounts and frugality together are kept. -/
theorem frugal_workerStep (h : hub.Accounted n ∧ hub.view.Frugal K)
    (hs : workerStep K hub e = some hub') : hub'.Accounted n ∧ hub'.view.Frugal K := by
  obtain ⟨hallows, hs⟩ := workerStep_eq_some.1 hs
  exact ⟨accounted_hubStep h.1 hs, frugal_step h.2 hallows (view_hubStep h.1 hs)⟩

theorem frugal_frameHubCreate {bufferCapacity poolCount : ℕ} (K : ℕ)
    (h : frameHubCreate bufferCapacity poolCount = some hub) :
    hub.Accounted poolCount ∧ hub.view.Frugal K := by
  refine ⟨accounted_frameHubCreate h, ?_⟩
  obtain ⟨pool, -, rfl⟩ := Option.map_eq_some_iff.1 h
  exact ⟨List.nodup_nil, Nat.zero_le K, List.nodup_nil, nofun, 0, nofun, nofun⟩

/-! ### Enough frames -/

/-- **Between publishes `K` consumers hold at most `K + 1` frames.** -/
theorem exists_held (h : hub.view.Frugal K) (hidle : hub.publisher = .idle) :
    ∃ l : List ℕ, (∀ i, 0 < hub.references i → i ∈ l) ∧ l.length ≤ K + 1 := by
  obtain ⟨newest, -, hslots⟩ := h.newest
  refine ⟨newest :: (hub.taken.map Prod.snd ++ hub.unlinked.filterMap fun c ↦ (hub.consumer c).slot),
    fun i hi ↦ ?_, ?_⟩
  · rcases references_pos_iff.1 hi with ⟨c, hc, hslot⟩ | ⟨c, hc⟩ | hpub
    · rcases List.mem_append.1 hc with hlinked | hunlinked
      · have hrest : c ∉ hub.publisher.rest := by
          rw [hidle]
          exact List.not_mem_nil
        exact hslots c hlinked hrest i hslot ▸ List.mem_cons_self
      · exact List.mem_cons_of_mem _ (List.mem_append_right _ (List.mem_filterMap.2 ⟨c, hunlinked, hslot⟩))
    · exact List.mem_cons_of_mem _ (List.mem_append_left _ (List.mem_map_of_mem (f := Prod.snd) hc))
    · rw [hidle] at hpub
      exact nomatch hpub
  · -- Every linked consumer has taken at most one frame, and an unlinked one has only its mailbox.
    have htaken : hub.taken.length ≤ hub.consumers.length := by
      rw [← List.length_map Prod.fst]
      exact (List.subperm_of_subset h.nodup_takers h.takers).length_le
    have hunlinked := List.length_filterMap_le (fun c ↦ (hub.consumer c).slot) hub.unlinked
    have hlive : hub.consumers.length + hub.unlinked.length ≤ K :=
      List.length_append.symm.trans_le h.length_live
    rw [List.length_cons, List.length_append, List.length_map]
    omega

/-! ### One frame too few -/

/-- The next step of a publish, seen from outside. -/
def HubView.next (v : HubView) : HubView :=
  match v.publisher with
  | .idle => v
  | .filled frame => { v with publisher := .delivering frame v.linked }
  | .delivering frame (c :: rest) =>
    { v with slot := Function.update v.slot c (some frame), publisher := .delivering frame rest }
  | .delivering frame [] => { v with publisher := .delivered frame }
  | .delivered _ => { v with publisher := .idle }

/-- What a delivery does is determined, -/
theorem eq_next_of_step {v v' : HubView} (h : v.Step .publishNext v') : v' = v.next := by
  cases h with
  | lock hp => rw [HubView.next, hp]
  | deliver hp => rw [HubView.next, hp]
  | unlock hp => rw [HubView.next, hp]
  | finish hp => rw [HubView.next, hp]

/-- and so is what a subscription does, -/
theorem eq_of_step_subscribe {v v' : HubView} {c : ℕ} (h : v.Step (.subscribe c) v') :
    v' = { v with linked := c :: v.linked, slot := Function.update v.slot c none } := by
  cases h
  rfl

/-- and a take from a full mailbox. -/
theorem eq_of_step_take {v v' : HubView} {c frame : ℕ} (h : v.Step (.take c) v')
    (hslot : v.slot c = some frame) :
    v' = { v with slot := Function.update v.slot c none, taken := (c, frame) :: v.taken } := by
  cases h with
  | miss _ hempty => exact nomatch hempty.symm.trans hslot
  | take _ hslot' =>
    obtain rfl := Option.some.inj (hslot'.symm.trans hslot)
    rfl

/-- A publish under way can always go on. -/
theorem exists_publishNext (K : ℕ) (h : hub.Accounted n) (hbusy : hub.publisher ≠ .idle) :
    ∃ hub', workerStep K hub .publishNext = some hub' ∧ hub'.Accounted n ∧
      hub'.view = hub.view.next := by
  have hsome : (hubStep hub .publishNext).isSome = true := by
    rw [hubStep, frameHubPublishNext]
    rcases hp : hub.publisher with - | frame | ⟨frame, _ | ⟨c, rest⟩⟩ | frame
    · exact absurd hp hbusy
    all_goals rfl
  obtain ⟨hub', hs⟩ := Option.isSome_iff_exists.1 hsome
  exact ⟨hub', workerStep_eq_some.2 ⟨trivial, hs⟩, accounted_hubStep h hs,
    eq_next_of_step (view_hubStep h hs)⟩

/-- The loop runs to its end, and fills every mailbox it visits. -/
theorem exists_delivered (K : ℕ) {frame : ℕ} {rest : List ℕ} (h : hub.Accounted n)
    (hp : hub.publisher = .delivering frame rest) :
    ∃ es hub', Run.exec (workerStep K) hub es = some hub' ∧ hub'.Accounted n ∧
      hub'.view = { hub.view with
        slot := fun c ↦ if c ∈ rest then some frame else hub.view.slot c
        publisher := .idle } := by
  have hview : hub.view.publisher = .delivering frame rest := hp
  obtain ⟨hub₁, hs₁, h₁, hview₁⟩ := exists_publishNext K h (by rw [hp]; exact nofun)
  induction rest generalizing hub hub₁ with
  | nil =>
    rw [HubView.next, hview] at hview₁
    have hp₁ : hub₁.publisher = .delivered frame := congrArg HubView.publisher hview₁
    have hbusy₁ : hub₁.publisher ≠ .idle := fun hidle₁ ↦ Publisher.noConfusion (hp₁.symm.trans hidle₁)
    obtain ⟨hub₂, hs₂, h₂, hview₂⟩ := exists_publishNext K h₁ hbusy₁
    refine ⟨_, hub₂, Run.exec_cons_of_step hs₁ (Run.exec_cons_of_step hs₂ (Run.exec_nil hub₂)),
      h₂, ?_⟩
    rw [hview₂, HubView.next, show hub₁.view.publisher = _ from hp₁, hview₁]
    simp only [List.not_mem_nil, if_false]
  | cons c rest ih =>
    rw [HubView.next, hview] at hview₁
    have hp₁ : hub₁.publisher = .delivering frame rest := congrArg HubView.publisher hview₁
    have hbusy₁ : hub₁.publisher ≠ .idle := fun hidle₁ ↦ Publisher.noConfusion (hp₁.symm.trans hidle₁)
    obtain ⟨hub₂, hs₂, h₂, hview₂⟩ := exists_publishNext K h₁ hbusy₁
    obtain ⟨es, hub', hrun, h', hend⟩ := ih h₁ hp₁ hp₁ hub₂ hs₂ h₂ hview₂
    refine ⟨_, hub', Run.exec_cons_of_step hs₁ hrun, h', ?_⟩
    rw [hend, hview₁]
    -- The mailbox just filled, and those the rest of the loop fills.
    have hslot : (fun d ↦ if d ∈ rest then some frame else
        Function.update hub.view.slot c (some frame) d) =
        fun d ↦ if d ∈ c :: rest then some frame else hub.view.slot d := by
      funext d
      rcases eq_or_ne d c with rfl | hne
      · simp
      · simp [hne]
    exact congrArg (fun slot ↦ { hub.view with slot := slot, publisher := Publisher.idle }) hslot

/-- **With a frame to be had, a publish fills every mailbox** with a frame nobody held. -/
theorem exists_published (K : ℕ) (h : hub.Accounted n) (hidle : hub.publisher = .idle)
    (hfree : ∃ i pool, framePoolAcquire hub.pool = .frame i pool) :
    ∃ es hub' i, Run.exec (workerStep K) hub es = some hub' ∧ hub'.Accounted n ∧
      hub.view.Unheld i ∧
      hub'.view = { hub.view with
        slot := fun c ↦ if c ∈ hub.consumers then some i else hub.view.slot c } := by
  let info : FrameInfo := ⟨[0], 0, 0, 0, 0, 0, 0⟩
  obtain ⟨i, pool, hacq⟩ := hfree
  obtain ⟨hub₁, hs₁, hview₁⟩ : ∃ hub₁, hubStep hub (.publish info) = some hub₁ ∧
      hub₁.view = { hub.view with publisher := .filled i } :=
    ⟨_, frameHubPublish_of_frame hidle (by decide) hacq, rfl⟩
  have h₁ := accounted_hubStep h hs₁
  have hp₁ : hub₁.publisher = .filled i := congrArg HubView.publisher hview₁
  have hbusy₁ : hub₁.publisher ≠ .idle := fun hidle₁ ↦ Publisher.noConfusion (hp₁.symm.trans hidle₁)
  obtain ⟨hub₂, hs₂, h₂, hview₂⟩ := exists_publishNext K h₁ hbusy₁
  rw [HubView.next, show hub₁.view.publisher = _ from hp₁, hview₁] at hview₂
  have hp₂ : hub₂.publisher = .delivering i hub.consumers := congrArg HubView.publisher hview₂
  obtain ⟨es, hub', hrun, h', hend⟩ := exists_delivered K h₂ hp₂
  have hw₁ : workerStep K hub (.publish info) = some hub₁ := workerStep_eq_some.2 ⟨trivial, hs₁⟩
  refine ⟨_, hub', i, Run.exec_cons_of_step hw₁ (Run.exec_cons_of_step hs₂ hrun), h',
    unheld_of_framePoolAcquire h hacq, ?_⟩
  rw [hend, hview₂]
  exact congrArg (fun p ↦ (⟨_, _, _, p, _⟩ : HubView)) hidle.symm

/-- `K` consumers can subscribe. -/
theorem exists_subscribed {capacity count : ℕ} {hub₀ : FrameHub}
    (hcreate : frameHubCreate capacity count = some hub₀) {j : ℕ} (hj : j ≤ K) :
    ∃ es hub, Run.exec (workerStep K) hub₀ es = some hub ∧ hub.Accounted count ∧
      hub.view = ⟨(List.range j).reverse, [], fun _ ↦ none, .idle, []⟩ := by
  induction j with
  | zero =>
    refine ⟨[], hub₀, rfl, accounted_frameHubCreate hcreate, ?_⟩
    obtain ⟨pool, -, rfl⟩ := Option.map_eq_some_iff.1 hcreate
    rfl
  | succ j ih =>
    obtain ⟨es, hub, hrun, h, hview⟩ := ih (Nat.le_of_succ_le hj)
    have hlive : hub.live = (List.range j).reverse := by
      rw [show hub.live = hub.view.live from rfl, hview]
      exact List.append_nil _
    have hfresh : j ∉ hub.live := by
      rw [hlive, List.mem_reverse, List.mem_range]
      exact Nat.lt_irrefl j
    have hidle : hub.publisher = .idle := congrArg HubView.publisher hview
    -- There are fewer than `K` consumers so far, so the system allows one more.
    have hallows : hub.view.Allows K (.subscribe j) := by
      show hub.live.length < K
      rw [hlive, List.length_reverse, List.length_range]
      exact hj
    obtain ⟨hub', hs⟩ : ∃ hub', hubStep hub (.subscribe j) = some hub' := by
      rw [hubStep, frameHubSubscribe, if_neg]
      · exact ⟨_, rfl⟩
      · rw [hidle]
        exact not_or.2 ⟨Bool.false_ne_true, hfresh⟩
    refine ⟨_, hub', Run.exec_snoc hrun (workerStep_eq_some.2 ⟨hallows, hs⟩), accounted_hubStep h hs, ?_⟩
    rw [eq_of_step_subscribe (view_hubStep h hs), hview, List.range_succ, List.reverse_append]
    exact congrArg (fun slot ↦ (⟨_, _, slot, _, _⟩ : HubView)) (update_slot_none rfl)

/-- `K` consumers of which the first `j` hold a frame each, all different, and no other frame is in a
mailbox. -/
structure HubView.Hoarding (K j : ℕ) (v : HubView) : Prop where
  linked_eq : v.linked = (List.range K).reverse
  unlinked_eq : v.unlinked = []
  idle : v.publisher = .idle
  takers_eq : v.taken.map Prod.fst = (List.range j).reverse
  nodup_taken : (v.taken.map Prod.snd).Nodup
  mailed : ∀ c frame, v.slot c = some frame → frame ∈ v.taken.map Prod.snd

/-- As long as the consumers hold fewer frames than there are, one can be had. -/
theorem HubView.Hoarding.exists_framePoolAcquire {j : ℕ} (hh : hub.view.Hoarding K j)
    (h : hub.Accounted n) (hj : j < usableFrames n) :
    ∃ i pool, framePoolAcquire hub.pool = .frame i pool := by
  have hlen : (hub.taken.map Prod.snd).length = j := by
    rw [List.length_map, ← List.length_map Prod.fst, show hub.taken.map _ = _ from hh.takers_eq,
      List.length_reverse, List.length_range]
  refine exists_framePoolAcquire_of_held h (fun i hi ↦ ?_) (hlen.trans_lt hj)
  rcases references_pos_iff.1 hi with ⟨c, -, hslot⟩ | ⟨c, hc⟩ | hpub
  · exact hh.mailed c i hslot
  · exact List.mem_map_of_mem (f := Prod.snd) hc
  · rw [show hub.publisher = .idle from hh.idle] at hpub
    exact nomatch hpub

/-- Consumer after consumer takes another frame. -/
theorem exists_hoarding {capacity : ℕ} {hub₀ : FrameHub}
    (hcreate : frameHubCreate capacity (K + 1) = some hub₀) (hall : usableFrames (K + 1) = K + 1) {j : ℕ}
    (hj : j ≤ K) :
    ∃ es hub, Run.exec (workerStep K) hub₀ es = some hub ∧ hub.Accounted (K + 1) ∧
      hub.view.Hoarding K j := by
  induction j with
  | zero =>
    obtain ⟨es, hub, hrun, h, hview⟩ := exists_subscribed hcreate (Nat.le_refl K)
    refine ⟨es, hub, hrun, h, ?_⟩
    rw [hview]
    exact ⟨rfl, rfl, rfl, rfl, List.nodup_nil, nofun⟩
  | succ j ih =>
    obtain ⟨es, hub, hrun, h, hh⟩ := ih (Nat.le_of_succ_le hj)
    obtain ⟨es₁, hub₁, i, hrun₁, h₁, hunheld, hview₁⟩ :=
      exists_published K h hh.idle (hh.exists_framePoolAcquire h (by omega))
    -- Consumer `j`, which has taken nothing so far, takes the new frame.
    have hlinked : hub.consumers = (List.range K).reverse := hh.linked_eq
    have hj : j ∈ hub.consumers := by
      rw [hlinked, List.mem_reverse, List.mem_range]
      exact hj
    have hview₁' : hub₁.view = ⟨hub.consumers, hub.unlinked,
        fun c ↦ if c ∈ hub.consumers then some i else hub.view.slot c, hub.publisher, hub.taken⟩ := hview₁
    have hslot : hub₁.view.slot j = some i := by
      rw [hview₁']
      exact if_pos hj
    have hallows : hub₁.view.Allows K (.take j) := by
      rw [hview₁']
      refine ⟨hj, ?_⟩
      rw [show hub.taken.map _ = _ from hh.takers_eq, List.mem_reverse, List.mem_range]
      exact Nat.lt_irrefl j
    obtain ⟨hub₂, hs⟩ : ∃ hub₂, hubStep hub₁ (.take j) = some hub₂ := by
      have hlive : j ∈ hub₁.live := by
        show j ∈ hub₁.view.live
        rw [hview₁']
        exact List.mem_append_left _ hj
      rw [hubStep, frameHubTake, if_neg (not_not.2 hlive)]
      exact ⟨_, rfl⟩
    refine ⟨_, hub₂, Run.exec_snoc (Run.exec_append hrun hrun₁) (workerStep_eq_some.2 ⟨hallows, hs⟩),
      accounted_hubStep h₁ hs, ?_⟩
    rw [eq_of_step_take (view_hubStep h₁ hs) hslot, hview₁']
    have hfresh : i ∉ hub.taken.map Prod.snd := fun hmem ↦ by
      obtain ⟨⟨c, _⟩, hc, rfl⟩ := List.mem_map.1 hmem
      exact hunheld.taken_ne c hc
    refine ⟨hlinked, hh.unlinked_eq, hh.idle, ?_, List.nodup_cons.2 ⟨hfresh, hh.nodup_taken⟩,
      fun c frame hc ↦ ?_⟩
    · rw [List.range_succ, List.reverse_append]
      exact congrArg (j :: ·) hh.takers_eq
    · have hc : Function.update (fun c ↦ if c ∈ hub.consumers then some i else hub.view.slot c) j none c =
        some frame := hc
      rcases eq_or_ne c j with rfl | hne
      · rw [Function.update_self] at hc
        exact absurd hc.symm (Option.some_ne_none _)
      · rw [Function.update_of_ne hne] at hc
        split_ifs at hc
        · exact Option.some.inj hc ▸ List.mem_cons_self
        · exact List.mem_cons_of_mem _ (hh.mailed c frame hc)

/-! ### The bound -/

/-- **`K + 2` frames are what `K` consumers need**, if there are no more than an `int` counts. With as
many no publish ever fails, whatever the consumers do in between; with one less there is a run in which
one does, at any capacity. -/
theorem publish_headroom (hK : 0 < K) :
    (∀ capacity poolCount hub₀ es hub info, K + 2 ≤ poolCount → poolCount ≤ 2 ^ 31 →
      frameHubCreate capacity poolCount = some hub₀ → Run.exec (workerStep K) hub₀ es = some hub →
      hub.publisher = .idle → 0 < info.data.length → info.data.length ≤ capacity →
      ∃ begun i, hubStep hub (.publish info) = some begun ∧ begun.publisher = .filled i) ∧
    ∀ capacity, 0 < capacity → K + 1 ≤ 2 ^ 31 → ∃ hub₀ es hub,
      frameHubCreate capacity (K + 1) = some hub₀ ∧
      Run.exec (workerStep K) hub₀ es = some hub ∧ hub.publisher = .idle ∧
      ∀ info, hubStep hub (.publish info) = some hub := by
  constructor
  · intro capacity poolCount hub₀ es hub info hcount hmax hcreate hrun hidle hpos _
    obtain ⟨h, hfrugal⟩ := Run.exec_invariant (fun _ _ _ ↦ frugal_workerStep)
      (frugal_frameHubCreate K hcreate) hrun
    obtain ⟨l, hl, hlen⟩ := exists_held hfrugal hidle
    have hall := usableFrames_of_frameHubCreate hcreate hmax
    obtain ⟨i, pool, hacq⟩ := exists_framePoolAcquire_of_held h hl (by omega)
    exact ⟨_, i, frameHubPublish_of_frame hidle (Nat.ne_of_gt hpos) hacq, rfl⟩
  · intro capacity hcapacity hmax
    obtain ⟨hub₀, hcreate⟩ : ∃ hub₀, frameHubCreate capacity (K + 1) = some hub₀ := by
      rw [frameHubCreate, framePoolCreate, if_neg (by omega)]
      exact ⟨_, rfl⟩
    have hall := usableFrames_of_frameHubCreate hcreate hmax
    obtain ⟨es, hub, hrun, h, hh⟩ := exists_hoarding hcreate hall (Nat.le_refl K)
    obtain ⟨es₁, hub₁, i, hrun₁, h₁, hunheld, hview₁⟩ :=
      exists_published K h hh.idle (hh.exists_framePoolAcquire h (by omega))
    have hidle₁ : hub₁.publisher = .idle := (congrArg HubView.publisher hview₁).trans hh.idle
    have htaken₁ : hub₁.taken = hub.taken := congrArg HubView.taken hview₁
    -- Every consumer holds a frame, and the mailbox of the first another one.
    have hfirst : 0 ∈ hub.consumers := by
      rw [show hub.consumers = _ from hh.linked_eq, List.mem_reverse, List.mem_range]
      exact hK
    have hfresh : i ∉ hub.taken.map Prod.snd := fun hmem ↦ by
      obtain ⟨⟨c, _⟩, hc, rfl⟩ := List.mem_map.1 hmem
      exact hunheld.taken_ne c hc
    have hzero : hub₁.pool.freeCount = 0 := by
      refine freeCount_eq_zero h₁ hall (List.nodup_cons.2 ⟨hfresh, hh.nodup_taken⟩) (fun f hf ↦ ?_) ?_
      · rw [references_pos_iff]
        rcases List.mem_cons.1 hf with rfl | hf
        · refine Or.inl ⟨0, List.mem_append_left _ ?_, ?_⟩
          · rwa [show hub₁.consumers = hub.consumers from congrArg HubView.linked hview₁]
          · exact (congrFun (congrArg HubView.slot hview₁) 0).trans (if_pos hfirst)
        · obtain ⟨⟨c, _⟩, hc, rfl⟩ := List.mem_map.1 hf
          exact Or.inr (Or.inl ⟨c, htaken₁ ▸ hc⟩)
      · rw [List.length_cons, List.length_map, ← List.length_map Prod.fst,
          show hub.taken.map _ = _ from hh.takers_eq, List.length_reverse, List.length_range]
    refine ⟨hub₀, _, hub₁, hcreate, Run.exec_append hrun hrun₁, hidle₁, fun info ↦ ?_⟩
    rw [hubStep, frameHubPublish, if_neg (not_not.2 hidle₁), framePoolAcquire_eq_null_iff.2 hzero]
    split_ifs <;> rfl

/-- The encode worker alone: three frames are enough for it, and two are not. -/
theorem publish_headroom_one :
    (∀ es hub info, (frameHubCreate 4 3).bind (Run.exec (workerStep 1) · es) = some hub →
      hub.publisher = .idle → 0 < info.data.length → info.data.length ≤ 4 →
      ∃ begun i, hubStep hub (.publish info) = some begun ∧ begun.publisher = .filled i) ∧
    ∃ hub₀ es hub, frameHubCreate 4 2 = some hub₀ ∧ Run.exec (workerStep 1) hub₀ es = some hub ∧
      hub.publisher = .idle ∧ ∀ info, hubStep hub (.publish info) = some hub := by
  obtain ⟨hnever, hsome⟩ := publish_headroom Nat.one_pos
  refine ⟨fun es hub info hrun hidle hpos hle ↦ ?_, hsome 4 (by decide) (by decide)⟩
  obtain ⟨hub₀, hcreate, hrun⟩ := Option.bind_eq_some_iff.1 hrun
  exact hnever 4 3 hub₀ es hub info (Nat.le_refl 3) (by decide) hcreate hrun hidle hpos hle

/-- A hub of one frame more than an `int` counts has all it needs for one consumer, and its first publish
writes before the array. -/
theorem not_publish_headroom : ∃ hub₀, frameHubCreate 4 (2 ^ 31 + 1) = some hub₀ ∧
    hub₀.publisher = .idle ∧ framePoolAcquire hub₀.pool = .outside (-2 ^ 31) ∧
    ∀ info, 0 < info.data.length → hubStep hub₀ (.publish info) = none := by
  obtain ⟨hub₀, hcreate, -, hidle, hacq⟩ := exists_frameHubCreate_outside (Nat.succ_pos 3)
  refine ⟨hub₀, hcreate, hidle, hacq, fun info hpos ↦ ?_⟩
  rw [hubStep, frameHubPublish, if_neg (not_not.2 hidle), if_neg (Nat.ne_of_gt hpos), hacq]

end Camstream
