import Mathlib.Data.List.Perm.Basic
import Camstream.Media.FrameHub

/-!
# Who holds a frame

The accounting of the frame hub. In every state a run reaches, the reference count of a frame is the
number of its holders — mailboxes, frames taken and not released, and the producer while it publishes —
and the stack of free indices is exactly the frames with no holder.

The invariant `FrameHub.Accounted` says that the pool represents an abstract `RefPool` whose references
are the holders, counted. Each operation of the hub is a few pool operations together with a change of
one mailbox, one entry of `taken` or the producer's phase; `holders_setConsumer` is the counting lemma
for the first, and after it every case compares two sums. The pool's own reasoning is not repeated: it
is in the refinement theorems of `Camstream.Media.FramePool`.
-/

namespace Camstream

/-! ### Holders -/

/-- How many of the mailboxes `l` hold frame `i`. -/
def mailboxHolders (consumer : ℕ → FrameHubConsumer) (l : List ℕ) (i : ℕ) : ℕ :=
  l.countP fun c ↦ (consumer c).slot = some i

/-- The number of mailboxes holding a frame. -/
def FrameHub.mailboxes (hub : FrameHub) (i : ℕ) : ℕ :=
  mailboxHolders hub.consumer hub.live i

/-- The references to a frame that were taken and not yet released. -/
def FrameHub.outstanding (hub : FrameHub) (i : ℕ) : ℕ :=
  hub.taken.countP fun t ↦ t.2 = i

/-- The producer's own reference. -/
def FrameHub.published (hub : FrameHub) (i : ℕ) : ℕ :=
  if hub.publisher.frame? = some i then 1 else 0

/-- All references to a frame. -/
def FrameHub.references (hub : FrameHub) (i : ℕ) : ℕ :=
  hub.mailboxes i + hub.outstanding i + hub.published i

variable {consumer : ℕ → FrameHubConsumer} {l : List ℕ} {c : ℕ}

theorem mailboxHolders_cons (consumer : ℕ → FrameHubConsumer) (c : ℕ) (l : List ℕ) (i : ℕ) :
    mailboxHolders consumer (c :: l) i =
      mailboxHolders consumer l i + if (consumer c).slot = some i then 1 else 0 := by
  rw [mailboxHolders, List.countP_cons]
  simp only [decide_eq_true_eq]
  rfl

/-- A mailbox that is not among `l` does not count. -/
theorem mailboxHolders_update_of_notMem (hc : c ∉ l) (v : FrameHubConsumer) (i : ℕ) :
    mailboxHolders (Function.update consumer c v) l i = mailboxHolders consumer l i := by
  refine List.countP_congr fun d hd ↦ ?_
  have hne : d ≠ c := fun he ↦ hc (he ▸ hd)
  rw [Function.update_of_ne hne]

/-- The order of the consumers does not matter. -/
theorem mailboxHolders_perm {l' : List ℕ} (h : l.Perm l') (i : ℕ) :
    mailboxHolders consumer l i = mailboxHolders consumer l' i :=
  h.countP_eq _

/-- **Writing one mailbox** exchanges what it held for what it holds. -/
theorem mailboxHolders_update (consumer : ℕ → FrameHubConsumer) (hl : l.Nodup) (hc : c ∈ l)
    (v : FrameHubConsumer) (i : ℕ) :
    mailboxHolders (Function.update consumer c v) l i
        + (if (consumer c).slot = some i then 1 else 0) =
      mailboxHolders consumer l i + if v.slot = some i then 1 else 0 := by
  have hperm : l.Perm (c :: l.erase c) := List.perm_cons_erase hc
  have hrest : c ∉ l.erase c := hl.not_mem_erase
  rw [mailboxHolders_perm hperm, mailboxHolders_perm hperm, mailboxHolders_cons,
    mailboxHolders_cons, mailboxHolders_update_of_notMem hrest, Function.update_self]
  exact Nat.add_right_comm _ _ _

/-! ### The invariant -/

/-- Every frame is accounted for. -/
structure FrameHub.Accounted (n : ℕ) (hub : FrameHub) : Prop where
  /-- No consumer is in two places. -/
  nodup_live : hub.live.Nodup
  /-- The consumers of the list are subscribed. -/
  active : ∀ c ∈ hub.consumers, (hub.consumer c).active = true
  /-- The loop only visits consumers of the list. -/
  rest_subset : ∀ c ∈ hub.publisher.rest, c ∈ hub.consumers
  /-- The counts in the pool are the numbers of holders. -/
  represents : ∃ a : RefPool (Finset.range (usableFrames n)),
    hub.pool.Represents n a ∧ ∀ i, a.refs.count i = hub.references i

variable {n : ℕ} {hub hub' : FrameHub}

/-- A frame with a holder is referenced in the abstract pool. -/
theorem mem_refs_of_references_pos {a : RefPool (Finset.range (usableFrames n))}
    (href : ∀ i, a.refs.count i = hub.references i) {i : ℕ} (h : 0 < hub.references i) :
    i ∈ a.refs :=
  Multiset.count_pos.1 ((href i).symm ▸ h)

/-- Writing a consumer without changing its `active` flag. -/
theorem FrameHub.Accounted.active_update (h : hub.Accounted n) {v : FrameHubConsumer}
    (hv : v.active = (hub.consumer c).active) :
    ∀ d ∈ hub.consumers, (Function.update hub.consumer c v d).active = true := by
  intro d hd
  rcases eq_or_ne d c with rfl | hne
  · rw [Function.update_self, hv]
    exact h.active d hd
  · rw [Function.update_of_ne hne]
    exact h.active d hd

/-- A fresh hub has all its frames on the free list. -/
theorem accounted_frameHubCreate {bufferCapacity poolCount : ℕ}
    (h : frameHubCreate bufferCapacity poolCount = some hub) : hub.Accounted poolCount := by
  obtain ⟨pool, hpool, rfl⟩ := Option.map_eq_some_iff.1 h
  obtain ⟨a, ha, hrefs⟩ := represents_framePoolCreate hpool
  refine ⟨List.nodup_nil, fun c hc ↦ absurd hc List.not_mem_nil,
    fun c hc ↦ absurd hc List.not_mem_nil, a, ha, fun i ↦ ?_⟩
  rw [hrefs]
  rfl

/-- A hub of at most `2 ^ 31` frames can use them all. -/
theorem usableFrames_of_frameHubCreate {bufferCapacity poolCount : ℕ}
    (h : frameHubCreate bufferCapacity poolCount = some hub) (hcount : poolCount ≤ 2 ^ 31) :
    usableFrames poolCount = poolCount := by
  refine usableFrames_of_le ?_ hcount
  rintro rfl
  rw [frameHubCreate, framePoolCreate, if_pos (.inr rfl)] at h
  exact absurd h.symm (Option.some_ne_none hub)

/-- The pool of a hub with one frame more hands out a negative index first. -/
theorem exists_frameHubCreate_outside {bufferCapacity : ℕ} (hpos : 0 < bufferCapacity) :
    ∃ hub₀, frameHubCreate bufferCapacity (2 ^ 31 + 1) = some hub₀ ∧
      framePoolCreate bufferCapacity (2 ^ 31 + 1) = some hub₀.pool ∧ hub₀.publisher = .idle ∧
      framePoolAcquire hub₀.pool = .outside (-2 ^ 31) := by
  obtain ⟨pool, hpool⟩ : ∃ pool, framePoolCreate bufferCapacity (2 ^ 31 + 1) = some pool := by
    rw [framePoolCreate, if_neg (by omega)]
    exact ⟨_, rfl⟩
  have hindex : ((2 ^ 31 + 1 : ℕ) : ℤ) - 1 - 2 ^ 32 = -2 ^ 31 := by omega
  have hacq := hindex ▸ framePoolAcquire_framePoolCreate hpool (by omega) (by omega)
  refine ⟨⟨pool, [], [], fun _ ↦ ⟨none, false⟩, .idle, []⟩, ?_, hpool, rfl, hacq⟩
  rw [frameHubCreate, hpool]
  rfl

/-! ### Steps that leave the pool alone -/

/-- A new consumer has an empty mailbox. -/
theorem accounted_frameHubSubscribe (h : hub.Accounted n)
    (hs : frameHubSubscribe hub c = some hub') : hub'.Accounted n := by
  rw [frameHubSubscribe] at hs
  split_ifs at hs with hguard
  obtain ⟨hlock, hfresh⟩ := not_or.1 hguard
  obtain rfl := Option.some.inj hs
  obtain ⟨a, ha, href⟩ := h.represents
  refine ⟨List.nodup_cons.2 ⟨hfresh, h.nodup_live⟩, ?_, ?_, a, ha, fun i ↦ ?_⟩
  · intro d hd
    show (Function.update hub.consumer c _ d).active = true
    rcases eq_or_ne d c with rfl | hne
    · rw [Function.update_self]
    · rw [Function.update_of_ne hne]
      exact h.active d ((List.mem_cons.1 hd).resolve_left hne)
  · intro d hd
    exact List.mem_cons_of_mem c (h.rest_subset d hd)
  · -- The new mailbox is empty and the others are as before.
    have hmail : mailboxHolders (Function.update hub.consumer c ⟨none, true⟩) (c :: hub.live) i =
        hub.mailboxes i := by
      rw [mailboxHolders_cons, mailboxHolders_update_of_notMem hfresh, Function.update_self]
      rfl
    rw [href i]
    exact congrArg (· + hub.outstanding i + hub.published i) hmail.symm

/-- The consumers of the list are active, so that the test of the flag succeeds. -/
theorem FrameHub.Accounted.eq_of_frameHubUnsubscribe (h : hub.Accounted n)
    (hs : frameHubUnsubscribe hub c = some hub') :
    hub.publisher.locked = false ∧ c ∈ hub.consumers ∧
      hub' = { hub.setConsumer c { hub.consumer c with active := false } with
        consumers := hub.consumers.erase c
        unlinked := c :: hub.unlinked } := by
  rw [frameHubUnsubscribe] at hs
  split_ifs at hs with hguard
  obtain ⟨hlock, hmem⟩ := not_or.1 hguard
  have hmem : c ∈ hub.consumers := not_not.1 hmem
  dsimp only at hs
  rw [if_pos (h.active c hmem)] at hs
  exact ⟨Bool.eq_false_iff.2 hlock, hmem, (Option.some.inj hs).symm⟩

/-- The reference of a mailbox goes with its consumer. -/
theorem accounted_frameHubUnsubscribe (h : hub.Accounted n)
    (hs : frameHubUnsubscribe hub c = some hub') : hub'.Accounted n := by
  obtain ⟨hlock, hmem, rfl⟩ := h.eq_of_frameHubUnsubscribe hs
  obtain ⟨a, ha, href⟩ := h.represents
  -- An unlinked consumer still holds its mailbox, so it only moves within the live ones.
  have hperm : hub.live.Perm (hub.consumers.erase c ++ c :: hub.unlinked) := perm_unlink hmem
  have hnodup : (hub.consumers.erase c ++ c :: hub.unlinked).Nodup :=
    hperm.nodup_iff.1 h.nodup_live
  have hnot : c ∉ hub.consumers.erase c := fun hc ↦
    List.disjoint_of_nodup_append hnodup hc List.mem_cons_self
  refine ⟨hnodup, ?_, ?_, a, ha, fun i ↦ ?_⟩
  · intro d hd
    have hne : d ≠ c := fun he ↦ hnot (he ▸ hd)
    show (Function.update hub.consumer c _ d).active = true
    rw [Function.update_of_ne hne]
    exact h.active d (List.mem_of_mem_erase hd)
  · -- Outside the lock no loop is under way.
    intro d hd
    have hrest : hub.publisher.rest = [] := Publisher.rest_eq_nil hlock
    exact absurd (hrest ▸ hd : d ∈ []) List.not_mem_nil
  · have hmail : mailboxHolders
        (Function.update hub.consumer c { hub.consumer c with active := false })
        (hub.consumers.erase c ++ c :: hub.unlinked) i = hub.mailboxes i := by
      have hupd := mailboxHolders_update hub.consumer h.nodup_live
        (List.mem_append_left _ hmem) { hub.consumer c with active := false } i
      rw [← mailboxHolders_perm hperm]
      exact Nat.add_right_cancel hupd
    rw [href i]
    exact congrArg (· + hub.outstanding i + hub.published i) hmail.symm

/-- What a take returns is what was in the mailbox, and the consumer keeps it. -/
theorem eq_of_frameHubTake (hs : hubStep hub (.take c) = some hub') :
    c ∈ hub.live ∧ hub' =
      (hub.setConsumer c { hub.consumer c with slot := none }).keep c (hub.consumer c).slot := by
  rw [hubStep, frameHubTake] at hs
  split_ifs at hs with hmem
  · exact ⟨hmem, (Option.some.inj hs).symm⟩
  · exact absurd hs.symm (Option.some_ne_none hub')

/-- The reference moves from the mailbox to the hands of the consumer. -/
theorem accounted_frameHubTake (h : hub.Accounted n) (hs : hubStep hub (.take c) = some hub') :
    hub'.Accounted n := by
  obtain ⟨hmem, rfl⟩ := eq_of_frameHubTake hs
  obtain ⟨a, ha, href⟩ := h.represents
  refine ⟨h.nodup_live, h.active_update rfl, h.rest_subset, a, ha, fun i ↦ ?_⟩
  -- The reference moves from the mailbox to the consumer.
  set v : FrameHubConsumer := { hub.consumer c with slot := none }
  have hupd : mailboxHolders (Function.update hub.consumer c v) hub.live i
      + (if (hub.consumer c).slot = some i then 1 else 0) = hub.mailboxes i := by
    have := mailboxHolders_update hub.consumer h.nodup_live hmem v i
    simp only [v, reduceCtorEq, if_false] at this
    exact this
  have hout : ((hub.consumer c).slot.toList.map (c, ·) ++ hub.taken).countP (fun t ↦ t.2 = i) =
      hub.outstanding i + if (hub.consumer c).slot = some i then 1 else 0 := by
    rcases (hub.consumer c).slot with - | frame
    · rfl
    · rw [Option.toList_some, List.map_singleton, List.singleton_append, List.countP_cons]
      simp only [decide_eq_true_eq, Option.some.injEq]
      rfl
  rw [href i]
  show hub.mailboxes i + hub.outstanding i + hub.published i =
    mailboxHolders (Function.update hub.consumer c v) hub.live i
      + ((hub.consumer c).slot.toList.map (c, ·) ++ hub.taken).countP (fun t ↦ t.2 = i) + hub.published i
  rw [hout, ← hupd]
  omega

/-! ### Steps that release a reference -/

/-- Dropping one holder's reference and releasing it in the pool keeps the accounts. -/
theorem represents_release {pool : FramePool} {refs refs' : ℕ → ℕ} {frame : ℕ}
    (h : ∃ a : RefPool (Finset.range (usableFrames n)), pool.Represents n a ∧ ∀ i, a.refs.count i = refs i)
    (hrefs : ∀ i, refs i = refs' i + if frame = i then 1 else 0) :
    ∃ a : RefPool (Finset.range (usableFrames n)),
      (frameUnref pool frame).Represents n a ∧ ∀ i, a.refs.count i = refs' i := by
  obtain ⟨a, ha, href⟩ := h
  have hmem : frame ∈ a.refs := by
    rw [← Multiset.count_pos, href, hrefs, if_pos rfl]
    exact Nat.succ_pos _
  refine ⟨a.release hmem, represents_frameUnref ha hmem, fun i ↦ ?_⟩
  have hcount := a.count_release hmem i
  rw [href, hrefs] at hcount
  exact Nat.add_right_cancel hcount

/-- The mailbox of a consumer that is freed gives its reference back. -/
theorem accounted_frameHubFree (h : hub.Accounted n) (hs : frameHubFree hub c = some hub') :
    hub'.Accounted n := by
  rw [frameHubFree] at hs
  split_ifs at hs with hmem
  have hperm : hub.live.Perm (c :: (hub.consumers ++ hub.unlinked.erase c)) :=
    perm_free hmem
  have hnodup : (c :: (hub.consumers ++ hub.unlinked.erase c)).Nodup :=
    hperm.nodup_iff.1 h.nodup_live
  obtain ⟨hnot, hnodup⟩ := List.nodup_cons.1 hnodup
  -- The mailbox of `c` leaves the sum, and a frame left in it is released.
  have hsplit (i : ℕ) : hub.mailboxes i =
      mailboxHolders hub.consumer (hub.consumers ++ hub.unlinked.erase c) i
        + if (hub.consumer c).slot = some i then 1 else 0 := by
    rw [← mailboxHolders_cons]
    exact mailboxHolders_perm hperm i
  rcases hslot : (hub.consumer c).slot with - | frame
  · simp only [hslot, Option.some.injEq] at hs
    subst hs
    obtain ⟨a, ha, href⟩ := h.represents
    refine ⟨hnodup, h.active, h.rest_subset, a, ha, fun i ↦ ?_⟩
    have := hsplit i
    rw [hslot, if_neg (by rintro ⟨⟩), Nat.add_zero] at this
    rw [href i]
    exact congrArg (· + hub.outstanding i + hub.published i) this
  · simp only [hslot, Option.some.injEq] at hs
    subst hs
    refine ⟨hnodup, h.active_update rfl, h.rest_subset, represents_release h.represents fun i ↦ ?_⟩
    have := hsplit i
    simp only [hslot, Option.some.injEq] at this
    have hrest : mailboxHolders
        (Function.update hub.consumer c { hub.consumer c with slot := none })
        (hub.consumers ++ hub.unlinked.erase c) i + (if frame = i then 1 else 0) =
          hub.mailboxes i := by
      rw [mailboxHolders_update_of_notMem hnot, this]
    show hub.mailboxes i + hub.outstanding i + hub.published i =
      mailboxHolders (Function.update hub.consumer c { hub.consumer c with slot := none })
        (hub.consumers ++ hub.unlinked.erase c) i
        + hub.outstanding i + hub.published i + if frame = i then 1 else 0
    rw [← hrest]
    omega

/-- The consumer gives its reference back. -/
theorem accounted_frameHubRelease {frame : ℕ} (h : hub.Accounted n)
    (hs : frameHubRelease hub c frame = some hub') : hub'.Accounted n := by
  rw [frameHubRelease] at hs
  split_ifs at hs with hmem
  obtain rfl := Option.some.inj hs
  refine ⟨h.nodup_live, h.active, h.rest_subset, represents_release h.represents fun i ↦ ?_⟩
  have hout : hub.outstanding i =
      (hub.taken.erase (c, frame)).countP (fun t ↦ t.2 = i) + if frame = i then 1 else 0 := by
    rw [FrameHub.outstanding, (List.perm_cons_erase hmem).countP_eq, List.countP_cons]
    simp only [decide_eq_true_eq]
  show hub.mailboxes i + hub.outstanding i + hub.published i =
    hub.mailboxes i + List.countP _ (hub.taken.erase (c, frame)) + hub.published i + _
  omega

/-! ### Publishing -/

/-- Filling a frame changes neither its count nor its index. -/
theorem represents_fillFrame {pool : FramePool} {a : RefPool (Finset.range (usableFrames n))}
    (h : pool.Represents n a) (frame : ℕ) (info : FrameInfo) :
    (fillFrame pool frame info).Represents n a := by
  refine ⟨h.count_eq, h.length_freeList, h.freeCount_le, h.stack_eq, ?_, ?_, h.stderr_eq⟩
  · intro i hi
    rw [← h.refcount_eq i hi, fillFrame]
    rcases eq_or_ne i frame with rfl | hne
    · rw [setFrame_frames_self]
    · rw [setFrame_frames_of_ne hne]
  · intro i hi
    refine Eq.trans ?_ (h.poolIndex_eq i hi)
    rw [fillFrame]
    rcases eq_or_ne i frame with rfl | hne
    · rw [setFrame_frames_self]
    · rw [setFrame_frames_of_ne hne]

/-- The producer has the first reference. -/
theorem accounted_frameHubPublish {info : FrameInfo} (h : hub.Accounted n)
    (hs : frameHubPublish hub info = some hub') : hub'.Accounted n := by
  obtain ⟨hidle, ⟨rfl, -⟩ | ⟨-, frame, pool, hacq, rfl⟩⟩ := frameHubPublish_cases hs
  · exact h
  · obtain ⟨a, ha, href⟩ := h.represents
    obtain ⟨-, -, rest, hfree, ha'⟩ := represents_framePoolAcquire ha hacq
    refine ⟨h.nodup_live, h.active, fun d hd ↦ absurd hd List.not_mem_nil, a.acquire hfree,
      represents_fillFrame ha' frame info, fun i ↦ ?_⟩
    have hpublished : hub.published i = 0 := by
      rw [FrameHub.published, hidle]
      rfl
    have hfilled : (if (Publisher.filled frame).frame? = some i then 1 else 0) =
        if frame = i then 1 else 0 := by
      simp only [Publisher.frame?, Option.some.injEq]
    rw [a.count_acquire, href i, ← hfilled, FrameHub.references, hpublished]
    rfl

/-- One turn of the loop moves the mailbox of `c` to the new frame. -/
theorem accounted_deliver {frame : ℕ} {rest : List ℕ} (h : hub.Accounted n)
    (hp : hub.publisher = .delivering frame (c :: rest)) :
    FrameHub.Accounted n { deliver hub frame c with publisher := .delivering frame rest } := by
  have hc : c ∈ hub.consumers := h.rest_subset c (hp ▸ List.mem_cons_self)
  have hrest : ∀ d ∈ rest, d ∈ hub.consumers := fun d hd ↦
    h.rest_subset d (hp ▸ List.mem_cons_of_mem c hd)
  have hlive : c ∈ hub.live := List.mem_append_left _ hc
  have hpub (i : ℕ) : hub.published i = if some frame = some i then 1 else 0 := by
    rw [FrameHub.published, hp]
    rfl
  -- The producer's own reference allows it to add one.
  have hshare : ∃ a : RefPool (Finset.range (usableFrames n)), (frameRef hub.pool frame).Represents n a ∧
      ∀ i, a.refs.count i = hub.references i + if frame = i then 1 else 0 := by
    obtain ⟨a, ha, href⟩ := h.represents
    have hframe : frame ∈ a.refs := by
      refine mem_refs_of_references_pos href (Nat.add_pos_right _ ?_)
      rw [hpub, if_pos rfl]
      exact Nat.one_pos
    refine ⟨a.share hframe, represents_frameRef ha hframe, fun i ↦ ?_⟩
    rw [a.count_share, href]
  set v : FrameHubConsumer := { hub.consumer c with slot := some frame }
  -- After the turn, in terms of the mailboxes before it.
  let after (i : ℕ) : ℕ := mailboxHolders (Function.update hub.consumer c v) hub.live i
    + hub.outstanding i + if some frame = some i then 1 else 0
  have hafter (i : ℕ) : hub.references i + (if frame = i then 1 else 0) =
      after i + if (hub.consumer c).slot = some i then 1 else 0 := by
    have hupd : hub.mailboxes i + (if frame = i then 1 else 0) =
        mailboxHolders (Function.update hub.consumer c v) hub.live i
          + if (hub.consumer c).slot = some i then 1 else 0 := by
      rw [mailboxHolders_update hub.consumer h.nodup_live hlive v i]
      simp only [v, Option.some.injEq]
      rfl
    show hub.mailboxes i + hub.outstanding i + hub.published i + _ =
      mailboxHolders (Function.update hub.consumer c v) hub.live i + hub.outstanding i + ite _ _ _ + _
    rw [hpub]
    omega
  rw [deliver]
  dsimp only
  rw [if_pos (h.active c hc)]
  rcases hslot : (hub.consumer c).slot with - | old
  · refine ⟨h.nodup_live, h.active_update rfl, hrest, ?_⟩
    obtain ⟨a, ha, href⟩ := hshare
    refine ⟨a, ha, fun i ↦ ?_⟩
    rw [href i, hafter i, hslot, if_neg (by rintro ⟨⟩)]
    rfl
  · refine ⟨h.nodup_live, h.active_update rfl, hrest, represents_release hshare fun i ↦ ?_⟩
    rw [hafter i]
    simp only [hslot, Option.some.injEq]
    rfl

/-- A delivery adds one for the mailbox, and takes one from what was in it. -/
theorem accounted_frameHubPublishNext (h : hub.Accounted n)
    (hs : frameHubPublishNext hub = some hub') : hub'.Accounted n := by
  rw [frameHubPublishNext] at hs
  rcases hp : hub.publisher with - | frame | ⟨frame, _ | ⟨c, rest⟩⟩ | frame <;>
    simp only [hp, Option.some.injEq, reduceCtorEq] at hs <;> subst hs
  · -- Taking the hub lock.
    obtain ⟨a, ha, href⟩ := h.represents
    refine ⟨h.nodup_live, h.active, fun d hd ↦ hd, a, ha, fun i ↦ ?_⟩
    rw [href i, FrameHub.references, FrameHub.published, hp]
    rfl
  · -- Dropping the hub lock.
    obtain ⟨a, ha, href⟩ := h.represents
    refine ⟨h.nodup_live, h.active, fun d hd ↦ absurd hd List.not_mem_nil, a, ha, fun i ↦ ?_⟩
    rw [href i, FrameHub.references, FrameHub.published, hp]
    rfl
  · exact accounted_deliver h hp
  · -- The producer drops its own reference.
    refine ⟨h.nodup_live, h.active, fun d hd ↦ absurd hd List.not_mem_nil,
      represents_release h.represents fun i ↦ ?_⟩
    rw [FrameHub.references, FrameHub.published, hp]
    simp only [Publisher.frame?, Option.some.injEq]
    rfl

/-! ### Runs -/

/-- Every step keeps the accounts. -/
theorem accounted_hubStep {e : HubEvent} (h : hub.Accounted n) (hs : hubStep hub e = some hub') :
    hub'.Accounted n := by
  cases e with
  | subscribe c => exact accounted_frameHubSubscribe h hs
  | unsubscribe c => exact accounted_frameHubUnsubscribe h hs
  | free c => exact accounted_frameHubFree h hs
  | publish info => exact accounted_frameHubPublish h hs
  | publishNext => exact accounted_frameHubPublishNext h hs
  | take c => exact accounted_frameHubTake h hs
  | release c frame => exact accounted_frameHubRelease h hs

/-- Every state that a hub reaches is accounted for. -/
theorem accounted_of_run {bufferCapacity poolCount : ℕ} {hub₀ : FrameHub} {es : List HubEvent}
    (hcreate : frameHubCreate bufferCapacity poolCount = some hub₀)
    (hrun : Run.exec hubStep hub₀ es = some hub) : hub.Accounted poolCount :=
  Run.exec_invariant (fun _ _ _ ↦ accounted_hubStep) (accounted_frameHubCreate hcreate) hrun

/-- **No frame is leaked and none is recycled early.** In every state reached from a new hub of at most
`2 ^ 31` frames, by any interleaving of its operations:

* a frame's reference count is the number of its holders, and its index is on the stack of free indices
  once when that number is zero and not at all otherwise;
* the stack never exceeds the pool, and nothing was ever reported on `stderr`;
* `frame_pool_acquire` returns a frame without a holder, or `NULL`;
* when no frame has a holder all of them are free. -/
theorem references_of_hub_run {bufferCapacity poolCount : ℕ} {hub₀ hub : FrameHub}
    {es : List HubEvent} (hcount : poolCount ≤ 2 ^ 31)
    (hcreate : frameHubCreate bufferCapacity poolCount = some hub₀)
    (hrun : Run.exec hubStep hub₀ es = some hub) :
    (∀ i < poolCount,
      (hub.pool.frames i).refcount = hub.mailboxes i + hub.outstanding i + hub.published i ∧
      hub.pool.stack.count (i : ℤ) = if (hub.pool.frames i).refcount = 0 then 1 else 0) ∧
    (hub.pool.freeCount ≤ poolCount ∧ hub.pool.stderr = []) ∧
    (∀ index, framePoolAcquire hub.pool ≠ .outside index) ∧
    (∀ i pool, framePoolAcquire hub.pool = .frame i pool → i < poolCount ∧ hub.references i = 0) ∧
    ((∀ i, hub.references i = 0) → hub.pool.freeCount = poolCount) := by
  have hall := usableFrames_of_frameHubCreate hcreate hcount
  obtain ⟨a, ha, href⟩ := (accounted_of_run hcreate hrun).represents
  have hfree := ha.freeCount_eq
  refine ⟨fun i hi ↦ ?_, ⟨ha.freeCount_le, ha.stderr_eq⟩, framePoolAcquire_ne_outside ha hall,
    fun i pool hacq ↦ ?_, fun hnone ↦ ?_⟩
  · have hi : i < usableFrames poolCount := hi.trans_eq hall.symm
    have hcount : (hub.pool.frames i).refcount = (hub.references i : ℤ) := by
      rw [ha.refcount_eq i hi, href]
    refine ⟨hcount, ?_⟩
    -- The free list has a frame once or not at all, and it has those that nobody refers to.
    have hstack : hub.pool.stack.count (i : ℤ) = a.free.count i := by
      rw [ha.stack_eq_free hall]
      exact List.count_map_of_injective a.free Int.ofNat (fun _ _ ↦ Int.ofNat.inj) i
    rw [hstack, a.count_free (Finset.mem_range.2 hi), href, hcount]
    simp only [Int.natCast_eq_zero]
  · obtain ⟨hi, hnot, -⟩ := represents_framePoolAcquire ha hacq
    exact ⟨hi.trans_eq hall, (href i).symm.trans (Multiset.count_eq_zero.2 hnot)⟩
  · have hzero : a.refs = 0 := by
      ext i
      rw [href i, hnone i, Multiset.count_zero]
    have hlength : a.free.length = usableFrames poolCount :=
      (a.length_free_of_refs_eq_zero hzero).trans (Finset.card_range _)
    omega

/-- Two consumers; one takes the first frame and leaves while the second frame is on its way. -/
def sampleHubEvents : List HubEvent :=
  let info : FrameInfo := ⟨[1, 2, 3], 1, 1, 0, 3, 0, 0⟩
  [.subscribe 7, .subscribe 9, .publish info, .publishNext, .publishNext, .publishNext, .publishNext,
    .publishNext, .take 7, .publish info, .unsubscribe 7, .publishNext, .publishNext, .free 7,
    .release 7 1]

theorem references_of_hub_run_sample : ∃ hub₀ hub,
    frameHubCreate 4 2 = some hub₀ ∧ Run.exec hubStep hub₀ sampleHubEvents = some hub ∧
    ∀ i < 2, (hub.pool.frames i).refcount = hub.mailboxes i + hub.outstanding i + hub.published i := by
  have hsome : ((frameHubCreate 4 2).bind fun hub₀ ↦
      Run.exec hubStep hub₀ sampleHubEvents).isSome = true := by decide
  obtain ⟨hub, hbind⟩ := Option.isSome_iff_exists.1 hsome
  obtain ⟨hub₀, hcreate, hrun⟩ := Option.bind_eq_some_iff.1 hbind
  exact ⟨hub₀, hub, hcreate, hrun, fun i hi ↦
    ((references_of_hub_run (by decide) hcreate hrun).1 i hi).1⟩

/-- In a hub of one frame more than an `int` counts, the last frame has no holder and its index is not on
the stack, but `-2 ^ 31` is: the first publish writes before the array. -/
theorem not_references_of_hub_run : ∃ hub₀, frameHubCreate 4 (2 ^ 31 + 1) = some hub₀ ∧
    (hub₀.pool.frames (2 ^ 31)).refcount = 0 ∧ hub₀.pool.stack.count (2 ^ 31) = 0 ∧
    framePoolAcquire hub₀.pool = .outside (-2 ^ 31) := by
  obtain ⟨hub₀, hcreate, hpool, -, hacq⟩ := exists_frameHubCreate_outside (Nat.succ_pos 3)
  refine ⟨hub₀, hcreate, ?_, ?_, hacq⟩
  · rw [framePoolCreate, if_neg (by omega)] at hpool
    rw [← Option.some.inj hpool]
    rfl
  · exact List.count_eq_zero.2 fun hmem ↦ (lt_of_mem_stack_framePoolCreate hpool hmem).ne rfl

end Camstream
