import Camstream.Media.EncoderWorker

/-!
# Keyframe requests

A viewer asks for a keyframe by setting `force_idr`, and the encode worker reads and clears the flag
before it calls the encoder. From there on the request exists only as an argument of that call. The
software encoder always takes the frame, and with it the request. The hardware encoder returns `0` without
the frame if it has no input buffer or the device refuses the frame; the worker drops the frame, and the
request with it, unless somebody asks again in the meantime.

That is the only way a request is lost: `keyframeRequestsKept_iff`.
-/

namespace Camstream

/-- What an effect means for a request that is pending: it is satisfied by a frame handed to the encoder
with the request, and by an IDR access unit in the ring. -/
def pendingAfter (pending : Bool) : WorkerEffect → Bool
  | .requested => true
  | .encoder effect => pending && !effect.handsForced
  | .pushed _ _ isIdr => pending && !isIdr

/-- Whether a request has been made, and nothing has satisfied it since. -/
def requestPending (log : List WorkerEffect) : Bool :=
  log.foldl pendingAfter false

/-- **No request is lost**: whenever the thread is at the top of its loop with a request pending, the
flag is set. -/
def KeyframeRequestsKept (start : EncoderWorker) (events : List WorkerEvent) : Prop :=
  ∀ events' worker, events' <+: events → Run.exec workerEventStep start events' = some worker →
    worker.phase = .top → requestPending worker.log = true → worker.forceIdr = true

/-- The event is an encode call that has the pending request, the flag not being set again, and does not
get its frame to the encoder. -/
def DropsRequest (worker : EncoderWorker) (e : WorkerEvent) : Prop :=
  ∃ ptsUs answers, e = .encode answers ∧ worker.phase = .exchanged ptsUs true ∧
    requestPending worker.log = true ∧ worker.forceIdr = false ∧
    ¬ worker.backend.Broken ∧ ¬ worker.backend.Hands answers

/-! ### The pending request -/

/-- A picture that is forced answers the request. -/
theorem requestPending_append_encoder (log : List WorkerEffect) (effects : List H264Effect) :
    requestPending (log ++ effects.map WorkerEffect.encoder) =
      (requestPending log && !effects.any H264Effect.handsForced) := by
  rw [requestPending, List.foldl_append, ← requestPending]
  induction effects generalizing log with
  | nil => rw [List.any_nil, Bool.not_false, Bool.and_true]; rfl
  | cons effect effects ih =>
    have hcons : requestPending (log ++ [.encoder effect]) =
        (requestPending log && !effect.handsForced) := by
      rw [requestPending, List.foldl_append]
      rfl
    have ih := ih (log ++ [.encoder effect])
    rw [hcons] at ih
    rw [List.any_cons, Bool.not_or, ← Bool.and_assoc]
    exact ih

/-- So does an IDR that was not. -/
theorem requestPending_append_pushed (log : List WorkerEffect) (out : List UInt8) (ptsUs : UInt64)
    (isIdr : Bool) :
    requestPending (log ++ [.pushed out ptsUs isIdr]) = (requestPending log && !isIdr) := by
  rw [requestPending, List.foldl_append]
  rfl

/-- What the thread has in its hands that will satisfy a request. -/
def WorkerPhase.covers : WorkerPhase → Bool
  | exchanged _ forceIdr => forceIdr
  | cleared _ _ isIdr => isIdr
  | stopped => true
  | _ => false

/-- A pending request is in the flag or in the hands of the thread. -/
def WorkerView.Covered (v : WorkerView) : Prop :=
  requestPending v.log = true → v.forceIdr = true ∨ v.phase.covers = true

/-- **A step that does not drop the request keeps it.** -/
theorem covered_step {v v' : WorkerView} {e : WorkerEvent} (h : v.Covered) (hs : v.Step e v')
    (hkeeps : ∀ ptsUs answers, e = .encode answers → v.phase = .exchanged ptsUs true →
      requestPending v.log = true → v.forceIdr = false → ¬ v.backend.Broken →
      v.backend.Hands answers) : v'.Covered := by
  cases hs with
  | idle => exact h
  | request => exact fun _ ↦ .inl rfl
  | leave hphase => exact fun _ ↦ .inr rfl
  | take hphase =>
    intro hpending
    refine (h hpending).imp_right fun hcovers ↦ ?_
    rw [hphase] at hcovers
    exact hcovers
  | exchange hphase =>
    intro hpending
    rcases h hpending with hflag | hcovers
    · exact .inr hflag
    · rw [hphase] at hcovers
      exact absurd hcovers Bool.false_ne_true
  | @encode ptsUs forceIdr answers outcome backend effects hphase hencode =>
    intro hpending
    rw [requestPending_append_encoder, Bool.and_eq_true, Bool.not_eq_true'] at hpending
    obtain ⟨hpending, hany⟩ := hpending
    by_cases hbroken : v.backend.Broken
    · refine .inr ?_
      show (outcome.next ptsUs).covers = true
      rw [EncodeOutcome.next, result_of_broken hbroken hencode]
      rfl
    · refine .inl ?_
      show v.forceIdr = true
      have hcovered := h hpending
      rw [hphase] at hcovered
      rcases any_handsForced hbroken hencode with ⟨-, hforced⟩ | ⟨hhands, -, -⟩
      · -- The frame is handed over without a request, so the flag is still set.
        rw [hforced] at hany
        subst hany
        exact hcovered.resolve_right Bool.false_ne_true
      · rcases hcovered with hflag | hforce
        · exact hflag
        · by_contra hflag
          obtain rfl : forceIdr = true := hforce
          exact hhands (hkeeps ptsUs answers rfl hphase hpending (Bool.eq_false_iff.2 hflag) hbroken)
  | @clear ptsUs out isIdr hphase =>
    intro hpending
    have hcovered := h hpending
    rw [hphase] at hcovered
    cases isIdr
    · exact .inl (hcovered.resolve_right Bool.false_ne_true)
    · exact .inr rfl
  | @push ptsUs out isIdr hphase =>
    intro hpending
    rw [requestPending_append_pushed, Bool.and_eq_true, Bool.not_eq_true'] at hpending
    obtain ⟨hpending, rfl⟩ := hpending
    have hcovered := h hpending
    rw [hphase] at hcovered
    exact .inl (hcovered.resolve_right Bool.false_ne_true)

/-- A step that drops the request leaves the flag clear at the top of the loop. -/
theorem not_forceIdr_of_dropsRequest {worker worker' : EncoderWorker} {e : WorkerEvent}
    (h : worker.Fits) (hdrops : DropsRequest worker e) (hs : workerEventStep worker e = some worker') :
    worker'.phase = .top ∧ requestPending worker'.log = true ∧ worker'.forceIdr = false := by
  obtain ⟨ptsUs, answers, rfl, hphase, hpending, hflag, hbroken, hhands⟩ := hdrops
  obtain ⟨hstep, -⟩ := view_workerEventStep h hs
  generalize hview : worker'.view = v' at hstep
  cases hstep with
  | idle he => exact absurd he Bool.false_ne_true
  | @encode ptsUs' forceIdr _ outcome backend effects hphase' hencode =>
    rcases any_handsForced hbroken hencode with ⟨hhands', -⟩ | ⟨-, hany, hresult⟩
    · exact absurd hhands' hhands
    · have hnext : outcome.next ptsUs' = .top := by
        rw [EncodeOutcome.next, hresult]
        rfl
      have hlog : worker'.log = worker.log ++ effects.map WorkerEffect.encoder :=
        congrArg WorkerView.log hview
      refine ⟨(congrArg WorkerView.phase hview).trans hnext, ?_, ?_⟩
      · rw [hlog, requestPending_append_encoder, hpending, hany]
        rfl
      · exact (congrArg WorkerView.forceIdr hview).trans hflag

/-- **Requests are kept in exactly the runs in which no encode call drops one.** -/
theorem keyframeRequestsKept_iff {backend : H264Backend} {width height : UInt32} {ring : AuRing}
    {forceIdr : Bool} {slots : ℕ} {start worker : EncoderWorker} {events : List WorkerEvent}
    (hring : auRingCreate auSlotCapacity slots = some ring)
    (hcreate : encoderWorkerCreate backend width height ring forceIdr = some start)
    (hrun : Run.exec workerEventStep start events = some worker) :
    KeyframeRequestsKept start events ↔
      ∀ events' e worker', events' ++ [e] <+: events →
        Run.exec workerEventStep start events' = some worker' → ¬ DropsRequest worker' e := by
  obtain ⟨hfits, hview⟩ := fits_encoderWorkerCreate hring hcreate
  constructor
  · intro hkept events' e worker' hprefix hrun' hdrops
    -- The step that drops the request is a step of the run.
    obtain ⟨rest, rfl⟩ := hprefix
    obtain ⟨worker'', hrun'', -⟩ := Run.exists_of_exec_append hrun
    obtain ⟨t, ht, hstep⟩ := Run.exists_of_exec_snoc hrun''
    obtain rfl : t = worker' := Option.some.inj (ht.symm.trans hrun')
    have hfits' : t.Fits :=
      Run.exec_invariant (fun _ _ _ hs hstep ↦ (view_workerEventStep hs hstep).2) hfits ht
    obtain ⟨htop, hpending, hflag⟩ := not_forceIdr_of_dropsRequest hfits' hdrops hstep
    have hset := hkept _ _ (List.prefix_append _ rest) hrun'' htop hpending
    exact absurd (hset.symm.trans hflag) (by decide)
  · intro hnever events' worker' hprefix hrun' htop hpending
    have hstart : start.Fits ∧ start.view.Covered := by
      refine ⟨hfits, ?_⟩
      rw [hview]
      exact fun hpending ↦ absurd hpending Bool.false_ne_true
    have hinv : worker'.Fits ∧ worker'.view.Covered := by
      refine Run.exec_invariant_prefix (P := fun t ↦ t.Fits ∧ t.view.Covered) hstart ?_ hprefix hrun'
      intro es e t t' hes hrun ht hstep
      obtain ⟨hview, hfits⟩ := view_workerEventStep ht.1 hstep
      refine ⟨hfits, covered_step ht.2 hview ?_⟩
      intro ptsUs answers he hphase hpending hflag hbroken
      by_contra hhands
      exact hnever es e t hes hrun ⟨ptsUs, answers, he, hphase, hpending, hflag, hbroken, hhands⟩
    rcases hinv.2 hpending with hflag | hcovers
    · exact hflag
    · rw [show worker'.view.phase = .top from htop] at hcovers
      exact absurd hcovers Bool.false_ne_true

/-- A request, and a frame that the device takes with it. -/
def sampleRequested : List WorkerEvent :=
  .request :: encodeSmallFrame 40 (.m2m m2mAccepts)

/-- The one encode call of these events is the last one. -/
theorem encode_of_prefix_sampleRequested {events : List WorkerEvent} {answers : H264Answers}
    (h : events ++ [.encode answers] <+: sampleRequested) :
    events = [.request, .take (some (smallFrame 40)) true, .exchange] ∧ answers = .m2m m2mAccepts := by
  rcases events with - | ⟨a, - | ⟨b, - | ⟨c, - | ⟨d, events⟩⟩⟩⟩ <;>
    simp [sampleRequested, encodeSmallFrame, List.cons_prefix_cons] at h ⊢
  exact ⟨⟨h.1, h.2.1, h.2.2.1⟩, h.2.2.2⟩

theorem keyframeRequestsKept_iff_sample : ∃ encoder ring start worker,
    m2mOpen 2 = some encoder ∧ auRingCreate auSlotCapacity 8 = some ring ∧
    encoderWorkerCreate (.m2m encoder) 2 2 ring false = some start ∧
    Run.exec workerEventStep start sampleRequested = some worker ∧
    KeyframeRequestsKept start sampleRequested := by
  obtain ⟨encoder, ring, start, worker, hopen, hring, hcreate, hrun, hhands⟩ :
      ∃ encoder ring start worker, m2mOpen 2 = some encoder ∧
        auRingCreate auSlotCapacity 8 = some ring ∧
        encoderWorkerCreate (.m2m encoder) 2 2 ring false = some start ∧
        Run.exec workerEventStep start sampleRequested = some worker ∧
        ∀ t, Run.exec workerEventStep start
          [.request, .take (some (smallFrame 40)) true, .exchange] = some t →
            t.backend.Hands (.m2m m2mAccepts) := by
    refine ⟨_, _, _, _, rfl, rfl, rfl, rfl, fun t ht ↦ ?_⟩
    obtain rfl := Option.some.inj ht
    exact ⟨by decide, rfl⟩
  refine ⟨encoder, ring, start, worker, hopen, hring, hcreate, hrun,
    (keyframeRequestsKept_iff hring hcreate hrun).2 ?_⟩
  rintro events' e worker' hprefix hrun' ⟨ptsUs, answers, rfl, -, -, -, -, hdropped⟩
  obtain ⟨rfl, rfl⟩ := encode_of_prefix_sampleRequested hprefix
  exact hdropped (hhands worker' hrun')

/-- With two input buffers, both in the device, the third frame is dropped with its request. -/
theorem not_keyframeRequestsKept : ∃ encoder ring start worker events,
    m2mOpen 2 = some encoder ∧ auRingCreate auSlotCapacity 8 = some ring ∧
    encoderWorkerCreate (.m2m encoder) 2 2 ring false = some start ∧
    events = encodeSmallFrame 40 (.m2m m2mAccepts) ++ encodeSmallFrame 80 (.m2m m2mAccepts) ++
      [.request] ++ encodeSmallFrame 120 (.m2m m2mAccepts) ∧
    Run.exec workerEventStep start events = some worker ∧ ¬ KeyframeRequestsKept start events := by
  refine ⟨_, _, _, _, _, rfl, rfl, rfl, rfl, rfl, fun hkept ↦ ?_⟩
  have hflag := hkept _ _ (List.prefix_refl _) rfl rfl rfl
  exact absurd hflag (by decide)

end Camstream
