import Camstream.Media.EncoderM2m

/-!
# The two encoder backends

`src/media/h264_encoder.c` dispatches to the hardware encoder or to `src/media/encoder_x264.c`. What
`x264_encoder_encode` returns is an input of the call, as the answers of the system are for the hardware.
-/

namespace Camstream

/-- What `x264_encoder_encode` returns: its result, the number of NAL units, the bytes from the payload
of the first of them on, and `b_keyframe` of the picture. -/
structure X264Answers where
  size : ℤ
  nalCount : ℤ
  payload : ℕ → UInt8
  keyframe : Bool

/-- What a call does to the encoder behind the backend: to the device, or to the library, which is given
a picture of type `X264_TYPE_IDR` or `X264_TYPE_AUTO`. -/
inductive H264Effect
  | m2m (ioctl : M2mIoctl)
  | x264 (ptsUs : UInt64) (idr : Bool)
  deriving DecidableEq, Repr

/-- `x264_encode` -/
def x264Encode (outCapacity : ℕ) (answers : X264Answers) : EncodeOutcome :=
  if answers.size < 0 then ⟨-1, [], false⟩
  else if answers.size = 0 ∨ answers.nalCount = 0 then ⟨0, [], false⟩
  else if outCapacity < answers.size.toNat then ⟨-1, [], false⟩
  else ⟨1, (List.range answers.size.toNat).map answers.payload, answers.keyframe⟩

/-- `struct H264Encoder`: the backend it dispatches to. -/
inductive H264Backend
  | m2m (encoder : M2mBackend)
  | x264

/-- The answers to a call of either backend. -/
inductive H264Answers
  | m2m (answers : M2mAnswers)
  | x264 (answers : X264Answers)

/-- `h264_encoder_encode`; the answers are those of the backend's own system. -/
def h264EncoderEncode (backend : H264Backend) (ptsUs : UInt64) (forceIdr : Bool) (outCapacity : ℕ)
    (answers : H264Answers) : Option (EncodeOutcome × H264Backend × List H264Effect) :=
  match backend, answers with
  | .m2m encoder, .m2m answers =>
    let r := m2mEncode encoder ptsUs forceIdr outCapacity answers
    some (r.1, .m2m r.2.1, r.2.2.map .m2m)
  | .x264, .x264 answers => some (x264Encode outCapacity answers, .x264, [.x264 ptsUs forceIdr])
  | _, _ => none

/-- Whether a frame is handed to the encoder, with the request for a keyframe. -/
def H264Effect.handsForced : H264Effect → Bool
  | .m2m (.qbufOutput _ _ true true) => true
  | .x264 _ true => true
  | _ => false

/-- Whether a call of the backend gets its frame to the encoder: `libx264` is simply called, the hardware
needs an input buffer that the device then takes. -/
def H264Backend.Hands : H264Backend → H264Answers → Prop
  | .m2m encoder, .m2m answers =>
    (m2mAcquireInputBuffer encoder answers).1 ≠ none ∧ answers.qbufOut = true
  | _, _ => True

/-- Whether the backend has given up: 64 errors in a row. -/
def H264Backend.Broken : H264Backend → Prop
  | .m2m encoder => 64 < encoder.errors
  | .x264 => False

variable {backend backend' : H264Backend} {answers : H264Answers} {outcome : EncodeOutcome}
  {effects : List H264Effect} {ptsUs : UInt64} {forceIdr : Bool} {outCapacity : ℕ}

/-! ### The size of an access unit -/

/-- However many buffers are collected, the output stays inside its room. -/
theorem length_foldl_m2mCollect_le (buffers : List CaptureBuffer) {drained : M2mDrained}
    (h : drained.out.length ≤ outCapacity) :
    (buffers.foldl (m2mCollect outCapacity) drained).out.length ≤ outCapacity := by
  induction buffers generalizing drained with
  | nil => exact h
  | cons buffer buffers ih =>
    refine ih ?_
    rw [m2mCollect]
    split_ifs with hfits
    · rw [List.length_append]
      exact Nat.not_lt.1 hfits.2
    · exact h

/-- **An access unit that is returned is not empty, and fits the buffer.** -/
theorem length_of_h264EncoderEncode
    (h : h264EncoderEncode backend ptsUs forceIdr outCapacity answers = some (outcome, backend', effects))
    (hresult : 0 < outcome.result) : 0 < outcome.out.length ∧ outcome.out.length ≤ outCapacity := by
  rcases backend with encoder | - <;> rcases answers with answers | answers
  · obtain ⟨rfl, -⟩ := Prod.mk.inj (Option.some.inj h)
    rcases m2mEncode_cases encoder ptsUs forceIdr outCapacity answers with
      ⟨-, he⟩ | ⟨-, he⟩ | ⟨index, encoder', ioctls, -, ⟨-, he⟩ | ⟨-, he⟩⟩
    · rw [he] at hresult
      exact absurd hresult (by simp)
    · rw [he] at hresult
      exact absurd hresult (by simp)
    · rw [he] at hresult
      exact absurd hresult (by simp)
    · rw [he, m2mDrainReady_eq] at hresult ⊢
      dsimp only at hresult ⊢
      refine ⟨?_, length_foldl_m2mCollect_le _ (Nat.zero_le _)⟩
      by_contra hzero
      rw [if_neg hzero] at hresult
      exact absurd hresult (by decide)
  · exact absurd h.symm (Option.some_ne_none _)
  · exact absurd h.symm (Option.some_ne_none _)
  · obtain ⟨rfl, -⟩ := Prod.mk.inj (Option.some.inj h)
    rw [x264Encode] at hresult ⊢
    split_ifs at hresult ⊢ with hneg hzero hlarge
    · exact absurd hresult (by decide)
    · exact absurd hresult (by decide)
    · exact absurd hresult (by decide)
    · rw [List.length_map, List.length_range]
      have hne := (not_or.1 hzero).1
      omega

/-! ### Which calls hand their frame over -/

/-- Only a frame that the device takes is handed over. -/
theorem any_handsForced_m2m {encoder encoder' : M2mBackend} {answers : M2mAnswers} {index : ℕ}
    {ioctls : List M2mIoctl}
    (hacq : m2mAcquireInputBuffer encoder answers = (some index, encoder', ioctls))
    (timestamp : ℕ × ℕ) (forceIdr ok : Bool) (captured : List (CaptureBuffer × Bool)) :
    ((ioctls ++ [M2mIoctl.qbufOutput index timestamp forceIdr ok] ++
      captured.map fun c ↦ M2mIoctl.dqbufCapture c.1 c.2).map H264Effect.m2m).any
        H264Effect.handsForced = (forceIdr && ok) := by
  have hcaptured : (captured.map fun c ↦ M2mIoctl.dqbufCapture c.1 c.2).any
      (H264Effect.handsForced ∘ .m2m) = false := by
    rw [List.any_eq_false]
    intro ioctl hioctl
    obtain ⟨c, -, rfl⟩ := List.mem_map.1 hioctl
    exact Bool.false_ne_true
  have hacquired : ioctls.any (H264Effect.handsForced ∘ .m2m) = false := by
    rcases m2mAcquireInputBuffer_cases encoder answers with h | ⟨n, -, h⟩ | ⟨i, h⟩ <;>
      rw [h] at hacq <;> obtain ⟨-, hrest⟩ := Prod.mk.inj hacq <;>
      obtain ⟨-, rfl⟩ := Prod.mk.inj hrest <;> rfl
  rw [List.any_map, List.any_append, List.any_append, hacquired, hcaptured, Bool.false_or,
    Bool.or_false]
  cases forceIdr <;> cases ok <;> rfl

/-- **A backend that has not given up either hands the frame over, with the request for a keyframe, or
returns `0` and hands nothing over.** -/
theorem any_handsForced (hbroken : ¬ backend.Broken)
    (h : h264EncoderEncode backend ptsUs forceIdr outCapacity answers =
      some (outcome, backend', effects)) :
    backend.Hands answers ∧ effects.any H264Effect.handsForced = forceIdr ∨
      ¬ backend.Hands answers ∧ effects.any H264Effect.handsForced = false ∧ outcome.result = 0 := by
  -- The answers are those of the back end, and in two of the four cases there is no result.
  rcases backend with encoder | - <;> rcases answers with answers | answers
  · obtain ⟨rfl, hrest⟩ := Prod.mk.inj (Option.some.inj h)
    obtain ⟨-, rfl⟩ := Prod.mk.inj hrest
    rcases m2mEncode_cases encoder ptsUs forceIdr outCapacity answers with
      ⟨he, -⟩ | ⟨hnone, he⟩ | ⟨index, encoder', ioctls, hacq, ⟨hq, he⟩ | ⟨hq, he⟩⟩
    · exact absurd he hbroken
    · refine .inr ⟨fun hhands ↦ hhands.1 hnone, ?_⟩
      rw [he]
      exact ⟨rfl, rfl⟩
    · refine .inr ⟨fun hhands ↦ Bool.false_ne_true (hq.symm.trans hhands.2), ?_⟩
      have heffects := any_handsForced_m2m hacq (m2mTimestamp ptsUs) forceIdr false []
      rw [List.map_nil, List.append_nil, Bool.and_false] at heffects
      rw [he]
      exact ⟨heffects, rfl⟩
    · refine .inl ⟨⟨by rw [hacq]; exact Option.some_ne_none _, hq⟩, ?_⟩
      obtain ⟨captured, hcaptured⟩ := exists_ioctls_foldl_m2mCollect answers.encoded
        ⟨[], false, ioctls ++ [.qbufOutput index (m2mTimestamp ptsUs) forceIdr true]⟩
      rw [he, m2mDrainReady_eq]
      dsimp only at hcaptured ⊢
      rw [hcaptured, any_handsForced_m2m hacq, Bool.and_true]
  · exact absurd h.symm (Option.some_ne_none _)
  · exact absurd h.symm (Option.some_ne_none _)
  · obtain ⟨-, hrest⟩ := Prod.mk.inj (Option.some.inj h)
    obtain ⟨-, rfl⟩ := Prod.mk.inj hrest
    exact .inl ⟨trivial, by cases forceIdr <;> rfl⟩

/-- A backend that has given up stops the thread. -/
theorem result_of_broken (hbroken : backend.Broken)
    (h : h264EncoderEncode backend ptsUs forceIdr outCapacity answers =
      some (outcome, backend', effects)) : outcome.result = -1 := by
  rcases backend with encoder | - <;> rcases answers with answers | answers
  · have he : m2mEncode encoder ptsUs forceIdr outCapacity answers = (⟨-1, [], false⟩, encoder, []) :=
      if_pos hbroken
    obtain ⟨rfl, -⟩ := Prod.mk.inj (Option.some.inj h)
    rw [he]
  · exact absurd h.symm (Option.some_ne_none _)
  · exact hbroken.elim
  · exact hbroken.elim

end Camstream
