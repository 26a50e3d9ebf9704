import Camstream.Rtp.Packets

/-!
# The marker bit

The marker is meant to stand on the last packet of an access unit and on no other. The packetizer
decides it by looking one NAL unit ahead, while its walk skips empty units; the two agree unless an
empty unit separates two non-empty ones, and then the lookahead sees the empty unit, takes the
current one for the last, and a marker goes out in the middle of the access unit.

`markerLaw_iff` is the exact condition, for every packetizer and every byte string: the law holds if
and only if no empty unit stands between two non-empty ones (`NoInnerEmpty`). The proof follows the
walk: `onlyLast_auPlan_cons` is one unit of it.
-/

namespace Camstream

open AnnexB

/-! ### Markers of a list of packets -/

/-- The last entry is `true` and no other. -/
def OnlyLast (ms : List Bool) : Prop :=
  ∀ i (h : i < ms.length), ms[i] = true ↔ i + 1 = ms.length

theorem onlyLast_nil : OnlyLast [] := fun _ h ↦ absurd h (Nat.not_lt_zero _)

theorem onlyLast_cons {m : Bool} {ms : List Bool} :
    OnlyLast (m :: ms) ↔ (m = true ↔ ms = []) ∧ OnlyLast ms := by
  constructor
  · intro h
    constructor
    · have h₀ := h 0 (Nat.zero_lt_succ _)
      rw [List.getElem_cons_zero] at h₀
      rw [h₀, List.length_cons, ← List.length_eq_zero_iff]
      omega
    · intro i hi
      have hs := h (i + 1) (Nat.succ_lt_succ hi)
      rw [List.getElem_cons_succ] at hs
      rw [hs, List.length_cons]
      omega
  · rintro ⟨hm, hms⟩ i hi
    cases i with
    | zero =>
      rw [List.getElem_cons_zero, hm, List.length_cons, ← List.length_eq_zero_iff]
      omega
    | succ i =>
      rw [List.getElem_cons_succ, hms i (Nat.lt_of_succ_lt_succ hi), List.length_cons]
      omega

/-- Unmarked packets in front change nothing, as long as something follows. -/
theorem onlyLast_replicate_append {k : ℕ} {ms : List Bool} (h : ms ≠ []) :
    OnlyLast (List.replicate k false ++ ms) ↔ OnlyLast ms := by
  induction k with
  | zero => rfl
  | succ k ih =>
    rw [List.replicate_succ, List.cons_append, onlyLast_cons, ih]
    have : List.replicate k false ++ ms ≠ [] := List.append_ne_nil_of_right_ne_nil _ h
    simp [this]

/-- **The marker law** for the sink calls of one access unit: the marker argument and the marker bit
on the wire are set on the last packet and on no other. -/
def MarkerLaw (calls : List SinkCall) : Prop :=
  ∀ i (h : i < calls.length),
    (calls[i].marker = true ↔ i + 1 = calls.length) ∧
      (calls[i].packet.getD 1 0 &&& 0x80 ≠ 0 ↔ i + 1 = calls.length)

instance (calls : List SinkCall) : Decidable (MarkerLaw calls) :=
  inferInstanceAs (Decidable (∀ i (h : i < calls.length),
    (calls[i].marker = true ↔ i + 1 = calls.length) ∧
      (calls[i].packet.getD 1 0 &&& 0x80 ≠ 0 ↔ i + 1 = calls.length)))

/-- On well-formed packets the bit on the wire says nothing beyond the marker argument. -/
theorem markerLaw_iff_onlyLast {calls : List SinkCall} (h : ∀ c ∈ calls, c.WellFormed) :
    MarkerLaw calls ↔ OnlyLast (calls.map SinkCall.marker) := by
  constructor
  · intro hlaw i hi
    have hi' : i < calls.length := by rwa [List.length_map] at hi
    simp only [List.getElem_map, List.length_map]
    exact (hlaw i hi').1
  · intro hlast i hi
    have hmark := hlast i (by rwa [List.length_map])
    simp only [List.getElem_map, List.length_map] at hmark
    refine ⟨hmark, ?_⟩
    rw [← hmark, ← (h _ (List.getElem_mem hi)).marker_eq, decide_eq_true_eq]

/-! ### Markers of a plan -/

/-- The packets of one NAL unit: all unmarked but the last, which has the marker iff nothing
follows. -/
theorem fuAPlan_markers (nal : List UInt8) (hasMore : Bool) (offset : ℕ)
    (h : offset < nal.length) :
    ∃ k, (fuAPlan nal hasMore offset).map Prod.snd = List.replicate k false ++ [!hasMore] := by
  fun_induction fuAPlan nal hasMore offset with
  | case1 offset _ last take ih =>
    by_cases hlast : nal.length - offset ≤ 1186
    · have hl : last = true := decide_eq_true hlast
      have htake : take = nal.length - offset := Nat.min_eq_left hlast
      have hend : fuAPlan nal hasMore (offset + take) = [] := by
        rw [fuAPlan, if_neg (by omega)]
      refine ⟨0, ?_⟩
      rw [hend, List.map_singleton, hl, Bool.true_and]
      rfl
    · have hl : last = false := decide_eq_false hlast
      have htake : take = 1186 := Nat.min_eq_right (by omega)
      obtain ⟨k, hk⟩ := ih (by omega)
      refine ⟨k + 1, ?_⟩
      rw [List.map_cons, hk, hl, Bool.false_and, List.replicate_succ, List.cons_append]
  | case2 offset hge => exact absurd h hge

theorem nalPlan_markers (nal : List UInt8) (hasMore : Bool) :
    ∃ k, (nalPlan nal hasMore).map Prod.snd = List.replicate k false ++ [!hasMore] := by
  rw [nalPlan]
  split_ifs with hlen
  · exact ⟨0, rfl⟩
  · exact fuAPlan_markers nal hasMore 1 (by omega)

theorem nalPlan_ne_nil (nal : List UInt8) (hasMore : Bool) :
    nalPlan nal hasMore ≠ [] := by
  obtain ⟨k, hk⟩ := nalPlan_markers nal hasMore
  intro he
  rw [he, List.map_nil] at hk
  simp at hk

/-- Nothing is sent exactly when every unit is empty. -/
theorem auPlan_eq_nil {us : List (List UInt8)} : auPlan us = [] ↔ ∀ u ∈ us, u = [] := by
  induction us with
  | nil => simp [auPlan]
  | cons u us ih =>
    rw [auPlan]
    split_ifs with hu
    · simp [ih, hu]
    · simp [nalPlan_ne_nil, hu]

/-- **One unit of the walk.** A non-empty unit gets the marker right iff the lookahead answers no
exactly when nothing non-empty is left. -/
theorem onlyLast_auPlan_cons {u : List UInt8} {us : List (List UInt8)} (hu : u ≠ []) :
    OnlyLast ((auPlan (u :: us)).map Prod.snd) ↔
      (nextNonempty us = false ↔ ∀ v ∈ us, v = []) ∧ OnlyLast ((auPlan us).map Prod.snd) := by
  obtain ⟨k, hk⟩ := nalPlan_markers u (nextNonempty us)
  rw [auPlan, if_neg hu, List.map_append, hk, List.append_assoc,
    onlyLast_replicate_append (by simp), List.singleton_append, onlyLast_cons, List.map_eq_nil_iff,
    auPlan_eq_nil]
  simp

/-! ### The law and its exact condition -/

/-- No empty unit stands between two non-empty ones: after a non-empty unit, an empty one is followed
by empty ones only. -/
def NoInnerEmpty (us : List (List UInt8)) : Prop :=
  ∀ pre u post, us = pre ++ u :: [] :: post → u ≠ [] → ∀ v ∈ post, v = []

theorem noInnerEmpty_nil : NoInnerEmpty [] := by
  intro pre u post h
  simp at h

theorem noInnerEmpty_cons {u : List UInt8} {us : List (List UInt8)} :
    NoInnerEmpty (u :: us) ↔
      (u ≠ [] → ∀ post, us = [] :: post → ∀ v ∈ post, v = []) ∧ NoInnerEmpty us := by
  constructor
  · intro h
    refine ⟨fun hu post hpost ↦ h [] u post (by rw [hpost, List.nil_append]) hu, ?_⟩
    intro pre w post hw
    exact h (u :: pre) w post (by rw [hw, List.cons_append])
  · rintro ⟨hhead, htail⟩ pre w post hw hne
    cases pre with
    | nil =>
      rw [List.nil_append, List.cons.injEq] at hw
      obtain ⟨rfl, hus⟩ := hw
      exact hhead hne post hus
    | cons a pre =>
      rw [List.cons_append, List.cons.injEq] at hw
      exact htail pre w post hw.2 hne

/-- The lookahead errs exactly when an empty unit hides a non-empty one. -/
theorem nextNonempty_eq_false_iff {us : List (List UInt8)} :
    (nextNonempty us = false ↔ ∀ v ∈ us, v = []) ↔
      ∀ post, us = [] :: post → ∀ v ∈ post, v = [] := by
  match us with
  | [] => simp [nextNonempty]
  | [] :: us => simp [nextNonempty]
  | (a :: l) :: us => simp [nextNonempty]

theorem onlyLast_auPlan_iff (us : List (List UInt8)) :
    OnlyLast ((auPlan us).map Prod.snd) ↔ NoInnerEmpty us := by
  induction us with
  | nil => exact ⟨fun _ ↦ noInnerEmpty_nil, fun _ ↦ onlyLast_nil⟩
  | cons u us ih =>
    by_cases hu : u = []
    · rw [auPlan, if_pos hu, ih, noInnerEmpty_cons]
      exact ⟨fun h ↦ ⟨fun hne ↦ absurd hu hne, h⟩, fun h ↦ h.2⟩
    · rw [onlyLast_auPlan_cons hu, ih, noInnerEmpty_cons, nextNonempty_eq_false_iff]
      exact ⟨fun h ↦ ⟨fun _ ↦ h.1, h.2⟩, fun h ↦ ⟨h.1 hu, h.2⟩⟩

/-- **The marker law holds exactly when no empty unit stands between two non-empty ones**, for every
packetizer state, timestamp and access unit. -/
theorem markerLaw_iff (p : RtpH264) (au : List UInt8) (ptsUs : UInt64) :
    MarkerLaw (sinkCalls p au ptsUs) ↔ NoInnerEmpty (units au) := by
  rw [markerLaw_iff_onlyLast (sinkCalls_wellFormed p au ptsUs), sinkCalls_markers,
    onlyLast_auPlan_iff]

/-- An empty unit between two slices: both packets carry the marker. -/
theorem not_markerLaw_inner_empty :
    ¬ MarkerLaw (sinkCalls rtpH264Create [0, 0, 1, 0x41, 0, 0, 1, 0, 0, 1, 0x42] 0) := by
  decide +kernel

end Camstream
