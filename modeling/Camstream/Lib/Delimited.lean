import Mathlib.Data.List.Infix

/-!
# Searching for a delimited word

A search for a word between two delimiters, in a text that has such delimiters in other places too. Where
each delimiter inside a text has an escape character in front, the word is found in the text only at its
end (`Escaped.behind_eq`); between two texts it is found only if it is all that stands there
(`behind_delimited`).
-/

namespace Delimited

variable {α : Type*}

/-- What stands behind the first occurrence of a word. -/
def behind [DecidableEq α] (needle : List α) : List α → Option (List α)
  | [] => if needle <+: [] then some [] else none
  | c :: s => if needle <+: c :: s then some ((c :: s).drop needle.length) else behind needle s

/-- A word between two delimiters. -/
def delimited (q : α) (w : List α) : List α :=
  q :: (w ++ [q])

/-- Each delimiter in a text has the escape character in front. -/
inductive Escaped (q e : α) : List α → Prop
  | nil : Escaped q e []
  | char {c : α} {t : List α} : c ≠ q → Escaped q e t → Escaped q e (c :: t)
  | delimiter {t : List α} : Escaped q e t → Escaped q e (e :: q :: t)

/-- A text that begins and ends with a word, or ends with one behind a delimiter. -/
def EndsIn (q : α) (w t : List α) : Prop :=
  q :: w <:+ q :: t

instance [DecidableEq α] (q : α) (w t : List α) : Decidable (EndsIn q w t) :=
  inferInstanceAs (Decidable (q :: w <:+ q :: t))

variable {q e : α} {w : List α}

/-- Of two texts in front of a delimiter, neither goes on behind the other. -/
theorem append_prefix_iff {s : List α} (hs : q ∉ s) (hw : q ∉ w) (b : List α) :
    w ++ [q] <+: s ++ q :: b ↔ s = w := by
  induction s generalizing w with
  | nil =>
    cases w with
    | nil => exact iff_of_true (List.prefix_append [q] b) rfl
    | cons c w =>
      refine iff_of_false (fun h ↦ ?_) (List.cons_ne_nil c w).symm
      exact hw ((List.cons_prefix_cons.1 h).1 ▸ List.mem_cons_self)
  | cons d s ih =>
    obtain ⟨hd, hs⟩ := List.ne_and_not_mem_of_not_mem_cons hs
    cases w with
    | nil => exact iff_of_false (fun h ↦ hd (List.cons_prefix_cons.1 h).1) (List.cons_ne_nil d s)
    | cons c w =>
      rw [List.cons_append, List.cons_append, List.cons_prefix_cons, List.cons.injEq,
        ih hs (List.not_mem_of_not_mem_cons hw), eq_comm]

theorem endsIn_iff_of_notMem {t : List α} (ht : q ∉ t) : EndsIn q w t ↔ t = w := by
  rw [EndsIn, List.suffix_cons_iff, List.cons.injEq, and_iff_right rfl, eq_comm]
  exact or_iff_left fun h ↦ ht (h.subset List.mem_cons_self)

/-- Only what stands behind the last delimiter counts. -/
theorem endsIn_append_iff (hw : q ∉ w) (p t : List α) : EndsIn q w (p ++ q :: t) ↔ EndsIn q w t := by
  have hsuffix : q :: t <:+ q :: (p ++ q :: t) := ⟨q :: p, List.cons_append⟩
  refine ⟨fun h ↦ ?_, fun h ↦ h.trans hsuffix⟩
  refine (List.suffix_or_suffix_of_suffix h hsuffix).elim id fun hlong ↦ ?_
  obtain heq | hlong := List.suffix_cons_iff.1 hlong
  · rw [EndsIn, heq]
  · exact absurd (hlong.subset List.mem_cons_self) hw

/-! ### The search -/

variable [DecidableEq α]

theorem behind_cons_of_not {needle : List α} {c : α} {s : List α} (h : ¬ needle <+: c :: s) :
    behind needle (c :: s) = behind needle s :=
  if_neg h

/-- No occurrence begins in a piece without the delimiter. -/
theorem behind_append {p : List α} (hp : q ∉ p) (b : List α) :
    behind (delimited q w) (p ++ b) = behind (delimited q w) b := by
  induction p with
  | nil => rfl
  | cons c p ih =>
    obtain ⟨hc, hp⟩ := List.ne_and_not_mem_of_not_mem_cons hp
    have hno : ¬ delimited q w <+: c :: (p ++ b) := fun h ↦ hc (List.cons_prefix_cons.1 h).1
    rw [List.cons_append, behind_cons_of_not hno, ih hp]

/-- Without a delimiter there is nothing to find. -/
theorem behind_eq_none {s : List α} (hs : q ∉ s) : behind (delimited q w) s = none := by
  rw [← List.append_nil s, behind_append hs]
  exact if_neg fun h ↦ List.cons_ne_nil _ _ (List.prefix_nil.1 h)

/-- **Between two delimiters** the word is found if it is all that stands there. -/
theorem behind_delimited {s : List α} (hs : q ∉ s) (hw : q ∉ w) (b : List α) :
    behind (delimited q w) (q :: (s ++ q :: b)) =
      if s = w then some b else behind (delimited q w) (q :: b) := by
  have hpre : delimited q w <+: q :: (s ++ q :: b) ↔ s = w := by
    rw [delimited, List.cons_prefix_cons, and_iff_right rfl, append_prefix_iff hs hw]
  rw [behind]
  split_ifs with hfound heq heq
  · have hdrop : q :: (s ++ q :: b) = delimited q w ++ b := by
      rw [heq, delimited, List.cons_append, List.append_assoc, List.singleton_append]
    rw [hdrop, List.drop_left]
  · exact absurd (hpre.1 hfound) heq
  · exact absurd (hpre.2 heq) hfound
  · exact behind_append hs (q :: b)

/-- One delimiter alone is not enough. -/
theorem behind_cons_eq_none {s : List α} (hs : q ∉ s) : behind (delimited q w) (q :: s) = none := by
  have hno : ¬ delimited q w <+: q :: s := by
    rw [delimited, List.cons_prefix_cons, and_iff_right rfl]
    exact fun h ↦ hs (h.subset (List.mem_append_right w (List.mem_singleton_self q)))
  rw [behind_cons_of_not hno, behind_eq_none hs]

/-- The search in a text, with a piece in front that has no delimiter. -/
theorem Escaped.behind_append_eq {t : List α} (h : Escaped q e t) (hw : q ∉ w) (he : ¬ [e] <:+ w)
    (hqe : q ≠ e) {p : List α} (hp : q ∉ p) (b : List α) :
    behind (delimited q w) (q :: (p ++ t ++ q :: b)) =
      if EndsIn q w (p ++ t) then some b else behind (delimited q w) (q :: b) := by
  induction h generalizing p with
  | nil =>
    rw [List.append_nil, behind_delimited hp hw]
    simp only [endsIn_iff_of_notMem hp]
  | char hc _ ih =>
    have hp' : q ∉ p ++ [_] := fun hmem ↦
      (List.mem_append.1 hmem).elim hp fun hmem ↦ hc (List.mem_singleton.1 hmem).symm
    rw [List.append_cons p, ih hp']
  | @delimiter t _ ih =>
    have hp' : q ∉ p ++ [e] := fun hmem ↦
      (List.mem_append.1 hmem).elim hp fun hmem ↦ hqe (List.mem_singleton.1 hmem)
    -- The piece in front of an escaped delimiter ends in the escape character.
    have hne : p ++ [e] ≠ w := fun heq ↦ he ⟨p, heq⟩
    rw [List.append_cons p, List.append_assoc, List.cons_append, behind_delimited hp' hw, if_neg hne]
    simp only [endsIn_append_iff hw]
    exact ih List.not_mem_nil

/-- **In an escaped text** the word is found if the text ends in it. -/
theorem Escaped.behind_eq {t : List α} (h : Escaped q e t) (hw : q ∉ w) (he : ¬ [e] <:+ w)
    (hqe : q ≠ e) (b : List α) :
    behind (delimited q w) (q :: (t ++ q :: b)) =
      if EndsIn q w t then some b else behind (delimited q w) (q :: b) :=
  h.behind_append_eq hw he hqe List.not_mem_nil b

end Delimited
