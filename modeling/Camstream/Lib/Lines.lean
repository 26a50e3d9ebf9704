import Mathlib.Data.List.DropRight

/-!
# Text in lines

A text cut at a separator (`split`), lines that end in a line feed with carriage returns in front of it
(`lines`, and `crlf` to write them), and a list of lines cut into sections that each start at a line of a
certain kind (`sections`).

A program that reads such a text line by line carries the section along: `labelled` gives each line the
label of its section, and `filter_labelled` says that the lines with one label are those of the sections
that have it.
-/

namespace Lines

section Split

variable {α : Type*} [DecidableEq α] {sep : α}

/-- The pieces of a text between separators. Behind a separator at the end there is no piece. -/
def split (sep : α) : List α → List (List α)
  | [] => []
  | c :: text =>
    if c = sep then [] :: split sep text
    else
      match split sep text with
      | [] => [[c]]
      | piece :: pieces => (c :: piece) :: pieces

/-- A text is split at its first separator, -/
theorem split_append_sep {piece : List α} (h : sep ∉ piece) (text : List α) :
    split sep (piece ++ sep :: text) = piece :: split sep text := by
  induction piece with
  | nil => exact if_pos rfl
  | cons c piece ih =>
    obtain ⟨hc, hpiece⟩ := List.ne_and_not_mem_of_not_mem_cons h
    rw [List.cons_append, split, if_neg hc.symm, ih hpiece]

/-- and not at all without one. -/
theorem split_of_notMem {text : List α} (hne : text ≠ []) (h : sep ∉ text) :
    split sep text = [text] := by
  induction text with
  | nil => exact absurd rfl hne
  | cons c text ih =>
    obtain ⟨hc, htext⟩ := List.ne_and_not_mem_of_not_mem_cons h
    rw [split, if_neg hc.symm]
    cases text with
    | nil => rfl
    | cons c' text => rw [ih (List.cons_ne_nil c' text) htext]

/-- The first piece, and the text behind it. -/
theorem split_of_ne_nil {text : List α} (hne : text ≠ []) :
    split sep text =
      text.takeWhile (· ≠ sep) :: split sep ((text.dropWhile (· ≠ sep)).tail) := by
  have hpiece : sep ∉ text.takeWhile (· ≠ sep) := fun h ↦ by
    simpa using List.mem_takeWhile_imp h
  have hsplit : text.takeWhile (· ≠ sep) ++ text.dropWhile (· ≠ sep) = text :=
    List.takeWhile_append_dropWhile
  rcases hrest : text.dropWhile (· ≠ sep) with - | ⟨c, rest⟩ <;> rw [hrest] at hsplit
  · rw [List.append_nil] at hsplit
    rw [hsplit] at hpiece ⊢
    exact split_of_notMem hne hpiece
  · have hc : c = sep := by
      have := List.head?_dropWhile_not (· ≠ sep) text
      rw [hrest] at this
      simpa using this
    conv_lhs => rw [← hsplit, hc]
    exact split_append_sep hpiece rest

end Split

/-! ### Lines -/

/-- The lines of a text. A line ends in a line feed or with the text; carriage returns at its end are not
part of it. -/
def lines (text : List UInt8) : List (List UInt8) :=
  (split 10 text).map (List.rdropWhile (· = 13))

/-- What is dropped at the end depends on the bytes that are there only. -/
theorem rdropWhile_congr {α : Type*} {p q : α → Bool} {l : List α} (h : ∀ c ∈ l, p c = q c) :
    l.rdropWhile p = l.rdropWhile q := by
  induction l using List.reverseRecOn with
  | nil => rfl
  | append_singleton l c ih =>
    rw [List.forall_mem_append, List.forall_mem_singleton] at h
    rw [List.rdropWhile_concat, List.rdropWhile_concat, h.2, ih h.1]

/-- Lines as a text, each ended by a carriage return and a line feed. -/
def crlf (ls : List (List UInt8)) : List UInt8 :=
  ls.flatMap (· ++ [13, 10])

@[simp]
theorem crlf_append (ls ls' : List (List UInt8)) : crlf (ls ++ ls') = crlf ls ++ crlf ls' :=
  List.flatMap_append

/-- Each line takes its terminator. -/
theorem length_crlf_le {ls : List (List UInt8)} {n : ℕ} (h : ∀ l ∈ ls, l.length ≤ n) :
    (crlf ls).length ≤ ls.length * (n + 2) := by
  induction ls with
  | nil => exact Nat.zero_le _
  | cons l ls ih =>
    rw [List.forall_mem_cons] at h
    have hrest := ih h.2
    have hl := h.1
    have htext : (crlf (l :: ls)).length = l.length + 2 + (crlf ls).length := by
      rw [crlf, List.flatMap_cons, List.length_append, List.length_append, crlf]
      rfl
    rw [htext, List.length_cons, Nat.add_one_mul]
    omega

/-- A string that stays within one line: no carriage return, no line feed. -/
def IsLine (l : List UInt8) : Prop :=
  13 ∉ l ∧ 10 ∉ l

instance (l : List UInt8) : Decidable (IsLine l) :=
  inferInstanceAs (Decidable (13 ∉ l ∧ 10 ∉ l))

theorem isLine_append {l l' : List UInt8} : IsLine (l ++ l') ↔ IsLine l ∧ IsLine l' := by
  rw [IsLine, List.mem_append, List.mem_append, not_or, not_or]
  exact and_and_and_comm

/-- The lines of a text are the lines it was written from. -/
theorem lines_crlf {ls : List (List UInt8)} (h : ∀ l ∈ ls, IsLine l) : lines (crlf ls) = ls := by
  induction ls with
  | nil => rfl
  | cons l ls ih =>
    rw [List.forall_mem_cons] at h
    obtain ⟨⟨hcr, hlf⟩, hls⟩ := h
    have htext : crlf (l :: ls) = (l ++ [13]) ++ 10 :: crlf ls := by
      rw [crlf, List.flatMap_cons, crlf]
      simp
    have hpiece : 10 ∉ l ++ [13] := by
      rw [List.mem_append, not_or]
      exact ⟨hlf, by decide⟩
    have hself : l.rdropWhile (fun c ↦ decide (c = 13)) = l := by
      refine List.rdropWhile_eq_self_iff.2 fun hne hlast ↦ ?_
      exact hcr (of_decide_eq_true hlast ▸ List.getLast_mem hne)
    rw [lines, htext, split_append_sep hpiece, List.map_cons,
      List.rdropWhile_concat_pos _ _ _ (by decide), hself]
    exact congrArg _ (ih hls)

/-! ### Sections -/

section Sections

variable {α β : Type*} {isStart : α → Bool}

/-- The sections of a list of lines: each starts at a line that `isStart` accepts and ends before the
next one. What stands before the first is in none. -/
def sections (isStart : α → Bool) : List α → List (List α)
  | [] => []
  | l :: ls =>
    if isStart l then (l :: ls.takeWhile fun l ↦ !isStart l) :: sections isStart ls
    else sections isStart ls

/-- Lines in front of the first start belong to no section. -/
theorem sections_append_left {ls : List α} (h : ∀ l ∈ ls, isStart l = false) (ls' : List α) :
    sections isStart (ls ++ ls') = sections isStart ls' := by
  induction ls with
  | nil => rfl
  | cons l ls ih =>
    rw [List.forall_mem_cons] at h
    rw [List.cons_append, sections, if_neg (Bool.eq_false_iff.1 h.1), ih h.2]

/-- One section. -/
theorem sections_eq_singleton {l : α} {ls : List α} (hl : isStart l = true)
    (h : ∀ l ∈ ls, isStart l = false) : sections isStart (l :: ls) = [l :: ls] := by
  have hnone : sections isStart ls = [] := by
    rw [← List.append_nil ls, sections_append_left h]
    rfl
  have hall : ls.takeWhile (fun l ↦ !isStart l) = ls :=
    List.takeWhile_eq_self_iff.2 fun x hx ↦ by rw [h x hx]; rfl
  rw [sections, if_pos hl, hnone, hall]

/-- A section in front of others. -/
theorem sections_cons_append {l l' : α} {ls ls' : List α} (hl : isStart l = true)
    (h : ∀ l ∈ ls, isStart l = false) (hl' : isStart l' = true) :
    sections isStart (l :: ls ++ l' :: ls') = (l :: ls) :: sections isStart (l' :: ls') := by
  have hall : (ls ++ l' :: ls').takeWhile (fun l ↦ !isStart l) = ls := by
    rw [List.takeWhile_append_of_pos fun x hx ↦ by rw [h x hx]; rfl,
      List.takeWhile_cons_of_neg (by rw [hl']; decide), List.append_nil]
  rw [List.cons_append, sections, if_pos hl, hall, sections_append_left h]

/-- What stands before the first section, and the sections, are all the lines. -/
theorem takeWhile_append_flatten_sections (isStart : α → Bool) (ls : List α) :
    ls.takeWhile (fun l ↦ !isStart l) ++ (sections isStart ls).flatten = ls := by
  induction ls with
  | nil => rfl
  | cons l ls ih =>
    rw [sections]
    rcases hl : isStart l with - | -
    · rw [List.takeWhile_cons_of_pos (by rw [hl]; rfl), if_neg Bool.false_ne_true, List.cons_append, ih]
    · rw [List.takeWhile_cons_of_neg (by rw [hl]; decide), if_pos rfl, List.nil_append,
        List.flatten_cons, List.cons_append, ih]

/-- Each section starts with its line. -/
theorem isStart_of_mem_sections {ls s : List α} (h : s ∈ sections isStart ls) :
    ∃ l body, s = l :: body ∧ isStart l = true := by
  fun_induction sections isStart ls with
  | case1 => exact absurd h List.not_mem_nil
  | case2 l ls hl ih =>
    rcases List.mem_cons.1 h with rfl | h
    · exact ⟨l, _, rfl, hl⟩
    · exact ih h
  | case3 l ls hl ih => exact ih h

/-- Every line with the label of its section, when `b` is the label of what comes first. -/
def labelled (isStart : α → Bool) (label : α → β) : β → List α → List (α × β)
  | _, [] => []
  | b, l :: ls =>
    let b := if isStart l then label l else b
    (l, b) :: labelled isStart label b ls

variable {label : α → β}

/-- Lines that start no section have the label of the one before. -/
theorem labelled_of_forall {ls : List α} (h : ∀ l ∈ ls, isStart l = false) (b : β) (ls' : List α) :
    labelled isStart label b (ls ++ ls') =
      ls.map (fun l ↦ (l, b)) ++ labelled isStart label b ls' := by
  induction ls with
  | nil => rfl
  | cons l ls ih =>
    rw [List.forall_mem_cons] at h
    rw [List.cons_append, labelled, if_neg (Bool.eq_false_iff.1 h.1), ih h.2]
    rfl

/-- The lines of a section have its label. -/
theorem labelled_section {l : α} {ls : List α} (hl : isStart l = true)
    (h : ∀ l ∈ ls, isStart l = false) (b : β) (ls' : List α) :
    labelled isStart label b (l :: ls ++ ls') =
      (l :: ls).map (fun x ↦ (x, label l)) ++ labelled isStart label (label l) ls' := by
  rw [List.cons_append, labelled, if_pos hl, labelled_of_forall h]
  rfl

/-- **The lines with one label** are those of the sections that have it, and what comes first if that has
it. -/
theorem filter_labelled [DecidableEq β] (b m : β) (ls : List α) :
    ((labelled isStart label b ls).filter fun x ↦ x.2 = m).map Prod.fst =
      (if b = m then ls.takeWhile fun l ↦ !isStart l else []) ++
        ((sections isStart ls).filter fun s ↦ s.head?.map label = some m).flatten := by
  induction ls generalizing b with
  | nil => simp [labelled, sections]
  | cons l ls ih =>
    rw [labelled, sections]
    -- A line inside a section has the label that the section began with.
    rcases hl : isStart l with - | -
    · have htake : (l :: ls).takeWhile (fun l ↦ !isStart l) =
          l :: ls.takeWhile fun l ↦ !isStart l :=
        List.takeWhile_cons_of_pos (by rw [hl]; rfl)
      rw [if_neg Bool.false_ne_true, if_neg Bool.false_ne_true, htake, List.filter_cons]
      by_cases hb : b = m
      · rw [if_pos (decide_eq_true hb), List.map_cons, ih, if_pos hb, if_pos hb]
        rfl
      · rw [if_neg (by simpa using hb), ih, if_neg hb, if_neg hb]
    · have htake : (l :: ls).takeWhile (fun l ↦ !isStart l) = [] :=
        List.takeWhile_cons_of_neg (by rw [hl]; decide)
      rw [if_pos rfl, if_pos rfl, htake, ite_self, List.nil_append, List.filter_cons,
        List.filter_cons]
      by_cases hm : label l = m
      · rw [if_pos (decide_eq_true hm), if_pos (by simpa using hm), List.map_cons, ih, if_pos hm]
        rfl
      · rw [if_neg (by simpa using hm), if_neg (by simpa using hm), ih, if_neg hm]
        rfl

end Sections

example : sections (fun n ↦ n % 10 == 0) [1, 10, 11, 20, 30, 31] = [[10, 11], [20], [30, 31]] := by
  decide

end Lines
