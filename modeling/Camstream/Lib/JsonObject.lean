import Camstream.Lib.JsonString

/-!
# Flat JSON objects

An object whose members are strings, as bytes, with white space between its tokens. `found_text` says what
a search for a quoted word finds in it: the first place along the members where the word stands between two
quotation marks. That is a name or value that ends in the word, behind its opening quotation mark or behind
an escaped one, or what stands between two strings, if the word is made of white space and one colon or
comma.
-/

namespace JsonObject

open Delimited JsonString

/-- The characters of white space. -/
def blanks : List UInt8 :=
  [0x20, 9, 10, 13]

/-- White space between two tokens. -/
abbrev Blanks : Type :=
  {s : List UInt8 // ∀ c ∈ s, c ∈ blanks}

/-- A string for an ASCII text. -/
structure Literal where
  text : List UInt8
  value : List UInt8
  denotes : Denotes text value
  ascii : ∀ c ∈ value, c < 0x80

/-- A text that is written as it is. -/
def Literal.plain (s : List UInt8) (h : ∀ c ∈ s, IsUnescaped c ∧ c < 0x80) : Literal where
  text := s
  value := s
  denotes := denotes_self h
  ascii := fun c hc ↦ (h c hc).2

structure Member where
  before : Blanks
  name : Literal
  beforeColon : Blanks
  afterColon : Blanks
  value : Literal
  after : Blanks

/-- What stands between the name and the value. -/
def Member.colon (m : Member) : List UInt8 :=
  m.beforeColon.1 ++ 0x3A :: m.afterColon.1

def Member.text (m : Member) : List UInt8 :=
  m.before.1 ++ (delimited 0x22 m.name.text ++ (m.colon ++ (delimited 0x22 m.value.text ++ m.after.1)))

/-- An object; `inner` stands behind the brace, and is all there is between the braces of an empty one. -/
structure FlatObject where
  lead : Blanks
  inner : Blanks
  members : List Member
  trail : Blanks

def FlatObject.text (o : FlatObject) : List UInt8 :=
  o.lead.1 ++ 0x7B :: (o.inner.1 ++ ([0x2C].intercalate (o.members.map Member.text) ++ 0x7D :: o.trail.1))

/-- The members of a name. -/
def FlatObject.named (o : FlatObject) (f : List UInt8) : List Member :=
  o.members.filter fun m ↦ m.name.value = f

/-- A word that can stand between two quotation marks, and does not end in the escape of the second. -/
structure Searchable (w : List UInt8) : Prop where
  quote : 0x22 ∉ w
  backslash : ¬ [0x5C] <:+ w

/-- A place between two quotation marks: at the end of a name or a value, between the name and the value of a
member, or between two members. -/
inductive Place
  | name (m : Member)
  | colon (m : Member) (next : Option Member)
  | value (m : Member)
  | comma (m next : Member)

/-- The first place where a word stands. -/
def firstPlace (w : List UInt8) : List Member → Option Place
  | [] => none
  | m :: ms =>
    if EndsIn 0x22 w m.name.text then some (.name m)
    else if m.colon = w then some (.colon m ms.head?)
    else if EndsIn 0x22 w m.value.text then some (.value m)
    else
      match ms with
      | [] => none
      | next :: _ =>
        if m.after.1 ++ 0x2C :: next.before.1 = w then some (.comma m next) else firstPlace w ms

/-- What stands behind a place, and the quotation mark there. -/
def Place.Behind : Place → List UInt8 → Prop
  | .name m, t => ∃ rest, t = m.colon ++ 0x22 :: (m.value.text ++ 0x22 :: rest)
  | .colon m none, t => ∃ rest, 0x22 ∉ m.after.1 ++ rest ∧ t = m.value.text ++ 0x22 :: (m.after.1 ++ rest)
  | .colon m (some next), t =>
    ∃ rest, t = m.value.text ++ 0x22 :: (m.after.1 ++ 0x2C :: next.before.1 ++ 0x22 :: rest)
  | .value m, t => ∃ c ∈ [0x2C, 0x7D], ∃ rest, t = m.after.1 ++ c :: rest
  | .comma _ next, t => ∃ rest, t = next.name.text ++ 0x22 :: (next.colon ++ 0x22 :: rest)

/-- What stands behind a word that is looked for along the members. -/
inductive Found (w : List UInt8) (ms : List Member) : Option (List UInt8) → Prop
  | none : firstPlace w ms = none → Found w ms none
  | some {place : Place} {t : List UInt8} : firstPlace w ms = some place → place.Behind t → Found w ms (some t)

variable {w : List UInt8}

/-- Why a place is one. -/
def Place.Holds (w : List UInt8) (ms : List Member) : Place → Prop
  | .name m => m ∈ ms ∧ EndsIn 0x22 w m.name.text
  | .colon m _ => m.colon = w
  | .value m => m ∈ ms ∧ EndsIn 0x22 w m.value.text
  | .comma m next => m.after.1 ++ 0x2C :: next.before.1 = w

/-- A place is found behind more members too. -/
theorem Place.Holds.cons {place : Place} {ms : List Member} (h : place.Holds w ms) (m : Member) :
    place.Holds w (m :: ms) := by
  cases place with
  | name | value => exact ⟨List.mem_cons_of_mem _ h.1, h.2⟩
  | colon | comma => exact h

/-- What the first place says holds of the members. -/
theorem firstPlace_cases {ms : List Member} {place : Place} (h : firstPlace w ms = some place) :
    place.Holds w ms := by
  induction ms with
  | nil => cases h
  | cons m ms ih =>
    rw [firstPlace.eq_def] at h
    dsimp only at h
    split_ifs at h with hname hcolon hvalue
    · obtain rfl := Option.some.inj h
      exact ⟨List.mem_cons_self, hname⟩
    · obtain rfl := Option.some.inj h
      exact hcolon
    · obtain rfl := Option.some.inj h
      exact ⟨List.mem_cons_self, hvalue⟩
    · cases ms with
      | nil => cases h
      | cons next ms =>
        dsimp only at h
        split_ifs at h with hcomma
        · obtain rfl := Option.some.inj h
          exact hcomma
        · exact (ih h).cons m

theorem notMem_of_blanks {c : UInt8} (hc : c ∉ blanks) (s : Blanks) : c ∉ s.1 :=
  fun h ↦ hc (s.2 c h)

/-- A single character with white space around it. -/
theorem notMem_separator {q c : UInt8} (hq : q ∉ blanks) (hc : q ≠ c) (a b : Blanks) :
    q ∉ a.1 ++ c :: b.1 := by
  rw [List.mem_append, List.mem_cons]
  rintro (h | h | h)
  · exact notMem_of_blanks hq a h
  · exact hc h
  · exact notMem_of_blanks hq b h

theorem quote_notMem_blanks : (0x22 : UInt8) ∉ blanks := by decide

theorem quote_notMem_colon (m : Member) : 0x22 ∉ m.colon :=
  notMem_separator quote_notMem_blanks (by decide) _ _

theorem quote_append (t r : List UInt8) : delimited 0x22 t ++ r = 0x22 :: (t ++ 0x22 :: r) := by
  rw [delimited, List.cons_append, List.append_assoc, List.singleton_append]

/-- The search passes a member that the word is not in. -/
theorem behind_member (hw : Searchable w) (m : Member) (k : List UInt8) :
    behind (delimited 0x22 w) (m.text ++ k) =
      if EndsIn 0x22 w m.name.text then some (m.colon ++ 0x22 :: (m.value.text ++ 0x22 :: (m.after.1 ++ k)))
      else if m.colon = w then some (m.value.text ++ 0x22 :: (m.after.1 ++ k))
      else if EndsIn 0x22 w m.value.text then some (m.after.1 ++ k)
      else behind (delimited 0x22 w) (0x22 :: (m.after.1 ++ k)) := by
  have hne : (0x22 : UInt8) ≠ 0x5C := by decide
  simp only [Member.text, List.append_assoc]
  rw [behind_append (notMem_of_blanks quote_notMem_blanks m.before), quote_append, quote_append,
    m.name.denotes.escaped.behind_eq hw.quote hw.backslash hne,
    behind_delimited (quote_notMem_colon m) hw.quote,
    m.value.denotes.escaped.behind_eq hw.quote hw.backslash hne]

/-- It passes a comma. -/
theorem behind_comma (hw : 0x22 ∉ w) (a b : Blanks) (r : List UInt8) :
    behind (delimited 0x22 w) (0x22 :: (a.1 ++ 0x2C :: (b.1 ++ 0x22 :: r))) =
      if a.1 ++ 0x2C :: b.1 = w then some r else behind (delimited 0x22 w) (b.1 ++ 0x22 :: r) := by
  have hmem : 0x22 ∉ a.1 ++ 0x2C :: b.1 := notMem_separator quote_notMem_blanks (by decide) a b
  have hassoc : a.1 ++ 0x2C :: (b.1 ++ 0x22 :: r) = a.1 ++ 0x2C :: b.1 ++ 0x22 :: r := by
    rw [List.append_assoc, List.cons_append]
  rw [hassoc, behind_delimited hmem hw, behind_append (notMem_of_blanks quote_notMem_blanks b)]

/-- The text of members begins with the text of the first name. -/
theorem exists_intercalate_eq (m : Member) (ms : List Member) (tail : List UInt8) :
    ∃ r, [0x2C].intercalate ((m :: ms).map Member.text) ++ tail =
      m.before.1 ++ 0x22 :: (m.name.text ++ 0x22 :: (m.colon ++ 0x22 :: r)) := by
  cases ms with
  | nil =>
    rw [List.map_cons, List.map_nil, List.intercalate_singleton, Member.text]
    simp only [List.append_assoc, List.cons_append, quote_append]
    exact ⟨_, rfl⟩
  | cons m' ms =>
    rw [List.map_cons, List.map_cons, List.intercalate_cons_cons, Member.text]
    simp only [List.append_assoc, List.cons_append, quote_append]
    exact ⟨_, rfl⟩

/-- **A search along members.** -/
theorem found_members (hw : Searchable w) (m : Member) (ms : List Member) (trail : Blanks) :
    Found w (m :: ms) (behind (delimited 0x22 w)
      ([0x2C].intercalate ((m :: ms).map Member.text) ++ 0x7D :: trail.1)) := by
  induction ms generalizing m with
  | nil =>
    have hend : 0x22 ∉ m.after.1 ++ 0x7D :: trail.1 :=
      notMem_separator quote_notMem_blanks (by decide) m.after trail
    rw [List.map_cons, List.map_nil, List.intercalate_singleton, behind_member hw]
    split_ifs with hname hcolon hvalue
    · exact .some (if_pos hname) ⟨_, rfl⟩
    · exact .some ((if_neg hname).trans (if_pos hcolon)) ⟨_, hend, rfl⟩
    · exact .some ((if_neg hname).trans ((if_neg hcolon).trans (if_pos hvalue)))
        ⟨0x7D, by decide, trail.1, rfl⟩
    · rw [behind_cons_eq_none hend]
      exact .none ((if_neg hname).trans ((if_neg hcolon).trans (if_neg hvalue)))
  | cons next ms ih =>
    -- Behind the member stand a comma and the next name.
    obtain ⟨r, hr⟩ := exists_intercalate_eq next ms (0x7D :: trail.1)
    have hnext := ih next
    have htext : [0x2C].intercalate ((m :: next :: ms).map Member.text) ++ 0x7D :: trail.1 =
        m.text ++ 0x2C :: ([0x2C].intercalate ((next :: ms).map Member.text) ++ 0x7D :: trail.1) := by
      rw [List.map_cons, List.map_cons, List.intercalate_cons_cons, List.append_assoc, List.append_assoc,
        List.singleton_append]
    rw [htext, behind_member hw, hr, behind_comma hw.quote]
    rw [hr] at hnext
    split_ifs with hname hcolon hvalue hcomma
    · exact .some (if_pos hname) ⟨_, rfl⟩
    · refine .some ((if_neg hname).trans (if_pos hcolon))
        ⟨next.name.text ++ 0x22 :: (next.colon ++ 0x22 :: r), ?_⟩
      rw [List.append_assoc, List.cons_append]
    · exact .some ((if_neg hname).trans ((if_neg hcolon).trans (if_pos hvalue)))
        ⟨0x2C, by decide, _, rfl⟩
    · exact .some ((if_neg hname).trans ((if_neg hcolon).trans ((if_neg hvalue).trans (if_pos hcomma))))
        ⟨_, rfl⟩
    · have hplace : firstPlace w (m :: next :: ms) = firstPlace w (next :: ms) :=
        (if_neg hname).trans ((if_neg hcolon).trans ((if_neg hvalue).trans (if_neg hcomma)))
      generalize behind (delimited 0x22 w) _ = found at hnext ⊢
      cases hnext with
      | none hnone => exact .none (hplace.trans hnone)
      | some hsome hbehind => exact .some (hplace.trans hsome) hbehind

/-- **A search in an object.** -/
theorem found_text (hw : Searchable w) (o : FlatObject) :
    Found w o.members (behind (delimited 0x22 w) o.text) := by
  have hlead : 0x22 ∉ o.lead.1 ++ 0x7B :: o.inner.1 :=
    notMem_separator quote_notMem_blanks (by decide) _ _
  have hassoc : o.text = o.lead.1 ++ 0x7B :: o.inner.1 ++
      ([0x2C].intercalate (o.members.map Member.text) ++ 0x7D :: o.trail.1) := by
    rw [FlatObject.text, List.append_assoc, List.cons_append]
  rw [hassoc, behind_append hlead]
  cases o.members with
  | nil =>
    have hend : 0x22 ∉ 0x7D :: o.trail.1 :=
      List.not_mem_cons_of_ne_of_not_mem (by decide) (notMem_of_blanks quote_notMem_blanks o.trail)
    rw [List.map_nil, List.intercalate_nil, List.nil_append, behind_eq_none hend]
    exact .none rfl
  | cons m ms => exact found_members hw m ms o.trail

/-! ### What an object does not hold -/

theorem notMem_intercalate {c : UInt8} {sep : List UInt8} {ls : List (List UInt8)} (hsep : c ∉ sep)
    (hls : ∀ l ∈ ls, c ∉ l) : c ∉ sep.intercalate ls := by
  induction ls with
  | nil => exact List.not_mem_nil
  | cons l ls ih =>
    rw [List.forall_mem_cons] at hls
    cases ls with
    | nil =>
      rw [List.intercalate_singleton]
      exact hls.1
    | cons l' ls =>
      rw [List.intercalate_cons_cons, List.mem_append, List.mem_append]
      exact not_or.2 ⟨not_or.2 ⟨hls.1, hsep⟩, ih hls.2⟩

theorem zero_notMem_delimited (l : Literal) : 0 ∉ delimited 0x22 l.text := by
  have htext : (0 : UInt8) ∉ l.text := fun h ↦ absurd (l.denotes.le 0 h) (by decide)
  rw [delimited, List.mem_cons, List.mem_append, List.mem_singleton]
  exact not_or.2 ⟨by decide, not_or.2 ⟨htext, by decide⟩⟩

theorem zero_notMem_member (m : Member) : 0 ∉ m.text := by
  have hblanks : (0 : UInt8) ∉ blanks := by decide
  simp only [Member.text, List.mem_append, not_or]
  exact ⟨notMem_of_blanks hblanks m.before, zero_notMem_delimited m.name,
    notMem_separator hblanks (by decide) _ _, zero_notMem_delimited m.value,
    notMem_of_blanks hblanks m.after⟩

/-- An object is a C string. -/
theorem zero_notMem_text (o : FlatObject) : 0 ∉ o.text := by
  have hblanks : (0 : UInt8) ∉ blanks := by decide
  have hmembers : 0 ∉ [0x2C].intercalate (o.members.map Member.text) :=
    notMem_intercalate (by decide) (List.forall_mem_map.2 fun m _ ↦ zero_notMem_member m)
  simp only [FlatObject.text, List.mem_append, List.mem_cons, not_or]
  exact ⟨notMem_of_blanks hblanks o.lead, by decide, notMem_of_blanks hblanks o.inner, hmembers, by decide,
    notMem_of_blanks hblanks o.trail⟩

/-- An object ends in a brace or in white space. -/
theorem getLast?_text_ne (o : FlatObject) : o.text.getLast? ≠ some 0x5C := by
  have hend : (0x7D :: o.trail.1).getLast? ≠ some 0x5C := fun h ↦
    absurd (List.mem_of_getLast? h)
      (List.not_mem_cons_of_ne_of_not_mem (by decide) (notMem_of_blanks (by decide) o.trail))
  have htext : o.text = o.lead.1 ++ 0x7B :: (o.inner.1 ++ [0x2C].intercalate (o.members.map Member.text)) ++
      0x7D :: o.trail.1 := by
    simp only [FlatObject.text, List.append_assoc, List.cons_append]
  rwa [htext, List.getLast?_append_of_ne_nil _ (List.cons_ne_nil _ _)]

end JsonObject
