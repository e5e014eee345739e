import ComponentLoader.Text.Basic

/-! The leftmost occurrence of one text in another: where it is found, what may follow it, and how
it stays where it is when the text goes on with a character that it does not hold. -/
namespace ComponentLoader.Text

theorem stripStart_eq_none_iff {p s : List Char} : stripStart p s = none ↔ ¬ p <+: s := by
  constructor
  · intro none
    rintro ⟨r, rfl⟩
    rw [stripStart_append] at none
    cases none
  · intro absent
    cases found : stripStart p s with
    | none => rfl
    | some r => exact absurd ⟨r, (stripStart_eq_some_iff.mp found).symm⟩ absent

theorem splitOnce_here (sep r : List Char) : splitOnce sep (sep ++ r) = some ([], r) := by
  rw [splitOnce.eq_def, stripStart_append]

theorem splitOnce_cons {sep : List Char} {c : Char} {s : List Char} (h : ¬ sep <+: c :: s) :
    splitOnce sep (c :: s) = (splitOnce sep s).map fun (before, after) => (c :: before, after) := by
  rw [splitOnce, stripStart_eq_none_iff.mpr h]

theorem splitOnce_eq_none_iff {sep s : List Char} : splitOnce sep s = none ↔ ¬ sep <:+: s := by
  constructor
  · intro none
    rintro ⟨x, y, rfl⟩
    rw [List.append_assoc] at none
    induction x with
    | nil =>
      rw [List.nil_append, splitOnce_here] at none
      cases none
    | cons c x ih =>
      by_cases first : sep <+: c :: (x ++ (sep ++ y))
      · obtain ⟨r, parts⟩ := first
        rw [List.cons_append, ← parts, splitOnce_here] at none
        cases none
      · rw [List.cons_append, splitOnce_cons first, Option.map_eq_none_iff] at none
        exact ih none
  · intro absent
    cases found : splitOnce sep s with
    | none => rfl
    | some parts => exact absurd ⟨_, _, (eq_of_splitOnce found).symm⟩ absent

/-- The leftmost occurrence is found whatever follows it. -/
theorem splitOnce_before {sep a s : List Char} (h : splitOnce sep (a ++ (sep ++ s)) = some (a, s))
    (t : List Char) : splitOnce sep (a ++ (sep ++ t)) = some (a, t) := by
  induction a with
  | nil => exact splitOnce_here sep t
  | cons c a ih =>
    have later : ¬ sep <+: c :: (a ++ (sep ++ s)) := by
      rintro ⟨r, parts⟩
      rw [List.cons_append, ← parts, splitOnce_here] at h
      cases h
    have later' : ¬ sep <+: c :: (a ++ (sep ++ t)) := by
      intro first
      have whole : c :: (a ++ sep) <+: c :: (a ++ (sep ++ t)) := ⟨t, by simp⟩
      have within : sep <+: c :: (a ++ sep) :=
        List.prefix_of_prefix_length_le first whole (by simp; omega)
      exact later (within.trans ⟨s, by simp⟩)
    rw [List.cons_append, splitOnce_cons later, Option.map_eq_some_iff] at h
    obtain ⟨⟨x, y⟩, found, same⟩ := h
    cases same
    rw [List.cons_append, splitOnce_cons later', ih found]
    rfl

/-- What does not hold a character does not reach over it. -/
theorem prefix_of_prefix_append {p b w : List Char} {c : Char} (absent : c ∉ p)
    (h : p <+: b ++ c :: w) : p <+: b := by
  obtain ⟨y, parts⟩ := h
  rcases List.append_eq_append_iff.mp parts with ⟨r, rfl, -⟩ | ⟨r, rfl, further⟩
  · exact ⟨r, rfl⟩
  · cases r with
    | nil => exact ⟨[], by simp⟩
    | cons ch r =>
      obtain ⟨rfl, -⟩ := List.cons.inj further
      exact absurd (by simp) absent

theorem infix_of_infix_append {p b w : List Char} {c : Char} (absent : c ∉ p)
    (h : p <:+: b ++ c :: w) : p <:+: b ∨ p <:+: w := by
  induction b with
  | nil =>
    rcases List.infix_cons_iff.mp h with first | later
    · exact .inl (prefix_of_prefix_append absent first).isInfix
    · exact .inr later
  | cons d b ih =>
    rcases List.infix_cons_iff.mp h with first | later
    · exact .inl (prefix_of_prefix_append absent first).isInfix
    · rcases ih later with inside | after
      · exact .inl (List.infix_cons inside)
      · exact .inr after

/-- The leftmost occurrence of a text, and what stands before and after it. -/
structure First (sep s before after : List Char) : Prop where
  parts : s = before ++ sep ++ after
  first : ∀ before' after', s = before' ++ sep ++ after' → before.length ≤ before'.length

variable {sep s before after a b : List Char}

theorem first_of_splitOnce (h : splitOnce sep s = some (before, after)) :
    First sep s before after := by
  refine ⟨eq_of_splitOnce h, fun x y parts => ?_⟩
  induction x generalizing s before with
  | nil =>
    rw [parts, List.nil_append, splitOnce_here] at h
    cases h
    exact Nat.le_refl _
  | cons c x ih =>
    by_cases here : sep <+: s
    · obtain ⟨r, rfl⟩ := here
      rw [splitOnce_here] at h
      cases h
      exact Nat.zero_le _
    · rw [List.cons_append, List.cons_append] at parts
      subst parts
      rw [splitOnce_cons here, Option.map_eq_some_iff] at h
      obtain ⟨⟨before', after'⟩, found, same⟩ := h
      cases same
      exact Nat.succ_le_succ (ih found rfl)

/-- Splitting finds the leftmost occurrence. -/
theorem splitOnce_eq_some_iff :
    splitOnce sep s = some (before, after) ↔ First sep s before after := by
  refine ⟨first_of_splitOnce, fun h => ?_⟩
  cases found : splitOnce sep s with
  | none => exact absurd ⟨before, after, h.parts.symm⟩ (splitOnce_eq_none_iff.mp found)
  | some parts =>
    obtain ⟨x, y⟩ := parts
    have other := first_of_splitOnce found
    have length : x.length = before.length :=
      Nat.le_antisymm (other.first _ _ h.parts) (h.first _ _ other.parts)
    have whole := other.parts.symm.trans h.parts
    rw [List.append_assoc, List.append_assoc] at whole
    obtain ⟨rfl, same⟩ := List.append_inj whole length
    rw [List.append_cancel_left same]

theorem First.unique (h : First sep s before after) (h' : First sep s b a) :
    before = b ∧ after = a := by
  have same := (splitOnce_eq_some_iff.mpr h).symm.trans (splitOnce_eq_some_iff.mpr h')
  exact Prod.mk.inj (Option.some.inj same)

theorem exists_first (occurs : sep <:+: s) : ∃ before after, First sep s before after := by
  cases found : splitOnce sep s with
  | none => exact absurd occurs (splitOnce_eq_none_iff.mp found)
  | some parts => exact ⟨parts.1, parts.2, first_of_splitOnce found⟩

/-- The leftmost occurrence is there whatever follows it. -/
theorem First.append (h : First sep s before after) (t : List Char) :
    First sep (s ++ t) before (after ++ t) := by
  have found := splitOnce_eq_some_iff.mpr h
  rw [h.parts, List.append_assoc] at found
  rw [h.parts, List.append_assoc, List.append_assoc]
  exact first_of_splitOnce (splitOnce_before found (after ++ t))

theorem First.isPrefix (h : First sep (a ++ b) before after) (inside : before.length < a.length) :
    before <+: a := by
  have start : before <+: a ++ b := by
    rw [h.parts, List.append_assoc]
    exact List.prefix_append _ _
  exact List.prefix_of_prefix_length_le start (List.prefix_append a b) (Nat.le_of_lt inside)

/-- Where a text occurs in the first part of another, its leftmost occurrence begins there. -/
theorem First.length_lt (h : First sep (a ++ b) before after) (some : sep ≠ [])
    (occurs : sep <:+: a) : before.length < a.length := by
  obtain ⟨x, y, inside⟩ := exists_first occurs
  obtain ⟨rfl, -⟩ := h.unique (inside.append b)
  have length := List.length_pos_iff.mpr some
  rw [inside.parts, List.length_append, List.length_append]
  omega

/-- An occurrence begins within `a`, where that is followed by `b`. -/
def BeginsIn (sep a b : List Char) : Prop := ∃ x y, a = x ++ y ∧ y ≠ [] ∧ sep <+: y ++ b

/-- No occurrence begins before the leftmost one. -/
theorem First.not_beginsIn (h : First sep (before ++ a ++ b) before after) :
    ¬ BeginsIn sep before a := by
  rintro ⟨x, y, rfl, some, t, begins⟩
  have earlier := h.first x (t ++ b) (by simp [← begins])
  rw [List.length_append] at earlier
  have length := List.length_pos_iff.mpr some
  omega

theorem First.of_not_beginsIn (absent : ¬ BeginsIn sep a b) (h : First sep (a ++ b) before after) :
    ∃ c, before = a ++ c ∧ First sep b c after := by
  obtain ⟨c, rfl⟩ : ∃ c, before = a ++ c := by
    have parts := h.parts
    rw [List.append_assoc] at parts
    rcases List.append_eq_append_iff.mp parts with ⟨c, same, -⟩ | ⟨y, rfl, further⟩
    · exact ⟨c, same⟩
    · cases y with
      | nil => exact ⟨[], (List.append_nil _).symm.trans (List.append_nil _).symm⟩
      | cons ch y =>
        exact absurd ⟨before, ch :: y, rfl, List.cons_ne_nil _ _, after, further⟩ absent
  have parts : b = c ++ sep ++ after := by
    have whole := h.parts
    rw [List.append_assoc a, List.append_assoc a] at whole
    exact List.append_cancel_left whole
  refine ⟨c, rfl, parts, fun x y other => ?_⟩
  have later := h.first (a ++ x) y (by rw [other]; simp)
  rw [List.length_append, List.length_append] at later
  exact Nat.le_of_add_le_add_left later

theorem not_beginsIn_nil : ¬ BeginsIn sep [] b := by
  rintro ⟨x, y, parts, some, -⟩
  exact some (List.append_eq_nil_iff.mp parts.symm).2

theorem beginsIn_cons_iff {c : Char} :
    BeginsIn sep (c :: a) b ↔ sep <+: c :: (a ++ b) ∨ BeginsIn sep a b := by
  constructor
  · rintro ⟨x, y, parts, some, begins⟩
    cases x with
    | nil =>
      rw [List.nil_append] at parts
      exact .inl (by rwa [← parts] at begins)
    | cons d x => exact .inr ⟨x, y, (List.cons.inj parts).2, some, begins⟩
  · rintro (here | ⟨x, y, rfl, some, begins⟩)
    · exact ⟨[], c :: a, rfl, List.cons_ne_nil _ _, here⟩
    · exact ⟨c :: x, y, rfl, some, begins⟩

theorem beginsIn_append_iff {a' : List Char} :
    BeginsIn sep (a ++ a') b ↔ BeginsIn sep a (a' ++ b) ∨ BeginsIn sep a' b := by
  induction a with
  | nil => simp [not_beginsIn_nil]
  | cons c a ih =>
    rw [List.cons_append, beginsIn_cons_iff, beginsIn_cons_iff, ih, List.append_assoc, or_assoc]

/-- No separator begins in a text without the character that it begins with. -/
theorem not_beginsIn_of_not_mem {c : Char} (absent : c ∉ a) : ¬ BeginsIn (c :: sep) a b := by
  induction a with
  | nil => exact not_beginsIn_nil
  | cons d a ih =>
    obtain ⟨different, later⟩ := List.ne_and_not_mem_of_not_mem_cons absent
    rw [beginsIn_cons_iff, List.cons_prefix_cons]
    rintro (⟨same, -⟩ | begins)
    · exact different same
    · exact ih later begins

theorem first_of_not_beginsIn (absent : ¬ BeginsIn sep a (sep ++ b)) :
    First sep (a ++ sep ++ b) a b := by
  obtain ⟨before, after, found⟩ : ∃ x y, First sep (a ++ (sep ++ b)) x y :=
    exists_first ⟨a, b, List.append_assoc a sep b⟩
  obtain ⟨c, rfl, later⟩ := First.of_not_beginsIn absent found
  obtain ⟨rfl, rfl⟩ := later.unique (first_of_splitOnce (splitOnce_here sep b))
  rwa [List.append_nil, ← List.append_assoc] at found

theorem first_of_not_mem {c : Char} (absent : c ∉ a) : First (c :: sep) (a ++ c :: sep ++ b) a b :=
  first_of_not_beginsIn (not_beginsIn_of_not_mem absent)

end ComponentLoader.Text
