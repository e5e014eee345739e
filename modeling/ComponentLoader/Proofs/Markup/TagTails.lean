import ComponentLoader.Proofs.Markup.TagReaches

/-! Tags before different tails. Two texts that are the same up to some place are
read alike as long as reading stays before that place, with a bracket still to
come, so that no reader looks further. Where neither text goes on, nothing is
asked of the text before. -/
namespace ComponentLoader.Markup

/-- A text stands before the tail `u` with a bracket in between, or both tails are empty. -/
def Ahead (u v s : List Char) : Prop := ∃ a, s = a ++ u ∧ (u = [] ∧ v = [] ∨ '>' ∈ a)

def Attribute.said (a : Attribute) : String × Option String := (a.name, a.value)

namespace Cursor

variable {u v : List Char} {c c' : Cursor}

def tagFaults (c : Cursor) : List FaultKind := (c.faults.map (·.kind)).filter (·.isTagSyntax)

/-- What is left of one text before the tail `u` is left of the other before the tail `v`, and the
same tag faults were met. -/
structure Twin (u v : List Char) (c c' : Cursor) : Prop where
  rest : ∃ a, c.rest = a ++ u ∧ c'.rest = a ++ v ∧ (u = [] ∧ v = [] ∨ '>' ∈ a)
  faults : c.tagFaults = c'.tagFaults

theorem Reaches.ahead {c₂ : Cursor} (h : c.Reaches c₂) (ahead : Ahead u v c₂.rest) :
    Ahead u v c.rest := by
  obtain ⟨s, hs, -⟩ := h.text
  obtain ⟨a, ha, inside⟩ := ahead
  refine ⟨s ++ a, by rw [hs, ha, List.append_assoc], inside.imp id fun bracket => ?_⟩
  exact List.mem_append_right s bracket

namespace Twin

theorem ahead (h : Twin u v c c') : Ahead u v c.rest := by
  obtain ⟨a, ha, -, inside⟩ := h.rest
  exact ⟨a, ha, inside⟩

theorem report (h : Twin u v c c') (kind : FaultKind) :
    Twin u v (c.report kind) (c'.report kind) := by
  refine ⟨h.rest, ?_⟩
  have faults := h.faults
  simp only [tagFaults, Cursor.report, List.map_append, List.filter_append] at faults ⊢
  rw [faults]
  rfl

theorem reportIf (h : Twin u v c c') {b b' : Bool} (same : b = b') (kind : FaultKind) :
    Twin u v (c.reportIf b kind) (c'.reportIf b' kind) := by
  subst same
  unfold Cursor.reportIf
  split
  · exact h.report kind
  · exact h

theorem skip (h : Twin u v c c') {n : Nat} (stays : Ahead u v (c.skip n).rest) :
    Twin u v (c.skip n) (c'.skip n) := by
  obtain ⟨a, ha, ha', inside⟩ := h.rest
  obtain ⟨b, hb, further⟩ := stays
  refine ⟨⟨b, hb, ?_, further⟩, h.faults⟩
  rw [rest_skip, ha] at hb
  rw [rest_skip, ha']
  rcases further with ⟨rfl, rfl⟩ | bracket
  · exact hb
  · have within : n ≤ a.length := by
      have lengths := congrArg List.length hb
      have positive := List.length_pos_of_mem bracket
      simp only [List.length_drop, List.length_append] at lengths
      omega
    rw [List.drop_append_of_le_length within] at hb ⊢
    rw [List.append_cancel_right hb]

end Twin

/-- What satisfies a predicate ends before the tail. -/
theorem takeWhile_of_ahead {p : Char → Bool} {a b : List Char} (h : (a ++ u).dropWhile p = b ++ u)
    (more : b ≠ []) : (a ++ v).takeWhile p = (a ++ u).takeWhile p := by
  have parts : (a ++ u).takeWhile p ++ b = a := by
    have whole := List.takeWhile_append_dropWhile (p := p) (l := a ++ u)
    rw [h, ← List.append_assoc] at whole
    exact List.append_cancel_right whole
  obtain ⟨ch, b', rfl⟩ := List.exists_cons_of_ne_nil more
  have stops : ¬ p ch = true := by
    have head := List.head?_dropWhile_not p (a ++ u)
    rw [h] at head
    simpa using head
  have all : ∀ x ∈ (a ++ u).takeWhile p, p x = true := List.all_eq_true.mp List.all_takeWhile
  calc (a ++ v).takeWhile p
      = ((a ++ u).takeWhile p ++ (ch :: (b' ++ v))).takeWhile p := by
        rw [← List.cons_append, ← List.append_assoc, parts]
    _ = (a ++ u).takeWhile p := by
        rw [List.takeWhile_append_of_pos all, List.takeWhile_cons_of_neg stops, List.append_nil]

theorem Twin.takeWhile (h : Twin u v c c') {p : Char → Bool}
    (stays : Ahead u v (c.takeWhile p).2.rest) :
    (c.takeWhile p).1 = (c'.takeWhile p).1 ∧ Twin u v (c.takeWhile p).2 (c'.takeWhile p).2 := by
  have same : c.rest.takeWhile p = c'.rest.takeWhile p := by
    obtain ⟨a, ha, ha', -⟩ := h.rest
    obtain ⟨b, hb, further⟩ := stays
    rw [rest_takeWhile, ha] at hb
    rw [ha, ha']
    rcases further with ⟨rfl, rfl⟩ | bracket
    · rfl
    · exact (takeWhile_of_ahead hb (List.ne_nil_of_mem bracket)).symm
  refine ⟨same, ?_⟩
  unfold Cursor.takeWhile at stays ⊢
  dsimp only at stays ⊢
  rw [← same]
  exact h.skip stays

theorem Twin.skipSpace (h : Twin u v c c') (stays : Ahead u v c.skipSpace.rest) :
    Twin u v c.skipSpace c'.skipSpace := (h.takeWhile stays).2

theorem Twin.head (h : Twin u v c c') : c.rest.head? = c'.rest.head? := by
  obtain ⟨a, ha, ha', ⟨rfl, rfl⟩ | bracket⟩ := h.rest
  · rw [ha, ha']
  · obtain ⟨ch, a', rfl⟩ := List.exists_cons_of_ne_nil (List.ne_nil_of_mem bracket)
    rw [ha, ha']
    rfl

/-- Whether a tag ends is seen before the next bracket. -/
theorem endsTag_append {a : List Char} (bracket : '>' ∈ a) (s : List Char) :
    endsTag (a ++ s) = endsTag a := by
  cases a with
  | nil => cases bracket
  | cons ch a =>
    by_cases closing : ch = '>'
    · simp [closing, endsTag]
    · by_cases solidus : ch = '/'
      · subst solidus
        cases a with
        | nil => simp at bracket
        | cons ch a => by_cases closing : ch = '>' <;> simp [closing, endsTag]
      · simp [closing, solidus, endsTag]

theorem Twin.endsTag (h : Twin u v c c') : endsTag c.rest = endsTag c'.rest := by
  obtain ⟨a, ha, ha', ⟨rfl, rfl⟩ | bracket⟩ := h.rest
  · rw [ha, ha']
  · rw [ha, ha', endsTag_append bracket, endsTag_append bracket]

theorem skipSolidus_eq (c : Cursor) :
    c.skipSolidus? =
      if c.rest.head? = some '/' then some ((c.skip 1).report .unexpectedSolidusInTag)
      else none := by
  unfold skipSolidus?
  split
  · next hr => rw [hr]; rfl
  · next other =>
    rw [if_neg]
    intro head
    obtain ⟨r, hr⟩ := List.head?_eq_some_iff.mp head
    exact other r hr

theorem Twin.solidus_none (h : Twin u v c c') (none : c.skipSolidus? = none) :
    c'.skipSolidus? = .none := by
  rw [skipSolidus_eq, h.head] at none
  rw [skipSolidus_eq]
  split at none
  · cases none
  · next no => rw [if_neg no]

theorem Twin.solidus_some (h : Twin u v c c') {c₁ : Cursor} (found : c.skipSolidus? = some c₁)
    (stays : Ahead u v c₁.rest) : ∃ c₁', c'.skipSolidus? = some c₁' ∧ Twin u v c₁ c₁' := by
  rw [skipSolidus_eq] at found
  split at found
  · next head =>
    cases found
    refine ⟨_, ?_, (h.skip stays).report .unexpectedSolidusInTag⟩
    rw [skipSolidus_eq, if_pos (h.head ▸ head)]
  · cases found

theorem Twin.readAttributeName (h : Twin u v c c') (stays : Ahead u v c.readAttributeName.2.rest) :
    c.readAttributeName.1 = c'.readAttributeName.1 ∧
      Twin u v c.readAttributeName.2 c'.readAttributeName.2 := by
  have head := h.head
  unfold Cursor.readAttributeName at stays ⊢
  rw [← head]
  split at stays
  · next equals =>
    rw [if_pos equals, if_pos equals]
    exact ⟨rfl, (h.skip stays).report _⟩
  · next other =>
    rw [if_neg other, if_neg other]
    rw [rest_reportIf] at stays
    obtain ⟨same, twin⟩ := h.takeWhile stays
    dsimp only
    rw [same]
    exact ⟨rfl, twin.reportIf rfl _⟩

theorem Twin.afterQuoted (h : Twin u v c c') (stays : Ahead u v c.afterQuoted.rest) :
    Twin u v c.afterQuoted c'.afterQuoted := by
  unfold Cursor.afterQuoted at stays ⊢
  rw [← h.endsTag]
  split
  · exact h
  · next open? =>
    rw [if_neg open?] at stays
    cases solidus : c.skipSolidus? with
    | some c₁ =>
      rw [solidus] at stays
      obtain ⟨c₁', found, twin⟩ := h.solidus_some solidus stays
      rw [found]
      exact twin
    | none =>
      rw [solidus] at stays
      rw [h.solidus_none solidus]
      dsimp only at stays ⊢
      rw [rest_reportIf] at stays
      rw [h.head]
      exact (h.skipSpace stays).reportIf rfl _

theorem Twin.skipNext (h : Twin u v c c') (stays : Ahead u v c.skipNext.rest) :
    Twin u v c.skipNext c'.skipNext := by
  have same : (c.rest.take 1).length = (c'.rest.take 1).length := by
    have head := h.head
    cases hr : c.rest <;> cases hr' : c'.rest <;> rw [hr, hr'] at head <;>
      first | rfl | cases head
  unfold Cursor.skipNext at stays ⊢
  rw [← same]
  exact h.skip stays

theorem Twin.readQuoted (h : Twin u v c c') {quote : Char}
    (stays : Ahead u v (c.readQuoted quote).2.2.rest) :
    (c.readQuoted quote).1 = (c'.readQuoted quote).1 ∧
      Twin u v (c.readQuoted quote).2.2 (c'.readQuoted quote).2.2 := by
  have closed : Ahead u v ((c.skip 1).takeWhile (· != quote)).2.skipNext.rest :=
    (reaches_afterQuoted _).ahead stays
  have value : Ahead u v ((c.skip 1).takeWhile (· != quote)).2.rest :=
    (reaches_skipNext _).ahead closed
  have opened : Ahead u v (c.skip 1).rest := (reaches_takeWhile _ _).ahead value
  obtain ⟨same, twin⟩ := (h.skip opened).takeWhile value
  unfold Cursor.readQuoted
  dsimp only
  rw [same]
  exact ⟨rfl, (twin.skipNext closed).afterQuoted stays⟩

/-- What a value is read as depends on the first character alone. -/
theorem readAttributeValue_eq (c : Cursor) :
    c.readAttributeValue =
      if c.skipSpace.rest.head? = none then (none, c.skipSpace.position, c.skipSpace)
      else if c.skipSpace.rest.head? = some '>' then
        (none, c.position, c.skipSpace.report .missingAttributeValue)
      else if c.skipSpace.rest.head? = some '"' then c.skipSpace.readQuoted '"'
      else if c.skipSpace.rest.head? = some '\'' then c.skipSpace.readQuoted '\''
      else
        let read := c.skipSpace.takeWhile isUnquotedChar
        let next := read.2.reportIf (read.1.any ['"', '\'', '<', '=', '`'].contains)
          .unexpectedCharacterInUnquotedAttributeValue
        (some (String.ofList read.1), next.position, next) := by
  unfold readAttributeValue
  dsimp only
  split
  · next hr => simp [hr, -rest_skipSpace]
  · next hr => simp [hr, -rest_skipSpace]
  · next hr => simp [hr, -rest_skipSpace]
  · next hr => simp [hr, -rest_skipSpace]
  · next h₁ h₂ h₃ h₄ =>
    have other {ch : Char} (no : ∀ r, c.skipSpace.rest ≠ ch :: r) :
        c.skipSpace.rest.head? ≠ some ch := by
      intro head
      obtain ⟨r, hr⟩ := List.head?_eq_some_iff.mp head
      exact no r hr
    rw [if_neg (by simpa using h₁), if_neg (other h₂), if_neg (other h₃), if_neg (other h₄)]

theorem reaches_value (c : Cursor) : c.skipSpace.Reaches c.readAttributeValue.2.2 := by
  rw [readAttributeValue_eq]
  split
  · exact .refl _
  · split
    · exact reaches_report _ _ (by decide)
    · split
      · next head => exact (reaches_readQuoted head).1
      · split
        · next head => exact (reaches_readQuoted head).1
        · exact (reaches_takeWhile _ _).trans (reaches_reportIf _ _ _ (by decide))

theorem Twin.readAttributeValue (h : Twin u v c c')
    (stays : Ahead u v c.readAttributeValue.2.2.rest) :
    c.readAttributeValue.1 = c'.readAttributeValue.1 ∧
      Twin u v c.readAttributeValue.2.2 c'.readAttributeValue.2.2 := by
  have twin := h.skipSpace ((reaches_value c).ahead stays)
  rw [readAttributeValue_eq] at stays
  rw [readAttributeValue_eq, readAttributeValue_eq, ← twin.head]
  split at stays
  · next done =>
    rw [if_pos done, if_pos done]
    exact ⟨rfl, twin⟩
  · next more =>
    rw [if_neg more, if_neg more]
    split at stays
    · next missing =>
      rw [if_pos missing, if_pos missing]
      exact ⟨rfl, twin.report _⟩
    · next present =>
      rw [if_neg present, if_neg present]
      split at stays
      · next double =>
        rw [if_pos double, if_pos double]
        exact twin.readQuoted stays
      · next notDouble =>
        rw [if_neg notDouble, if_neg notDouble]
        split at stays
        · next single =>
          rw [if_pos single, if_pos single]
          exact twin.readQuoted stays
        · next bare =>
          rw [if_neg bare, if_neg bare]
          dsimp only at stays ⊢
          rw [rest_reportIf] at stays
          obtain ⟨same, next⟩ := twin.takeWhile stays
          rw [same]
          exact ⟨rfl, next.reportIf rfl _⟩

theorem reaches_attributeRest (c : Cursor) :
    c.readAttributeName.2.skipSpace.Reaches c.readAttribute.2 := by
  unfold readAttribute
  dsimp only
  split
  · exact .refl _
  · split
    · next found => exact reaches_skipSolidus found
    · split
      · next head =>
        exact (reaches_skip (length_pos_of_head head)).trans (reaches_readAttributeValue _).1
      · exact .refl _

theorem Twin.readAttribute (h : Twin u v c c') (stays : Ahead u v c.readAttribute.2.rest) :
    c.readAttribute.1.said = c'.readAttribute.1.said ∧
      Twin u v c.readAttribute.2 c'.readAttribute.2 := by
  have spaced := (reaches_attributeRest c).ahead stays
  obtain ⟨name, named⟩ := h.readAttributeName ((reaches_skipSpace _).ahead spaced)
  have twin := named.skipSpace spaced
  unfold Cursor.readAttribute at stays ⊢
  dsimp only at stays ⊢
  rw [← twin.endsTag, name]
  split
  · exact ⟨rfl, twin⟩
  · next open? =>
    rw [if_neg open?] at stays
    cases solidus : c.readAttributeName.2.skipSpace.skipSolidus? with
    | some c₁ =>
      rw [solidus] at stays
      obtain ⟨c₁', found, next⟩ := twin.solidus_some solidus stays
      rw [found]
      exact ⟨rfl, next⟩
    | none =>
      rw [solidus] at stays
      rw [twin.solidus_none solidus, ← twin.head]
      dsimp only at stays ⊢
      split
      · next equals =>
        rw [if_pos equals] at stays
        have opened := (reaches_readAttributeValue _).1.ahead stays
        obtain ⟨value, next⟩ := (twin.skip opened).readAttributeValue stays
        dsimp only
        rw [value]
        exact ⟨rfl, next⟩
      · exact ⟨rfl, twin⟩

theorem any_said {kept kept' : List Attribute} (h : kept.map (·.said) = kept'.map (·.said))
    (name : String) : kept.any (·.name == name) = kept'.any (·.name == name) := by
  have through (kept : List Attribute) :
      kept.any (·.name == name) = (kept.map (·.said)).any (·.1 == name) := by
    rw [List.any_map]
    rfl
  rw [through, through, h]

theorem readAttributes_ended {c : Cursor} (ends : Markup.endsTag c.skipSpace.rest = true)
    (kept : List Attribute) : c.readAttributes kept = (kept, c.skipSpace) := by
  rw [readAttributes, dif_pos ends]

theorem readAttributes_solidus {c c₁ : Cursor} (ends : ¬ Markup.endsTag c.skipSpace.rest = true)
    (found : c.skipSpace.skipSolidus? = some c₁) (kept : List Attribute) :
    c.readAttributes kept = c₁.readAttributes kept := by
  rw [readAttributes, dif_neg ends]
  split
  · next found' =>
    rw [found] at found'
    cases found'
    rfl
  · next none =>
    rw [found] at none
    cases none

theorem readAttributes_attribute {c : Cursor} (ends : ¬ Markup.endsTag c.skipSpace.rest = true)
    (none : c.skipSpace.skipSolidus? = .none) (kept : List Attribute) :
    c.readAttributes kept =
      if kept.any (·.name == c.skipSpace.readAttribute.1.name) then
        (c.skipSpace.readAttribute.2.report .duplicateAttribute).readAttributes kept
      else c.skipSpace.readAttribute.2.readAttributes (kept ++ [c.skipSpace.readAttribute.1]) := by
  rw [readAttributes, dif_neg ends]
  split
  · next found =>
    rw [none] at found
    cases found
  · rfl

theorem Twin.readAttributes {kept kept' : List Attribute} (h : Twin u v c c')
    (same : kept.map (·.said) = kept'.map (·.said))
    (stays : Ahead u v (c.readAttributes kept).2.rest) :
    (c.readAttributes kept).1.map (·.said) = (c'.readAttributes kept').1.map (·.said) ∧
      Twin u v (c.readAttributes kept).2 (c'.readAttributes kept').2 := by
  fun_induction Cursor.readAttributes c kept generalizing c' kept' with
  | case1 c kept ends =>
    have twin := h.skipSpace stays
    rw [readAttributes_ended (twin.endsTag ▸ ends)]
    exact ⟨same, twin⟩
  | case2 c kept ends c₁ found ih =>
    have solidus := (reaches_readAttributes c₁ kept).1.ahead stays
    have twin := h.skipSpace ((reaches_skipSolidus found).ahead solidus)
    obtain ⟨c₁', found', next⟩ := twin.solidus_some found solidus
    rw [readAttributes_solidus (twin.endsTag ▸ ends) found']
    exact ih next same stays
  | case3 c kept ends none read dup =>
    rename_i ih
    have reported := (reaches_readAttributes _ kept).1.ahead stays
    have spaced := (reaches_readAttribute c.skipSpace).1.ahead reported
    have twin := h.skipSpace spaced
    obtain ⟨said, further⟩ := twin.readAttribute reported
    have name := congrArg Prod.fst said
    simp only [Attribute.said] at name
    simp only [read, name, any_said same] at dup
    rw [readAttributes_attribute (twin.endsTag ▸ ends) (twin.solidus_none none), if_pos dup]
    exact ih (further.report _) same stays
  | case4 c kept ends none read new =>
    rename_i ih
    have reported := (reaches_readAttributes _ _).1.ahead stays
    have spaced := (reaches_readAttribute c.skipSpace).1.ahead reported
    have twin := h.skipSpace spaced
    obtain ⟨said, further⟩ := twin.readAttribute reported
    have name := congrArg Prod.fst said
    simp only [Attribute.said] at name
    simp only [read, name, any_said same] at new
    rw [readAttributes_attribute (twin.endsTag ▸ ends) (twin.solidus_none none), if_neg new]
    refine ih further ?_ stays
    rw [List.map_append, List.map_append, same, List.map_singleton, List.map_singleton, said]

theorem endsTag_readAttributes (c : Cursor) (kept : List Attribute) :
    Markup.endsTag (c.readAttributes kept).2.rest = true := by
  fun_induction Cursor.readAttributes c kept with
  | case1 c kept ends => exact ends
  | case2 c kept ends c₁ found ih => exact ih
  | case3 c kept ends none next dup ih => exact ih
  | case4 c kept ends none next new ih => exact ih

/-- The state in which the closing bracket of a tag is looked for. -/
def tagEnd (c : Cursor) : Cursor := ((c.takeWhile isNameChar).2.readAttributes []).2

theorem reaches_tagEnd (c : Cursor) : c.Reaches c.tagEnd :=
  (reaches_takeWhile c isNameChar).trans (reaches_readAttributes _ []).1

/-- A tag is closed by a bracket, alone or after a solidus, or the text ends in it. -/
theorem readTag_cases (c : Cursor) :
    let attributes := ((c.takeWhile isNameChar).2.readAttributes []).1
    let name := String.ofList (c.rest.takeWhile isNameChar)
    (c.tagEnd.rest = [] ∧ c.readTag = (⟨name, attributes, false⟩, c.tagEnd.report .eofInTag)) ∨
      (∃ r, c.tagEnd.rest = '/' :: '>' :: r ∧
        c.readTag = (⟨name, attributes, true⟩, c.tagEnd.skip 2)) ∨
      ∃ r, c.tagEnd.rest = '>' :: r ∧ c.readTag = (⟨name, attributes, false⟩, c.tagEnd.skip 1) := by
  have ends := endsTag_readAttributes (c.takeWhile isNameChar).2 []
  unfold readTag tagEnd
  dsimp only
  split
  · next done => exact .inl ⟨done, rfl⟩
  · next r closed => exact .inr (.inl ⟨r, closed, rfl⟩)
  · next open? notSolidus =>
    right
    right
    generalize ((c.takeWhile isNameChar).2.readAttributes []).2 = d at *
    unfold Markup.endsTag at ends
    split at ends
    · next done => exact absurd done open?
    · next r closed => exact ⟨r, closed, rfl⟩
    · next r closed => exact absurd closed (notSolidus r)
    · cases ends

/-- What is left of one text before the tail `u` is left of the other before the tail `v`, wherever
the next bracket is. -/
structure Beside (u v : List Char) (c c' : Cursor) : Prop where
  rest : ∃ a, c.rest = a ++ u ∧ c'.rest = a ++ v
  faults : c.tagFaults = c'.tagFaults

theorem Twin.beside (h : Twin u v c c') : Beside u v c c' := by
  obtain ⟨a, ha, ha', -⟩ := h.rest
  exact ⟨⟨a, ha, ha'⟩, h.faults⟩

theorem Beside.twin (h : Beside u v c c') (ahead : Ahead u v c.rest) : Twin u v c c' := by
  obtain ⟨a, ha, ha'⟩ := h.rest
  obtain ⟨b, hb, inside⟩ := ahead
  obtain rfl : a = b := List.append_cancel_right (ha.symm.trans hb)
  exact ⟨⟨a, ha, ha', inside⟩, h.faults⟩

/-- Reading has come to an end before the tail `u`, not for want of text. -/
def Stops (u v : List Char) (c : Cursor) : Prop :=
  ∃ b, c.rest = b ++ u ∧ (u = [] ∧ v = [] ∨ b ++ u ≠ [] ∨ .eofInTag ∉ c.tagFaults)

theorem mem_tagFaults_report (c : Cursor) : .eofInTag ∈ (c.report .eofInTag).tagFaults := by
  simp [tagFaults, report, FaultKind.isTagSyntax]

/-- The bracket that closes a tag is before the tail. -/
theorem ahead_tagEnd (stops : Stops u v c.readTag.2) : Ahead u v c.tagEnd.rest := by
  obtain ⟨b, left, ended⟩ := stops
  rcases readTag_cases c with ⟨done, tag⟩ | ⟨r, closed, tag⟩ | ⟨r, closed, tag⟩
  · rw [tag] at left ended
    have none : [] = b ++ u := done.symm.trans left
    refine ⟨[], ?_, .inl ?_⟩
    · rw [done, (List.append_eq_nil_iff.mp none.symm).2]
      rfl
    · rcases ended with empty | more | closed
      · exact empty
      · exact absurd none.symm more
      · exact absurd (mem_tagFaults_report _) closed
  · rw [tag, rest_skip, closed] at left
    have left : r = b ++ u := left
    exact ⟨'/' :: '>' :: b, by rw [closed, left]; rfl, .inr (by simp)⟩
  · rw [tag, rest_skip, closed] at left
    have left : r = b ++ u := left
    exact ⟨'>' :: b, by rw [closed, left]; rfl, .inr (by simp)⟩

end Cursor

structure Tag.Alike (t t' : Tag) : Prop where
  name : t.name = t'.name
  attributes : t.attributes.map (·.said) = t'.attributes.map (·.said)
  selfClosing : t.selfClosing = t'.selfClosing

namespace Cursor

variable {u v : List Char} {c c' : Cursor}

theorem Beside.skip (h : Beside u v c c') {s b : List Char} (parts : c.rest = s ++ (b ++ u)) :
    (c'.rest = s ++ (b ++ v)) ∧ Beside u v (c.skip s.length) (c'.skip s.length) := by
  obtain ⟨a, ha, ha'⟩ := h.rest
  have same : a = s ++ b := by
    rw [ha, ← List.append_assoc] at parts
    exact List.append_cancel_right parts
  have parts' : c'.rest = s ++ (b ++ v) := by rw [ha', same, List.append_assoc]
  refine ⟨parts', ⟨b, ?_, ?_⟩, h.faults⟩
  · rw [rest_skip, parts, List.drop_left]
  · rw [rest_skip, parts', List.drop_left]

theorem Beside.readTag (h : Beside u v c c') (stops : Stops u v c.readTag.2) :
    c.readTag.1.Alike c'.readTag.1 ∧ Beside u v c.readTag.2 c'.readTag.2 := by
  have last := ahead_tagEnd stops
  have named := (reaches_readAttributes _ []).1.ahead last
  have twin := h.twin ((reaches_takeWhile c isNameChar).ahead named)
  obtain ⟨name, twin⟩ := twin.takeWhile named
  have none : ([] : List Attribute).map (·.said) = ([] : List Attribute).map (·.said) := rfl
  obtain ⟨said, twin⟩ := twin.readAttributes none last
  have twin : Twin u v c.tagEnd c'.tagEnd := twin
  have name : String.ofList (c.rest.takeWhile isNameChar) =
      String.ofList (c'.rest.takeWhile isNameChar) := congrArg String.ofList name
  have head := twin.head
  obtain ⟨b, left, -⟩ := stops
  rcases readTag_cases c with ⟨hr, tag⟩ | ⟨r, hr, tag⟩ | ⟨r, hr, tag⟩ <;>
    rcases readTag_cases c' with ⟨hr', tag'⟩ | ⟨r', hr', tag'⟩ | ⟨r', hr', tag'⟩ <;>
    rw [hr, hr'] at head <;> try cases head
  · rw [tag, tag']
    exact ⟨⟨name, said, rfl⟩, (twin.report _).beside⟩
  · rw [tag, rest_skip, hr] at left
    have parts : c.tagEnd.rest = ['/', '>'] ++ (b ++ u) := by
      rw [hr, ← left]
      rfl
    rw [tag, tag']
    exact ⟨⟨name, said, rfl⟩, (twin.beside.skip parts).2⟩
  · rw [tag, rest_skip, hr] at left
    have parts : c.tagEnd.rest = ['>'] ++ (b ++ u) := by
      rw [hr, ← left]
      rfl
    rw [tag, tag']
    exact ⟨⟨name, said, rfl⟩, (twin.beside.skip parts).2⟩

end Cursor

end ComponentLoader.Markup
