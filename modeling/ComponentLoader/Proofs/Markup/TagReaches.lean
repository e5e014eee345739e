import ComponentLoader.Markup.Tag
import ComponentLoader.Proofs.Markup.Reaches

/-! Tags are read by moves within the text, however malformed they are, and
each attribute begins and ends at a place that is passed on the way. -/
namespace ComponentLoader.Markup.Cursor

def PassesEnds (c c' : Cursor) (attributes : List Attribute) : Prop :=
  ∀ a ∈ attributes, c.Passes c' a.span.start ∧ c.Passes c' a.span.stop

theorem PassesEnds.extend {c c' c'' : Cursor} {attributes : List Attribute}
    (h : c.PassesEnds c' attributes) (next : c'.Reaches c'') : c.PassesEnds c'' attributes := by
  intro a ha
  obtain ⟨start, stop⟩ := h a ha
  exact ⟨start.extend next, stop.extend next⟩

theorem PassesEnds.precede {c c' c'' : Cursor} {attributes : List Attribute}
    (h : c'.PassesEnds c'' attributes) (first : c.Reaches c') : c.PassesEnds c'' attributes := by
  intro a ha
  obtain ⟨start, stop⟩ := h a ha
  exact ⟨start.precede first, stop.precede first⟩

theorem length_pos_of_head {s : List Char} {ch : Char} (h : s.head? = some ch) : 1 ≤ s.length := by
  cases s with
  | nil => simp at h
  | cons a s => simp

theorem reaches_skipSolidus {c c' : Cursor} (h : c.skipSolidus? = some c') : c.Reaches c' := by
  unfold skipSolidus? at h
  split at h
  · next r hr =>
    cases h
    exact (reaches_skip (by simp [hr])).trans (reaches_report _ _ (by decide))
  · cases h

theorem reaches_readAttributeName (c : Cursor) : c.Reaches c.readAttributeName.2 := by
  unfold readAttributeName
  split
  · next h => exact (reaches_skip (length_pos_of_head h)).trans (reaches_report _ _ (by decide))
  · exact (reaches_takeWhile c _).trans (reaches_reportIf _ _ _ (by decide))

theorem reaches_afterQuoted (c : Cursor) : c.Reaches c.afterQuoted := by
  unfold afterQuoted
  split
  · exact .refl c
  · split
    · next h => exact reaches_skipSolidus h
    · exact (reaches_skipSpace c).trans (reaches_reportIf _ _ _ (by decide))

theorem reaches_readQuoted {c : Cursor} {quote : Char} (h : c.rest.head? = some quote) :
    c.Reaches (c.readQuoted quote).2.2 ∧
      c.Passes (c.readQuoted quote).2.2 (c.readQuoted quote).2.1 := by
  have value : c.Reaches ((c.skip 1).takeWhile (· != quote)).2.skipNext :=
    calc
      Reaches c (c.skip 1) := reaches_skip (length_pos_of_head h)
      Reaches _ ((c.skip 1).takeWhile (· != quote)).2 := reaches_takeWhile _ _
      Reaches _ _ := reaches_skipNext _
  have after := reaches_afterQuoted ((c.skip 1).takeWhile (· != quote)).2.skipNext
  exact ⟨value.trans after, value.passes_stop.extend after⟩

theorem reaches_readAttributeValue (c : Cursor) :
    c.Reaches c.readAttributeValue.2.2 ∧
      c.Passes c.readAttributeValue.2.2 c.readAttributeValue.2.1 := by
  have space := reaches_skipSpace c
  unfold readAttributeValue
  dsimp only
  split
  · exact ⟨space, space.passes_stop⟩
  · have missing := space.trans (reaches_report _ .missingAttributeValue rfl)
    exact ⟨missing, missing.passes_start⟩
  · next hr =>
    have head : c.skipSpace.rest.head? = some '"' := by rw [hr]; rfl
    obtain ⟨value, stop⟩ := reaches_readQuoted head
    exact ⟨space.trans value, stop.precede space⟩
  · next hr =>
    have head : c.skipSpace.rest.head? = some '\'' := by rw [hr]; rfl
    obtain ⟨value, stop⟩ := reaches_readQuoted head
    exact ⟨space.trans value, stop.precede space⟩
  · have value {condition : Bool} :
        c.Reaches ((c.skipSpace.takeWhile isUnquotedChar).2.reportIf condition
          .unexpectedCharacterInUnquotedAttributeValue) :=
      space.trans ((reaches_takeWhile _ _).trans (reaches_reportIf _ _ _ (by decide)))
    exact ⟨value, value.passes_stop⟩

/-- An attribute begins where it is read from and ends on the way. -/
theorem reaches_readAttribute (c : Cursor) :
    c.Reaches c.readAttribute.2 ∧ c.PassesEnds c.readAttribute.2 [c.readAttribute.1] := by
  have name := reaches_readAttributeName c
  have space := reaches_skipSpace c.readAttributeName.2
  have bare {c' : Cursor} (next : c.readAttributeName.2.skipSpace.Reaches c') :
      c.Reaches c' ∧
        c.PassesEnds c'
          [⟨c.readAttributeName.1, none, c.position, c.readAttributeName.2.position⟩] := by
    have rest := space.trans next
    refine ⟨name.trans rest, ?_⟩
    intro a ha
    obtain rfl := List.mem_singleton.mp ha
    exact ⟨(name.trans rest).passes_start, name.passes_stop.extend rest⟩
  unfold readAttribute
  dsimp only
  split
  · exact bare (.refl _)
  · split
    · next h => exact bare (reaches_skipSolidus h)
    · split
      · next h =>
        have equals := (name.trans space).trans (reaches_skip (length_pos_of_head h))
        obtain ⟨value, stop⟩ := reaches_readAttributeValue (c.readAttributeName.2.skipSpace.skip 1)
        refine ⟨equals.trans value, ?_⟩
        intro a ha
        obtain rfl := List.mem_singleton.mp ha
        exact ⟨(equals.trans value).passes_start, stop.precede equals⟩
      · exact bare (.refl _)

/-- The attributes that are kept are those that were, and others whose ends are
passed. -/
theorem reaches_readAttributes (c : Cursor) (kept : List Attribute) :
    c.Reaches (c.readAttributes kept).2 ∧
      ∃ more, (c.readAttributes kept).1 = kept ++ more ∧
        c.PassesEnds (c.readAttributes kept).2 more := by
  fun_induction readAttributes c kept with
  | case1 c kept h => exact ⟨reaches_skipSpace c, [], by simp, by simp [PassesEnds]⟩
  | case2 c kept h c' hs ih =>
    obtain ⟨rest, more, same, ends⟩ := ih
    have solidus := (reaches_skipSpace c).trans (reaches_skipSolidus hs)
    exact ⟨solidus.trans rest, more, same, ends.precede solidus⟩
  | case3 c kept h hs next hd ih =>
    obtain ⟨rest, more, same, ends⟩ := ih
    have first := (reaches_skipSpace c).trans (reaches_readAttribute c.skipSpace).1
    have dropped := first.trans (reaches_report _ .duplicateAttribute rfl)
    exact ⟨dropped.trans rest, more, same, ends.precede dropped⟩
  | case4 c kept h hs next hd ih =>
    obtain ⟨rest, more, same, ends⟩ := ih
    obtain ⟨single, own⟩ := reaches_readAttribute c.skipSpace
    have first := (reaches_skipSpace c).trans single
    refine ⟨first.trans rest, next.1 :: more, by simp [same], ?_⟩
    intro a ha
    cases ha with
    | head =>
      exact ((own.precede (reaches_skipSpace c)).extend rest) _ (List.mem_singleton_self _)
    | tail _ ha => exact ends.precede first a ha

theorem reaches_readTag (c : Cursor) :
    c.Reaches c.readTag.2 ∧ c.PassesEnds c.readTag.2 c.readTag.1.attributes := by
  have name := reaches_takeWhile c isNameChar
  obtain ⟨rest, more, same, ends⟩ := reaches_readAttributes (c.takeWhile isNameChar).2 []
  have closing {c' : Cursor} (next : ((c.takeWhile isNameChar).2.readAttributes []).2.Reaches c') :
      c.Reaches c' ∧ c.PassesEnds c' ((c.takeWhile isNameChar).2.readAttributes []).1 := by
    refine ⟨(name.trans rest).trans next, ?_⟩
    rw [same]
    exact (ends.precede name).extend next
  unfold readTag
  dsimp only
  split
  · exact closing (reaches_report _ _ (by decide))
  · next hr => exact closing (reaches_skip (by simp [hr]))
  · next hn _ => exact closing (reaches_skip (List.length_pos_iff.2 hn))

end ComponentLoader.Markup.Cursor
