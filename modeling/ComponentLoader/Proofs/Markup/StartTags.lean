import ComponentLoader.Proofs.Markup.RawText

/-! What every lexeme of a text is like, whatever the dialect. A start tag has a name and
no two attributes of one name, and reading reports no fault of nesting or of a
directive. -/
namespace ComponentLoader.Markup

structure Tag.Proper (tag : Tag) : Prop where
  named : tag.name ≠ ""
  distinct : (tag.attributes.map (·.name)).Nodup

namespace Cursor

theorem distinct_readAttributes (c : Cursor) (kept : List Attribute)
    (distinct : (kept.map (·.name)).Nodup) : ((c.readAttributes kept).1.map (·.name)).Nodup := by
  fun_induction readAttributes c kept with
  | case1 c kept h => exact distinct
  | case2 c kept h c' hs ih => exact ih distinct
  | case3 c kept h hs next hd ih => exact ih distinct
  | case4 c kept h hs next hd ih =>
    refine ih ?_
    rw [List.map_append, List.nodup_append]
    refine ⟨distinct, List.pairwise_singleton _ _, ?_⟩
    intro name listed other own same
    obtain ⟨a, ha, rfl⟩ := List.mem_map.mp listed
    obtain rfl := List.mem_singleton.mp own
    exact hd (List.any_eq_true.mpr ⟨a, ha, beq_iff_eq.mpr same⟩)

theorem proper_readTag {c : Cursor} (letter : c.rest.head?.any Char.isAlpha = true) :
    c.readTag.1.Proper := by
  constructor
  · rw [readTag_name]
    cases rest : c.rest with
    | nil =>
      rw [rest] at letter
      cases letter
    | cons ch s =>
      rw [rest] at letter
      rw [List.takeWhile_cons_of_pos (isNameChar_of_isAlpha letter)]
      intro empty
      exact absurd (String.ofList_eq_empty_iff.mp empty) (List.cons_ne_nil _ _)
  · have distinct := distinct_readAttributes (c.takeWhile isNameChar).2 [] List.nodup_nil
    unfold readTag
    dsimp only
    split <;> exact distinct

end Cursor

variable {d : Dialect} {source : String} {l : Lexeme}

theorem proper_of_mem_lexemes (listed : l ∈ d.lexemes source) {tag : Tag}
    (token : l.token = .startTag tag) : tag.Proper := by
  obtain ⟨before, rest, cut⟩ := List.mem_iff_append.mp listed
  obtain ⟨h, -, -, rfl, -⟩ := exists_head cut
  obtain ⟨⟨-, letter, read⟩, -⟩ := Cursor.follows_read d h.cursor h.mode tag token
  have proper := Cursor.proper_readTag letter
  rwa [read] at proper

theorem lexical_of_mem_lexemes (listed : l ∈ d.lexemes source) :
    ∀ f ∈ l.faults, f.kind.isLexical = true := by
  obtain ⟨before, rest, cut⟩ := List.mem_iff_append.mp listed
  obtain ⟨h, -, more, rfl, -⟩ := exists_head cut
  intro f met
  exact ((h.yields more d).reaches.kinds f met).resolve_left List.not_mem_nil

end ComponentLoader.Markup
