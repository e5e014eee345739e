import ComponentLoader.Proofs.Markup.LexemeReaches
import ComponentLoader.Proofs.Tiling

/-! Reading a whole text loses nothing. The lexemes tile the text, whatever the
delimiters and content models, and everything that they say of places in it is
so. One token is treated by `Cursor.yields_read`; what is left of the text
carries the argument over the run. -/
namespace ComponentLoader.Markup

namespace Cursor

/-- A place that is passed lies in the text, between the ends of the way. -/
theorem Passes.place {c c' : Cursor} {p : Position} {source : String} {before : List Char}
    (passed : c.Passes c' p) (text : source.toList = before ++ c.rest)
    (here : c.position = Position.start.advance before) :
    p.In source ∧ c.position.offset ≤ p.offset := by
  obtain ⟨a, b, hs, rfl⟩ := passed
  refine ⟨⟨before ++ a, b ++ c'.rest, by simp [text, hs], by simp [here]⟩, ?_⟩
  rw [Position.offset_advance]
  exact Nat.le_add_right _ _

theorem Passes.offset_le {c c' : Cursor} {p : Position} (passed : c.Passes c' p)
    (reached : c.Reaches c') : p.offset ≤ c'.position.offset := by
  obtain ⟨a, b, hs, rfl⟩ := passed
  obtain ⟨s, hs', stop⟩ := reached.text
  obtain rfl : s = a ++ b := List.append_cancel_right (hs'.symm.trans hs)
  rw [stop, Position.advance_append, (c.position.advance a).offset_advance]
  exact Nat.le_add_right _ _

end Cursor

/-- What a lexeme says of places in the text is so: its ends lie in the text, a
text or an interpolation is what is between them, attributes begin and end in
the text, and faults lie within the lexeme. -/
structure Lexeme.Faithful (source : String) (l : Lexeme) : Prop where
  ends : l.span.In source
  payload : ∀ content, l.token = .text content ∨ l.token = .interpolation content →
    content = l.span.text source
  attributes : ∀ tag, l.token = .startTag tag → ∀ a ∈ tag.attributes, a.span.In source
  faults : ∀ f ∈ l.faults, f.span.In source ∧ l.span.start.offset ≤ f.span.start.offset ∧
    f.span.start.offset ≤ f.span.stop.offset ∧ f.span.stop.offset ≤ l.span.stop.offset

/-- The token that is read next makes a faithful lexeme. -/
theorem Cursor.Yields.faithful {c c' : Cursor} {token : Token} {source : String}
    {before : List Char} (h : c.Yields token c') (text : source.toList = before ++ c.rest)
    (here : c.position = Position.start.advance before) (fresh : c.faults = []) :
    Lexeme.Faithful source ⟨token, ⟨c.position, c'.position⟩, c'.faults⟩ := by
  have inText {p : Position} (passed : c.Passes c' p) := passed.place text here
  have payload (content : String) (same : c.rest = content.toList ++ c'.rest) :
      content = (Span.mk c.position c'.position).text source := by
    obtain ⟨s, hs, stop⟩ := h.reaches.text
    obtain rfl : s = content.toList := List.append_cancel_right (hs.symm.trans same)
    rw [stop, here, ← Position.advance_append,
      Span.text_of_parts (b := c'.rest) (by rw [text, hs, List.append_assoc]), String.ofList_toList]
  have shows := h.shows
  refine ⟨⟨(inText h.reaches.passes_start).1, (inText h.reaches.passes_stop).1⟩, ?_, ?_, ?_⟩
  · rintro content (said | said) <;> (subst said; exact payload content shows)
  · rintro tag said a ha
    subst said
    exact ⟨(inText (shows a ha).1).1, (inText (shows a ha).2).1⟩
  · intro f hf
    obtain ⟨met, same, places⟩ := h.reaches.faults
    rw [same, fresh, List.nil_append] at hf
    obtain ⟨p, passed, point⟩ := places f hf
    rw [point]
    exact ⟨⟨(inText passed).1, (inText passed).1⟩, (inText passed).2, Nat.le_refl _,
      passed.offset_le h.reaches⟩

/-- From any place on, in any mode, the lexemes tile what is left of the text. -/
theorem lexemesFrom_tile (d : Dialect) (mode : Mode) (p : Position) {source : String}
    (before rest : List Char) (text : source.toList = before ++ rest)
    (here : p = Position.start.advance before) :
    Span.Tiles p ((d.lexemesFrom mode p rest).map (·.span))
        (Position.start.advance source.toList) ∧
      ∀ l ∈ d.lexemesFrom mode p rest, l.Faithful source := by
  induction mode, p, rest using Dialect.lexemesFrom.induct d generalizing before with
  | case1 mode p rest more next ih =>
    rw [Dialect.lexemesFrom, dif_pos more]
    have token : Cursor.Yields ⟨rest, p, [], false⟩ next.1 next.2.2 :=
      Cursor.yields_read d mode (List.length_pos_iff.mp more)
    obtain ⟨s, hs, stop⟩ := token.reaches.text
    have nonempty : 0 < Text.utf8Length s := by
      have shorter : next.2.2.rest.length < rest.length :=
        Cursor.length_read_lt (c := ⟨rest, p, [], false⟩) d mode more
      refine Nat.pos_of_ne_zero fun empty => ?_
      have none := Text.utf8Length_eq_zero_iff.mp empty
      have same : rest = next.2.2.rest := by simpa [none] using hs
      exact Nat.lt_irrefl _ (same ▸ shorter)
    have further : source.toList = (before ++ s) ++ next.2.2.rest := by
      rw [text, List.append_assoc]
      exact congrArg (before ++ ·) hs
    obtain ⟨tiles, faithful⟩ := ih _ further (by rw [Position.advance_append, ← here]; exact stop)
    refine ⟨⟨rfl, ?_, tiles⟩, ?_⟩
    · change p.offset < next.2.2.position.offset
      have stop : next.2.2.position = p.advance s := stop
      rw [stop, Position.offset_advance]
      omega
    · intro l hl
      cases hl with
      | head => exact token.faithful text here rfl
      | tail _ hl => exact faithful l hl
  | case2 mode p rest done =>
    rw [Dialect.lexemesFrom, dif_neg done]
    have : rest = [] := List.length_eq_zero_iff.mp (by omega)
    subst this
    refine ⟨?_, by simp⟩
    simp only [List.map_nil, Span.Tiles, here, text, List.append_nil]

theorem tiles_lexemes (d : Dialect) (source : String) :
    Span.Tiles .start ((d.lexemes source).map (·.span)) (Position.start.advance source.toList) :=
  (lexemesFrom_tile d .data .start [] source.toList rfl rfl).1

theorem faithful_of_mem_lexemes {d : Dialect} {source : String} {l : Lexeme}
    (listed : l ∈ d.lexemes source) : l.Faithful source :=
  (lexemesFrom_tile d .data .start [] source.toList rfl rfl).2 l listed

end ComponentLoader.Markup
