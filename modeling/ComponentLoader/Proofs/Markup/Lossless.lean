import ComponentLoader.Proofs.Markup.ByteReading
import ComponentLoader.Proofs.Markup.Tiles

/-! Reading a whole text loses nothing, and is read from its bytes without a step into a
character. -/
namespace ComponentLoader.Markup

namespace Bytes

open Text.Utf8

/-- The number of bytes of each token, to the end of the bytes. A token of none would be read
without end, and gives nothing here. -/
def sizes? (d : Dialect) (mode : Mode) (bs : List UInt8) : Option (List Nat) :=
  if bs.isEmpty then some []
  else do
    let (mode, rest) ← read? d bs mode
    if _shorter : rest.length < bs.length then
      let sizes ← sizes? d mode rest
      return (bs.length - rest.length) :: sizes
    else none
termination_by bs.length

theorem sizes?_encode (d : Dialect) (mode : Mode) (p : Position) (s : List Char) :
    sizes? d mode (encode s) =
      some ((d.lexemesFrom mode p s).map fun l => l.span.stop.offset - l.span.start.offset) := by
  induction mode, p, s using Dialect.lexemesFrom.induct d with
  | case1 mode p s more next ih =>
    have left : s ≠ [] := List.length_pos_iff.mp more
    have read : read? d (encode s) mode = some (next.2.1, encode next.2.2.rest) :=
      read?_encode (c := ⟨s, p, [], false⟩) d mode left
    have reached : Cursor.Reaches ⟨s, p, [], false⟩ next.2.2 :=
      (Cursor.yields_read d mode left).reaches
    have fewer : (encode next.2.2.rest).length < (encode s).length :=
      length_encode_lt reached (Cursor.length_read_lt d mode more)
    obtain ⟨taken, parts, stop⟩ :
        ∃ taken, s = taken ++ next.2.2.rest ∧ next.2.2.position = p.advance taken := reached.text
    have size : (encode s).length - (encode next.2.2.rest).length =
        next.2.2.position.offset - p.offset := by
      have bytes : (encode s).length = (encode taken).length + (encode next.2.2.rest).length := by
        rw [← List.length_append, ← encode_append, ← parts]
      rw [bytes, stop, Position.offset_advance, length_encode taken, Nat.add_sub_cancel,
        Nat.add_sub_cancel_left]
    have more? : ¬ (encode s).isEmpty = true := by
      rw [isEmpty_encode, List.isEmpty_iff]
      exact left
    rw [sizes?, if_neg more?, read, Dialect.lexemesFrom, dif_pos more]
    simp only [Option.bind_eq_bind, Option.bind_some, dif_pos fewer, ih, size]
    rfl
  | case2 mode p s done =>
    have : s = [] := List.length_eq_zero_iff.mp (Nat.eq_zero_of_not_pos done)
    subst this
    rw [sizes?, Dialect.lexemesFrom, dif_neg done]
    rfl

end Bytes

/-- Reading a text as lexemes never asks for more than is left of it, and the
lexemes tile the text from its beginning to its end: none is empty, each begins
where the one before it ends, and together they are the text. Texts and
interpolations are exactly what they were read from, every place that a lexeme
names is a place of the text, and its faults lie within it. Where the bytes of
the text are read, no step falls within a character or past the end, and the
tokens have the same sizes. -/
theorem lexemes_lossless (d : Dialect) (source : String) :
    (∀ (c : Cursor) (mode : Mode), c.rest ≠ [] → (c.read d mode).2.2.overrun = c.overrun) ∧
    Span.Tiles .start ((d.lexemes source).map (·.span)) (Position.start.advance source.toList) ∧
    String.join ((d.lexemes source).map (·.span.text source)) = source ∧
    (∀ l ∈ d.lexemes source, l.Faithful source) ∧
    Bytes.sizes? d .data (Text.Utf8.encode source.toList) =
      some ((d.lexemes source).map fun l => l.span.stop.offset - l.span.start.offset) := by
  have whole : source.toList = [] ++ source.toList := rfl
  obtain ⟨tiles, faithful⟩ := lexemesFrom_tile d .data .start [] source.toList whole rfl
  refine ⟨fun c mode more => (Cursor.yields_read d mode more).reaches.overrun, tiles, ?_, faithful,
    Bytes.sizes?_encode d .data .start source.toList⟩
  have ends : ∀ s ∈ (d.lexemes source).map (·.span), s.In source := by
    intro s hs
    obtain ⟨l, hl, rfl⟩ := List.mem_map.mp hs
    exact (faithful l hl).ends
  have joined := tiles.join_text ends (Position.start_in source)
  rw [List.map_map] at joined
  exact joined.trans (Span.text_whole source)

end ComponentLoader.Markup
