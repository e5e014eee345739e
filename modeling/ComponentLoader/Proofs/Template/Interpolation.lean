import ComponentLoader.Proofs.Markup.PlainTags
import ComponentLoader.Proofs.Markup.Tails
import ComponentLoader.Proofs.Template.Nodes
import ComponentLoader.Proofs.Template.TextTokens

/-! Interpolated text reads the same wherever it stands: as the value of an attribute, in an
element that may hold everything, and in one that holds interpolations and text only. Each is
what the text is made of when it is taken apart from the left. -/
namespace ComponentLoader.Template

open Markup (Cursor Delimiters Dialect EndTagStands Head Lettered Lexeme Reads Tag)

namespace Builder

variable {o : Options} {b : Builder}

/-- The lexemes of pieces add the pieces to the text that is being read. -/
theorem run_text {ls : List Lexeme} {ps : List Piece}
    (tokens : ls.map (·.token) = ps.map Piece.token) :
    ∃ faults, ls.foldl (step o) b = { b with pending := b.pending ++ ps, faults } := by
  induction ps generalizing ls b with
  | nil =>
    obtain rfl := List.map_eq_nil_iff.mp tokens
    exact ⟨b.faults, by rw [List.foldl_nil, List.append_nil]⟩
  | cons p ps ih =>
    obtain ⟨l, rest, rfl, token, tokens⟩ := List.map_eq_cons_iff.mp tokens
    have first : step o b l =
        { b with pending := b.pending ++ [p], faults := b.faults ++ l.faults } := by
      cases p <;> simp only [step, token, Piece.token]
    obtain ⟨faults, run⟩ := ih (b := step o b l) tokens
    refine ⟨faults, ?_⟩
    rw [List.foldl_cons, run, first, List.append_assoc]
    rfl

theorem step_opens {l : Lexeme} {tag : Tag} (token : l.token = .startTag tag)
    (opens : tag.opens = true) (nothing : b.pending = []) :
    ∃ faults, step o b l =
      { b with
        opened := ⟨tag.name, Node.ofTag o.delimiters tag, l.span.start⟩ :: b.opened
        faults } := by
  simp only [step, token, flush, nothing, List.isEmpty_nil, Bool.true_or, if_true, openElement,
    opens]
  exact ⟨_, rfl⟩

theorem append_outside (n : Node) (span : Span) (outside : b.opened = []) :
    ∃ faults, b.append n span = { b with roots := b.roots ++ [n], faults } := by
  unfold append
  dsimp only
  split <;> simp only [push, report, outside] <;> exact ⟨_, rfl⟩

/-- The text that is being read ends in the innermost open element. -/
theorem flush_within {e : OpenElement} {outer : List OpenElement} (trim : o.trim = .keep)
    (opened : b.opened = e :: outer) (some : b.pending ≠ []) :
    b.flush o =
      { b with
        pending := []
        opened :=
          { e with
            node :=
              { e.node with
                children := e.node.children ++
                  [{ text := .some (.ofPieces o.delimiters b.pending) }] } } :: outer } := by
  have written : b.pending.isEmpty = false := List.isEmpty_eq_false_iff.mpr some
  simp [flush, written, trim, push, opened]

/-- The end tag of the only open element ends the text in it and the element. -/
theorem step_ends {l : Lexeme} {e : OpenElement} {name : String} (trim : o.trim = .keep)
    (token : l.token = .endTag name) (opened : b.opened = [e]) (some : b.pending ≠ [])
    (same : Text.sameIgnoringCase e.name name = true) :
    ∃ faults, step o b l =
      { opened := [], pending := [], faults
        roots := b.roots ++
          [{ e.node with
            children := e.node.children ++
              [{ text := .some (.ofPieces o.delimiters b.pending) }] }] } := by
  have flushed := flush_within (b := { b with faults := b.faults ++ l.faults }) trim opened some
  simp only [step, token, flushed, closeElement, List.findIdx?_cons, same, if_true, closeMissing,
    closeInnermost]
  exact append_outside _ _ rfl

end Builder

/-- A template of one element that holds a text: its start tag, the lexemes of the text and its end
tag. -/
theorem children_of_element {d : Delimiters} {source : String} {l₁ l₂ : Lexeme} {ls : List Lexeme}
    {tag : Tag} {name : String} {ps : List Piece}
    (lexemes : (Dialect.template d).lexemes source = l₁ :: (ls ++ [l₂]))
    (startTag : l₁.token = .startTag tag) (opens : tag.opens = true)
    (tokens : ls.map (·.token) = ps.map Piece.token) (some : ps ≠ [])
    (endTag : l₂.token = .endTag name) (same : Text.sameIgnoringCase tag.name name = true) :
    (parse ⟨.keep, d⟩ source).node.children =
      [{ Node.ofTag d tag with children := [{ text := .some (.ofPieces d ps) }] }] := by
  obtain ⟨fs, first⟩ := Builder.step_opens (o := ⟨.keep, d⟩) (b := {}) startTag opens rfl
  obtain ⟨fs', text⟩ := Builder.run_text (o := ⟨.keep, d⟩)
    (b := Builder.step ⟨.keep, d⟩ {} l₁) tokens
  rw [first] at text
  have some' : [] ++ ps ≠ [] := some
  obtain ⟨fs'', last⟩ := Builder.step_ends (o := ⟨.keep, d⟩)
    (b := ⟨[⟨tag.name, Node.ofTag d tag, l₁.span.start⟩], [], [] ++ ps, fs'⟩) rfl endTag rfl some'
    same
  have roots : (built ⟨.keep, d⟩ source).roots =
      [{ Node.ofTag d tag with children := [{ text := .some (.ofPieces d ps) }] }] := by
    unfold built
    dsimp only
    rw [lexemes, List.foldl_cons, List.foldl_append, List.foldl_cons, List.foldl_nil, first, text,
      last]
    rfl
  rw [parse_eq, roots]
  rfl

section

variable {d : Dialect} {h : Head} (noBracket : '<' ∉ d.delimiters.opening.toList)

include noBracket

theorem read_startTag {ch : Char} {r : List Char} (mode : h.mode = .data)
    (rest : h.rest = '<' :: ch :: r) (letter : ch.isAlpha = true) :
    h.cursor.read d h.mode = h.cursor.readStartTag d := by
  rw [mode]
  exact (Cursor.readData_bracket noBracket rest).trans (Cursor.readMarkup_startTag rest letter)

/-- The end tag up to which a text was read is read next. -/
theorem read_endTag {name : String} {u : List Char} (named : d.delimiters.opening ≠ "")
    (holds : HoldsUpTo ('<' :: u) h.mode) (rest : h.rest = '<' :: u) (letters : Lettered name)
    (stands : EndTagStands name ('<' :: u)) :
    h.cursor.read d h.mode = (h.cursor.readEndTag.1, .data, h.cursor.readEndTag.2) := by
  have rest : h.cursor.rest = '<' :: u := rest
  have data : h.cursor.readData d = (h.cursor.readEndTag.1, .data, h.cursor.readEndTag.2) :=
    Cursor.readData_eq_endTag noBracket letters (by rwa [rest])
  cases mode : h.mode with
  | data => exact data
  | replaceable element =>
    rw [mode] at holds
    have closed : ¬ d.delimiters.openAt h.cursor.rest = true := by
      rw [rest, openAt_iff named]
      intro begins
      have none := Text.prefix_of_prefix_append (b := []) noBracket begins
      exact named (String.toList_eq_nil_iff.mp (List.prefix_nil.mp none))
    have nothing : Markup.beforeEndTag element ([] ++ '<' :: u) = [] :=
      Markup.beforeEndTag_eq (.inr holds) fun x y parts more =>
        absurd (List.append_eq_nil_iff.mp parts.symm).2 more
    show h.cursor.readReplaceable d element = _
    unfold Cursor.readReplaceable
    rw [if_neg closed, rest, ← List.nil_append ('<' :: u), nothing]
    exact data
  | raw element =>
    rw [mode] at holds
    exact absurd holds id

end

/-- The document of one element with a text is read as its start tag, the pieces of the text and its
end tag. -/
theorem exists_lexemes_element {d : Delimiters} {source : String} {ch : Char}
    {r s n : List Char} {es : List Expr} {tag : Tag} (named : d.opening ≠ "")
    (noBracket : '<' ∉ d.opening.toList) (plain : '<' ∉ s) (some : s ≠ [])
    (decomposed : Decomposes d s es) (letters : Lettered (String.ofList n))
    (front : source.toList = '<' :: ch :: r) (letter : ch.isAlpha = true)
    (read : ((Head.start source.toList).cursor.skip 1).readTag.1 = tag)
    (left : ((Head.start source.toList).cursor.skip 1).readTag.2.rest =
      s ++ '<' :: '/' :: (n ++ ['>']))
    (holds : HoldsUpTo ('<' :: '/' :: (n ++ ['>'])) ((Dialect.template d).modeAfter tag)) :
    ∃ l₁ ls l₂ ps, (Dialect.template d).lexemes source = l₁ :: (ls ++ [l₂]) ∧
      l₁.token = .startTag tag ∧ ls.map (·.token) = ps.map Piece.token ∧ ps ≠ [] ∧
      l₂.token = .endTag (String.ofList n) ∧ segments d ps = es := by
  have opened := read_startTag (d := .template d) (h := .start source.toList) noBracket rfl front
    letter
  have more : (Head.start source.toList).rest ≠ [] := by
    rw [front]
    exact List.cons_ne_nil _ _
  have mode : ((Head.start source.toList).next (.template d)).mode =
      (Dialect.template d).modeAfter tag := by
    rw [← read]
    exact congrArg (·.2.1) opened
  have left' : ((Head.start source.toList).next (.template d)).rest =
      s ++ '<' :: '/' :: (n ++ ['>']) := (congrArg (·.2.2.rest) opened).trans left
  obtain ⟨ps, ⟨ls, h₂, reads, last, holds', tokens⟩, same, written⟩ :=
    exists_readAs (d := .template d) named noBracket left' plain (mode ▸ holds) decomposed
  have stands : EndTagStands (String.ofList n) ('<' :: '/' :: (n ++ ['>'])) := by
    refine ⟨n, ['>'], rfl, by rw [String.toList_ofList], fun c head => ?_⟩
    exact .inr (.inr (Option.some.inj head).symm)
  have closed := read_endTag (d := .template d) noBracket named holds' last letters stands
  have alpha := (letters.isAlpha (congrArg _ String.toList_ofList.symm)).2
  have end? : (h₂.cursor.skip 2).rest = n ++ '>' :: [] := congrArg (List.drop 2) last
  obtain ⟨ended, done⟩ := Cursor.readTag_name_only
    (fun c hc => Markup.isNameChar_of_isAlpha (alpha c hc)) end?
  have more' : h₂.rest ≠ [] := by
    rw [last]
    exact List.cons_ne_nil _ _
  have nothing : (h₂.next (.template d)).rest = [] := by
    refine (congrArg (·.2.2.rest) closed).trans ?_
    exact (Cursor.rest_readEndTag _).trans done
  refine ⟨(Head.start source.toList).lexeme (.template d), ls, h₂.lexeme (.template d), ps, ?_, ?_,
    tokens, written some, ?_, same⟩
  · have whole : (Dialect.template d).lexemes source =
        (Head.start source.toList).lexemes (.template d) := rfl
    rw [whole, Head.lexemes_cons more, reads.lexemes_eq, Head.lexemes_cons more',
      Head.lexemes_nil nothing]
  · rw [← read]
    exact congrArg (·.1) opened
  · refine (congrArg (·.1) closed).trans ?_
    show Markup.Token.endTag (h₂.cursor.skip 2).readTag.1.name = _
    rw [ended]

/-- A template of one element that holds a text is the element, with what the text is made of. -/
theorem children_of_document {d : Delimiters} {source : String} {ch : Char} {r s n : List Char}
    {es : List Expr} {tag : Tag} (named : d.opening ≠ "") (noBracket : '<' ∉ d.opening.toList)
    (plain : '<' ∉ s) (some : s ≠ []) (decomposed : Decomposes d s es)
    (letters : Lettered (String.ofList n)) (opens : tag.opens = true)
    (name : tag.name = String.ofList n) (front : source.toList = '<' :: ch :: r)
    (letter : ch.isAlpha = true)
    (read : ((Head.start source.toList).cursor.skip 1).readTag.1 = tag)
    (left : ((Head.start source.toList).cursor.skip 1).readTag.2.rest =
      s ++ '<' :: '/' :: (n ++ ['>']))
    (holds : HoldsUpTo ('<' :: '/' :: (n ++ ['>'])) ((Dialect.template d).modeAfter tag)) :
    (parse ⟨.keep, d⟩ source).node.children =
      [{ Node.ofTag d tag with children := [{ text := .some (.ofSegments es) }] }] := by
  obtain ⟨l₁, ls, l₂, ps, lexemes, startTag, tokens, written, endTag, same⟩ :=
    exists_lexemes_element named noBracket plain some decomposed letters front letter read left
      holds
  have alike : Text.sameIgnoringCase tag.name (String.ofList n) = true := by
    rw [name]
    exact BEq.rfl
  rw [children_of_element lexemes startTag opens tokens written endTag alike, Expr.ofPieces, same]

section

variable {d : Delimiters} {v source : String} {es : List Expr} (named : d.opening ≠ "")
  (noBracket : '<' ∉ d.opening.toList) (plain : '<' ∉ v.toList) (some : v.toList ≠ [])
  (decomposed : Decomposes d v.toList es)

include named noBracket plain some decomposed

theorem children_of_paragraph (unquoted : '"' ∉ v.toList)
    (front : source.toList = '<' :: (['p'] ++ ' ' :: (['a'] ++ '=' :: '"' :: (v.toList ++
      '"' :: '>' :: (v.toList ++ '<' :: '/' :: (['p'] ++ ['>'])))))) :
    (parse ⟨.keep, d⟩ source).node.children =
      [{ tag := .some "p", properties := [{ name := "a", expr := .ofSegments es }],
         children := [{ text := .some (.ofSegments es) }] }] := by
  have opened : ((Head.start source.toList).cursor.skip 1).rest = _ := congrArg (List.drop 1) front
  obtain ⟨⟨span, read⟩, left⟩ := Cursor.readTag_quoted
    (List.all_eq_true.mp (by decide)) (List.all_eq_true.mp (by decide)) (List.cons_ne_nil _ _)
    opened unquoted
  have content : (Dialect.template d).content (String.ofList ['p']) = .data := by
    have raw : ¬ (String.ofList ['p'] = "script" ∨ String.ofList ['p'] = "style") := by decide
    have replaceable : ¬ String.ofList ['p'] = "textarea" := by decide
    simp only [Dialect.template, if_neg raw, if_neg replaceable]
  have opens : Tag.opens ⟨String.ofList ['p'],
      [⟨String.ofList ['a'], .some (String.ofList v.toList), span⟩], false⟩ = true := by
    have notVoid : Markup.isVoidElement ((String.ofList ['p']).map Char.toLower) = false := by
      decide +kernel
    simp only [Tag.opens, notVoid, Bool.not_false, Bool.and_self]
  have letters : Lettered (String.ofList ['p']) :=
    ⟨by decide, List.all_eq_true.mp (by decide +kernel)⟩
  rw [children_of_document named noBracket plain some decomposed letters opens rfl front rfl read
    left (by simp only [Dialect.modeAfter, content]; trivial)]
  have role : Role.ofName (String.ofList ['a']) = .property := by decide
  have value : Expr.ofText d v = .ofSegments es := by
    rw [Expr.ofText, Expr.ofPieces, segments_pieces named decomposed]
  simp only [Node.ofTag, List.filterMap_cons, List.filterMap_nil, role, Property.read,
    String.ofList_toList, Option.map_some, Option.getD_some, value]
  rfl

theorem children_of_textarea
    (front : source.toList = '<' :: ("textarea".toList ++ '>' :: (v.toList ++
      '<' :: '/' :: ("textarea".toList ++ ['>'])))) :
    (parse ⟨.keep, d⟩ source).node.children =
      [{ tag := .some "textarea", children := [{ text := .some (.ofSegments es) }] }] := by
  have opened : ((Head.start source.toList).cursor.skip 1).rest = _ := congrArg (List.drop 1) front
  obtain ⟨read, left⟩ := Cursor.readTag_name_only
    (List.all_eq_true.mp (by decide +kernel)) opened
  rw [String.ofList_toList] at read
  have letters : Lettered "textarea" := ⟨by decide, List.all_eq_true.mp (by decide +kernel)⟩
  have content : (Dialect.template d).content "textarea" = .replaceable := by
    have raw : ¬ ("textarea" = "script" ∨ "textarea" = "style") := by decide
    simp only [Dialect.template, if_neg raw, if_true]
  have opens : Tag.opens ⟨"textarea", [], false⟩ = true := by decide +kernel
  have stands : EndTagStands "textarea" ('<' :: '/' :: ("textarea".toList ++ ['>'])) := by
    refine ⟨_, ['>'], rfl, rfl, fun c head => ?_⟩
    exact .inr (.inr (Option.some.inj head).symm)
  rw [children_of_document named noBracket plain some decomposed
    (by rwa [String.ofList_toList]) opens String.ofList_toList.symm front rfl read left
    (by simp only [Dialect.modeAfter, content]; exact stands)]
  rfl

end

/-- Interpolated text reads the same wherever it stands. Where every opening delimiter that is
reached has a closing one after it, the text can be taken apart from the left in one way, and what
it is made of is the value of an attribute with this text, the text in an element that may hold
everything and the text in one that holds interpolations and text only. -/
theorem interpolated_text_alike (d : Delimiters) (v : String) (named : d.opening ≠ "")
    (noBracket : '<' ∉ d.opening.toList) (some : v ≠ "") (plain : '<' ∉ v.toList)
    (unquoted : '"' ∉ v.toList) (closed : Closed d v.toList) :
    ∃ es, (∀ es', Decomposes d v.toList es' ↔ es' = es) ∧
      (parse ⟨.keep, d⟩ ("<p a=\"" ++ v ++ "\">" ++ v ++ "</p>")).node.children =
        [{ tag := .some "p", properties := [{ name := "a", expr := .ofSegments es }],
           children := [{ text := .some (.ofSegments es) }] }] ∧
      (parse ⟨.keep, d⟩ ("<textarea>" ++ v ++ "</textarea>")).node.children =
        [{ tag := .some "textarea", children := [{ text := .some (.ofSegments es) }] }] := by
  obtain ⟨es, decomposed⟩ := exists_decomposition named closed
  have written : v.toList ≠ [] := fun none => some (String.toList_eq_nil_iff.mp none)
  refine ⟨es, fun es' => ⟨fun other => ?_, fun same => same ▸ decomposed⟩, ?_, ?_⟩
  · exact (segments_pieces named other).symm.trans (segments_pieces named decomposed)
  · refine children_of_paragraph named noBracket plain written decomposed unquoted ?_
    simp [String.toList_append]
  · refine children_of_textarea named noBracket plain written decomposed ?_
    simp [String.toList_append]

/-- An interpolation with a filter between two literal texts, in the three places. -/
theorem interpolated_text_alike_filtered :
    let v := "a \x7b\x7b b | c \x7d\x7d d"
    let e : Expr := .text [.string "a ", .interpolation "b" ["c"], .string " d"]
    (parse ⟨.keep, {}⟩ ("<p a=\"" ++ v ++ "\">" ++ v ++ "</p>")).node.children =
        [{ tag := some "p", properties := [{ name := "a", expr := e }],
           children := [{ text := some e }] }] ∧
      (parse ⟨.keep, {}⟩ ("<textarea>" ++ v ++ "</textarea>")).node.children =
        [{ tag := some "textarea", children := [{ text := some e }] }] := by
  intro v e
  have opens : Text.First "\x7b\x7b".toList v.toList "a ".toList " b | c \x7d\x7d d".toList :=
    Text.first_of_splitOnce (by decide +kernel)
  have closes :
      Text.First "\x7d\x7d".toList " b | c \x7d\x7d d".toList " b | c ".toList " d".toList :=
    Text.first_of_splitOnce (by decide +kernel)
  have parts : Filter.split " b | c ".toList = [['b'], ['c']] := by decide +kernel
  have last : Decomposes {} " d".toList [.string " d"] := .literal (by decide +kernel)
  have decomposed : Decomposes {} v.toList
      [.string "a ", .interpolation "b" ["c"], .string " d"] :=
    .interpolation opens closes parts last
  obtain ⟨es, same, paragraph, textarea⟩ := interpolated_text_alike {} v (by decide) (by decide)
    (by decide) (by decide) (by decide) decomposed.closed
  obtain rfl := (same _).mp decomposed
  exact ⟨paragraph, textarea⟩

end ComponentLoader.Template
