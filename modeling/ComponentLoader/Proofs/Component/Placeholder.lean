import ComponentLoader.Proofs.Component.Reading
import ComponentLoader.Proofs.Component.Transfer
import ComponentLoader.Proofs.Markup.Brackets

/-! The script that is put in. Wherever everything may stand, it is read as a line
break, a start tag and an end tag, which are a block of their own at the top level
and leave what is open in an element as it is. -/
namespace ComponentLoader

open Markup (Dialect Head Lexeme NoCloserComes Reads Tag Token)

namespace Component

def emptyScript : List Char := "<script></script>".toList

def placeholder : List Char := scriptPlaceholder.toList

theorem placeholder_eq : placeholder = '\n' :: emptyScript := by
  decide +kernel

theorem emptyScript_eq : emptyScript =
    ['<', 's', 'c', 'r', 'i', 'p', 't', '>', '<', '/', 's', 'c', 'r', 'i', 'p', 't', '>'] := by
  decide +kernel

def scriptAt (p : Position) : Block where
  kind := .script
  attributes := []
  span := ⟨p, p.advance emptyScript⟩
  content := .point (p.advance (emptyScript.take 8))

theorem lexemes_emptyScript : Dialect.component.lexemes "<script></script>" =
    [⟨.startTag ⟨"script", [], false⟩, ⟨⟨0, 1, 1⟩, ⟨8, 1, 9⟩⟩, []⟩,
      ⟨.endTag "script", ⟨⟨8, 1, 9⟩, ⟨17, 1, 18⟩⟩, []⟩] := by
  decide +kernel

/-- No comment is ended by a script that is put in. -/
theorem noCloserComes_placeholder (s : List Char) : NoCloserComes s (placeholder ++ s) := by
  intro a absent present
  rw [placeholder_eq, emptyScript_eq, List.cons_append] at present
  rcases Text.infix_of_infix_append (by decide) present with inside | after
  · exact absent (inside.trans List.infix_append_left)
  · simp only [List.cons_append, List.nil_append, List.infix_cons_iff, Markup.strongCloser,
      List.cons_prefix_cons, Char.reduceEq, false_and, false_or] at after
    exact absent (List.IsInfix.trans after List.infix_append_right)

structure ScriptRead (p : Position) (k₁ k₂ : Lexeme) : Prop where
  startTag : k₁.token = .startTag ⟨"script", [], false⟩
  faultless : k₁.tagFaults = []
  opened : k₁.span = ⟨p, p.advance (emptyScript.take 8)⟩
  endTag : k₂.token = .endTag "script"
  closed : k₂.span = ⟨p.advance (emptyScript.take 8), p.advance emptyScript⟩

/-- Lexemes that say what those of the script alone say, at a place of another text. -/
theorem scriptRead_of_alike {p : Position} {ls : List Lexeme}
    (alike : List.Forall₂ (Lexeme.Alike (Position.Moved emptyScript .start p))
      (Dialect.component.lexemes "<script></script>") ls) :
    ∃ k₁ k₂, ls = [k₁, k₂] ∧ ScriptRead p k₁ k₂ := by
  rw [lexemes_emptyScript] at alike
  have lengths : Text.utf8Length (emptyScript.take 8) = 8 ∧ Text.utf8Length emptyScript = 17 := by
    decide +kernel
  obtain ⟨eight, all⟩ := lengths
  have place {s t : List Char} {n : Nat} {q q' : Position} (parts : emptyScript = s ++ t)
      (count : Text.utf8Length s = n) (moved : Position.Moved emptyScript .start p q q')
      (here : q.offset = n) : q' = p.advance s := by
    refine moved.eq parts ?_
    rw [here, count, Position.start, Nat.zero_add]
  have inner := (List.take_append_drop 8 emptyScript).symm
  have whole := (List.append_nil emptyScript).symm
  cases alike with
  | cons first alike =>
    cases alike with
    | cons second alike =>
      cases alike
      obtain ⟨⟨name, attributes, selfClosing⟩, startTag, same⟩ :=
        Layout.startTag_of_alike first rfl
      obtain rfl : "script" = name := same.name
      obtain rfl : attributes = [] := List.map_eq_nil_iff.mp same.attributes.symm
      obtain rfl : false = selfClosing := same.selfClosing
      have none : Text.utf8Length [] = 0 := rfl
      have start := place (List.nil_append _).symm none first.start rfl
      rw [Position.advance_nil] at start
      refine ⟨_, _, rfl, startTag, first.faults.symm, ?_, Layout.endTag_of_alike second rfl, ?_⟩
      · exact congrArg₂ Span.mk start (place inner eight first.stop rfl)
      · exact congrArg₂ Span.mk (place inner eight second.start rfl)
          (place whole all second.stop rfl)

/-- The lexemes of the script alone are read again before the rest. -/
theorem reads_emptyScript {h : Head} {rest : List Char} (mode : h.mode = .data)
    (text : h.rest = emptyScript ++ rest) :
    ∃ h' k₁ k₂, Reads .component h [k₁, k₂] h' ∧ h'.mode = .data ∧ h'.rest = rest ∧
      h'.position = h.position.advance emptyScript ∧ ScriptRead h.position k₁ k₂ := by
  obtain ⟨h₁, alone, done⟩ := Reads.of_lexemes (h := .start emptyScript)
    (lexemes_emptyScript.trans (List.append_nil _).symm)
  have last : h₁.mode = .data := by
    obtain ⟨h₀, first, last⟩ := Reads.split (show Reads .component _ ([_] ++ [_]) h₁ from alone)
    obtain ⟨-, token, rfl⟩ := last.single
    refine (Markup.mode_next (first.settled trivial)).resolve_right ?_
    rintro ⟨tag, other⟩
    rw [← token] at other
    cases other
  have given : Markup.Replaceable [] rest
      [⟨.startTag ⟨"script", [], false⟩, ⟨⟨0, 1, 1⟩, ⟨8, 1, 9⟩⟩, []⟩,
        ⟨.endTag "script", ⟨⟨8, 1, 9⟩, ⟨17, 1, 18⟩⟩, []⟩] := by
    refine .inr ⟨?_, .inl ?_⟩
    · rintro ⟨l, listed, s, comment⟩
      simp only [List.mem_cons, List.not_mem_nil, or_false] at listed
      rcases listed with rfl | rfl <;> cases comment
    · intro init m parts
      have last := congrArg List.getLast? parts
      rw [List.getLast?_concat] at last
      obtain rfl := Option.some.inj last
      exact ⟨nofun, nofun, .inr nofun⟩
  obtain ⟨ls', h', read, left, mode', stop, alike⟩ := alone.reread (v := rest) (a := emptyScript)
    (Head.rest_of_lexemes_nil done) given trivial (List.append_nil _).symm _ text mode
  rw [← lexemes_emptyScript] at alike
  obtain ⟨k₁, k₂, rfl, script⟩ := scriptRead_of_alike alike
  exact ⟨h', k₁, k₂, read, mode'.trans last, left, stop, script⟩

/-- What is put in is read as text and as an empty script. -/
theorem reads_placeholder {h : Head} {rest : List Char} (mode : h.mode = .data)
    (text : h.rest = placeholder ++ rest) :
    ∃ h' k k₁ k₂, Reads .component h [k, k₁, k₂] h' ∧ h'.mode = .data ∧ h'.rest = rest ∧
      h'.position = h.position.advance placeholder ∧ (∃ s, k.token = .text s) ∧
      ScriptRead (h.position.advance ['\n']) k₁ k₂ := by
  have parts : h.rest = ['\n'] ++ (emptyScript ++ rest) := by
    rw [text, placeholder_eq, List.cons_append, List.cons_append, List.nil_append]
  have bracket : (emptyScript ++ rest).head? = some '<' := by rw [emptyScript_eq]; rfl
  have more : h.rest ≠ [] := by
    rw [parts]
    exact List.cons_ne_nil _ _
  obtain ⟨lineBreak, next⟩ := Head.next_of_text mode parts (by decide) (by decide) (.inr bracket)
  obtain ⟨h', k₁, k₂, read, mode', left, stop, script⟩ :=
    reads_emptyScript (h := h.next .component) (by rw [next]) (by rw [next])
  rw [next] at stop script
  refine ⟨h', _, k₁, k₂, .next more read, mode', left, ?_, lineBreak, script⟩
  rw [stop, placeholder_eq, Position.advance_cons, Position.advance_cons, Position.advance_nil]

theorem arrives_emptyScript {kinds : BlockKinds} {p : Position} {k₁ k₂ : Lexeme}
    (h : ScriptRead p k₁ k₂) (scripts : kinds.script = true) (rest : List Lexeme) :
    Layout.Arrives kinds (k₁ :: k₂ :: rest) [scriptAt p] rest := by
  have found : Layout.blockKind? kinds ⟨"script", [], false⟩ = some .script := by
    have named : BlockKind.ofTag? "script" = some .script := by decide
    simp [Layout.blockKind?, named, BlockKinds.contains, scripts]
  have ends : k₂.ends "script" = true := by
    rw [Lexeme.ends, h.endTag]
    decide +kernel
  have faultless := (Layout.find_tagSyntax_eq_none_iff k₁).mpr h.faultless
  have read : Layout.readBlock .script ⟨"script", [], false⟩ k₁ (k₂ :: rest) =
      .ok (scriptAt p, rest) := by
    rw [Layout.readBlock_of_opens faultless rfl, Layout.blockEnd_here ends, h.opened, h.closed]
    rfl
  exact .block h.startTag found read (.here rest)

/-- An empty script ends no element and opens none. -/
theorem emptying_emptyScript {opened : List String} {p : Position} {k₁ k₂ : Lexeme}
    (h : ScriptRead p k₁ k₂) (some : opened ≠ []) (rest : List Lexeme) :
    Layout.emptying? opened (k₁ :: k₂ :: rest) = Layout.emptying? opened rest := by
  have first : Layout.track opened k₁.token = "script" :: opened := by
    have opens : (⟨"script", [], false⟩ : Tag).opens = true := by decide +kernel
    rw [h.startTag, Layout.track, if_pos opens]
  have second : Layout.track ("script" :: opened) k₂.token = opened := by
    have same : Text.sameIgnoringCase "script" "script" = true := by decide +kernel
    rw [h.endTag, Layout.track]
    simp [List.findIdx?_cons, same]
  rw [Layout.emptying_cons, first, if_neg (List.cons_ne_nil _ _), Layout.emptying_cons, second,
    if_neg some]

end Component

namespace Layout

variable {kinds : BlockKinds} {k : Lexeme} {content : String} {ls ls' : List Lexeme}

theorem Arrives.of_text {bs : List Block} (text : k.token = .text content)
    (h : Arrives kinds ls bs ls') : Arrives kinds (k :: ls) bs ls' := by
  refine .other ?_ h
  intro tag token
  rw [text] at token
  cases token

theorem emptying_text {opened : List String} (text : k.token = .text content) (some : opened ≠ [])
    (ls : List Lexeme) : emptying? opened (k :: ls) = emptying? opened ls := by
  have same : track opened k.token = opened := by
    rw [text]
    rfl
  rw [emptying_cons, same, if_neg some]

end Layout

end ComponentLoader
