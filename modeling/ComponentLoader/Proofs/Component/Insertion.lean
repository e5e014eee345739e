import ComponentLoader.Proofs.Component.Placeholder

/-! A script that is put in changes nothing else. The lexemes before it are read again
as they were, its own are a block at the top level, and those after it are read again
at their new places. -/
namespace ComponentLoader

open Markup (Dialect Head Lexeme Reads Tag Token)

namespace Span

/-- Corresponding stretches of two texts hold the same. -/
theorem text_of_moved {source text : String} {x y x' y' a : List Char} {q r q' r' : Position}
    (parts : source.toList = x ++ (a ++ y)) (parts' : text.toList = x' ++ (a ++ y'))
    (first : Position.Moved a (Position.start.advance x) (Position.start.advance x') q q')
    (last : Position.Moved a (Position.start.advance x) (Position.start.advance x') r r')
    (h : q.offset ≤ r.offset) : (Span.mk q r).text source = (Span.mk q' r').text text := by
  obtain ⟨s, b, here, rfl, rfl⟩ := first
  obtain ⟨s', b', there, rfl, rfl⟩ := last
  simp only [← Position.advance_append, Position.offset_start_advance, Text.utf8Length_append] at h
  obtain ⟨m, rfl⟩ := Text.exists_eq_append_of_utf8Length_le (here.symm.trans there) (by omega)
  simp only [← Position.advance_append, ← List.append_assoc]
  rw [text_of_parts (b := b' ++ y) (by rw [parts, there]; simp),
    text_of_parts (b := b' ++ y') (by rw [parts', there]; simp)]

end Span

structure Block.Kept (source text : String) (b b' : Block) : Prop where
  kind : b.kind = b'.kind
  attributes : b.attributes = b'.attributes
  written : b'.synthetic = false
  span : b.span.text source = b'.span.text text
  content : b.content.text source = b'.content.text text

/-- The text ends inside the tag with which the block ends. -/
def Block.CutOff (source : String) (b : Block) : Prop :=
  b.span.stop = Position.start.advance source.toList ∧
    ∃ l ∈ Dialect.component.lexemes source, l.span.stop = b.span.stop ∧
      ∃ f ∈ l.faults, f.kind = .eofInTag

theorem Block.Alike.kept {source text : String} {x y x' y' a : List Char} {b b' : Block}
    (alike : b.Alike (Position.Moved a (Position.start.advance x) (Position.start.advance x')) b')
    (parts : source.toList = x ++ (a ++ y)) (parts' : text.toList = x' ++ (a ++ y'))
    (placed : b.Placed source) (written : b.synthetic = false) : b.Kept source text b' := by
  have order : b.span.start.offset ≤ b.span.stop.offset :=
    Nat.le_trans (Nat.le_of_lt placed.start_lt) (Nat.le_trans placed.content_le placed.stop_le)
  refine ⟨alike.kind, alike.attributes, alike.synthetic ▸ written, ?_, ?_⟩
  · exact Span.text_of_moved parts parts' alike.start alike.stop order
  · exact Span.text_of_moved parts parts' alike.contentStart alike.contentStop placed.content_le

namespace Layout

variable {kinds : BlockKinds} {ls after : List Lexeme} {bs bs' : List Block} {b : Block}

/-- The lexeme with which a block ends, and reading before and after it. -/
theorem Arrives.exists_last (h : Arrives kinds ls (bs ++ b :: bs') []) :
    ∃ init m after, ls = (init ++ [m]) ++ after ∧ m.span.stop = b.span.stop ∧
      (∀ s, m.token ≠ .text s) ∧ (∀ s, m.token ≠ .comment s) ∧
      (∀ tag, m.token = .startTag tag → tag.selfClosing = true) ∧
      Arrives kinds ls (bs ++ [b]) after ∧ Arrives kinds after bs' [] := by
  obtain ⟨l, rest, after, tag, kind, arrives, token, found, read, further⟩ := h.at_block
  obtain ⟨before, cut⟩ := arrives.suffix
  have through := arrives.trans (.block token found read (.here after))
  obtain ⟨-, -, -, -, ⟨closing, span, -, rfl⟩ | ⟨-, inside, m, rfl, closes, span, -⟩⟩ :=
    readBlock_inversion read
  · refine ⟨before, l, after, by rw [← cut]; simp, by rw [span], ?_, ?_, ?_, through, further⟩
    · rw [token]
      exact nofun
    · rw [token]
      exact nofun
    · intro tag' token'
      rw [token] at token'
      cases token'
      exact closing
  · obtain ⟨n, ending, -⟩ := Lexeme.exists_of_ends closes.ends
    refine ⟨before ++ l :: inside, m, after, by rw [← cut]; simp, by rw [span], ?_, ?_, ?_,
      through, further⟩
    · rw [ending]
      exact nofun
    · rw [ending]
      exact nofun
    · intro tag' token'
      rw [ending] at token'
      cases token'

end Layout

namespace Component

variable {o : ComponentOptions} {source : String} {written : Layout}

theorem markSynthetic_append {offset : Nat} {before : List Block} {b : Block} (after : List Block)
    (absent : ∀ b ∈ before, b.kind ≠ .script) (kind : b.kind = .script)
    (here : b.span.start.offset = offset) :
    markSynthetic? offset (before ++ b :: after) =
      some (before ++ { b with synthetic := true } :: after) := by
  induction before with
  | nil => rw [List.nil_append, markSynthetic?, if_pos ⟨kind, here⟩, List.nil_append]
  | cons b' before ih =>
    have other : ¬ (b'.kind = .script ∧ b'.span.start.offset = offset) :=
      fun h => absent b' List.mem_cons_self h.1
    rw [List.cons_append, markSynthetic?, if_neg other,
      ih fun k hk => absent k (List.mem_cons_of_mem b' hk)]
    rfl

theorem markSynthetic_inversion {offset : Nat} {blocks marked : List Block}
    (h : markSynthetic? offset blocks = some marked) :
    ∃ before b after, blocks = before ++ b :: after ∧ b.kind = .script ∧
      b.span.start.offset = offset ∧
      marked = before ++ { b with synthetic := true } :: after := by
  induction blocks generalizing marked with
  | nil => cases h
  | cons b blocks ih =>
    rw [markSynthetic?] at h
    split at h
    · next here =>
      cases h
      exact ⟨[], b, blocks, rfl, here.1, here.2, rfl⟩
    · obtain ⟨rest, found, rfl⟩ := Option.map_eq_some_iff.mp h
      obtain ⟨before, b', after, rfl, kind, here, rfl⟩ := ih found
      exact ⟨b :: before, b', after, rfl, kind, here, rfl⟩

/-- Past a tag that opens nothing everything may stand. -/
theorem mode_of_last {init : List Lexeme} {m : Lexeme} {h₀ h : Head}
    (read : Reads .component h₀ (init ++ [m]) h) (settled : h₀.mode.Settled)
    (plain : ∀ tag, m.token = .startTag tag → tag.selfClosing = true) : h.mode = .data := by
  obtain ⟨h₁, first, last⟩ := read.split
  obtain ⟨-, rfl, rfl⟩ := last.single
  rcases Markup.mode_next (first.settled settled) with data | ⟨tag, token⟩
  · exact data
  · rw [Head.mode_after token, Dialect.modeAfter, if_pos (plain tag token)]

/-- With a script put in after a tag at the top level, the same blocks are read before it and
after it. -/
theorem read_withScript {kinds : BlockKinds} {source : String} {init : List Lexeme} {m : Lexeme}
    {bs bs' : List Block} {h : Head} {pre : List Char} (scripts : kinds.script = true)
    (read : Reads .component (.start source.toList) (init ++ [m]) h)
    (parts : source.toList = pre ++ h.rest) (closed : m.ClosedTag h.rest)
    (plain : ∀ tag, m.token = .startTag tag → tag.selfClosing = true)
    (arrives : Layout.Arrives kinds (Dialect.component.lexemes source) bs (h.lexemes .component))
    (further : Layout.Arrives kinds (h.lexemes .component) bs' []) :
    ∃ layout before behind,
      Layout.read kinds (String.ofList (pre ++ (placeholder ++ h.rest))) = .ok layout ∧
      layout.blocks = before ++ scriptAt (Position.start.advance (pre ++ ['\n'])) :: behind ∧
      List.Forall₂ (Block.Alike (Position.Moved pre .start .start)) bs before ∧
      List.Forall₂ (Block.Alike (Position.Moved h.rest (Position.start.advance pre)
        (Position.start.advance (pre ++ placeholder)))) bs' behind := by
  have mode := mode_of_last read trivial plain
  have place : h.position = Position.start.advance pre := by
    obtain ⟨before, whole, place⟩ := read.exists_before
    rw [place, List.append_cancel_right (whole.symm.trans parts)]
  have given : Markup.Replaceable h.rest (placeholder ++ h.rest) (init ++ [m]) := by
    refine .inr ⟨fun _ => noCloserComes_placeholder h.rest, .inl ?_⟩
    intro init' m' same
    obtain ⟨-, last⟩ := List.append_inj' same rfl
    exact (List.cons.inj last).1 ▸ closed
  obtain ⟨ls, h₁, read₁, rest₁, mode₁, place₁, alike⟩ :=
    read.reread rfl given trivial parts (.start (pre ++ (placeholder ++ h.rest))) rfl rfl
  obtain ⟨h₂, k, k₁, k₂, read₂, mode₂, rest₂, place₂, ⟨lineBreak, text⟩, script⟩ :=
    reads_placeholder (mode₁.trans mode) rest₁
  obtain ⟨last, behind, done⟩ :=
    Reads.of_lexemes (h := h) (List.append_nil (h.lexemes .component)).symm
  obtain ⟨ls', h₃, read₃, rest₃, mode₃, place₃, alike'⟩ :=
    behind.reread (Head.rest_of_lexemes_nil done) (.inl ⟨rfl, rfl⟩) (mode ▸ trivial)
      (List.append_nil h.rest).symm _ (rest₂.trans (List.append_nil h.rest).symm)
      (mode₂.trans mode.symm)
  have stop₁ : h₁.position = Position.start.advance pre := place₁
  rw [stop₁] at place₂ script
  rw [← Position.advance_append] at script
  have whole : Dialect.component.lexemes (String.ofList (pre ++ (placeholder ++ h.rest))) =
      ls ++ (k :: k₁ :: k₂ :: ls') := by
    have all := ((read₁.append read₂).append read₃).lexemes_eq
    rw [Head.lexemes_nil rest₃] at all
    rw [Dialect.lexemes, String.toList_ofList]
    exact all.trans (by simp)
  rw [place, place₂, ← Position.advance_append] at alike'
  have cut : Dialect.component.lexemes source = (init ++ [m]) ++ h.lexemes .component :=
    read.lexemes_eq
  have stays : Layout.StaysOpen (h.lexemes .component) (k :: k₁ :: k₂ :: ls') := by
    intro opened some never
    rw [Layout.emptying_text text some, emptying_emptyScript script some, ← List.append_nil ls']
    rw [← List.append_nil (h.lexemes .component)] at never
    exact Layout.emptying_none_of_alike alike' (fun _ _ none => none) some never
  rw [cut] at arrives
  rw [← List.append_nil (h.lexemes .component)] at further
  obtain ⟨before, arrives₁, same⟩ := arrives.of_alike alike stays
  obtain ⟨behind, arrives₃, same'⟩ := further.of_alike alike' (fun _ _ none => none)
  rw [List.append_nil] at arrives₃
  have own := (arrives_emptyScript script scripts ls').of_text text
  have all := arrives₁.trans (own.trans arrives₃)
  rw [← whole] at all
  obtain ⟨nodes, onePass⟩ := Layout.onePass_of_arrives_nil 0 all
  exact ⟨_, before, behind, (Layout.read_eq_onePass _ _).trans onePass, rfl, same, same'⟩

/-- The component `c` is `d` with a script put in between two parts of its text: after the first
template, or at the end. The blocks before it stay where they are, and those after it move with
their text. -/
structure InsertedAt (source : String) (pre post : List Char) (d c : Component) : Prop where
  inserted : c.inserted = true
  parts : source.toList = pre ++ post
  text : c.source.toList = pre ++ (placeholder ++ post)
  afterTemplate : ∀ t, d.template? = some t → t.span.stop = Position.start.advance pre
  atEnd : d.template? = none → post = []
  blocks : ∃ bs bs' before behind, d.blocks = bs ++ bs' ∧
    c.blocks = before ++
      { scriptAt (Position.start.advance (pre ++ ['\n'])) with synthetic := true } :: behind ∧
    List.Forall₂ (Block.Kept source c.source) bs before ∧
    List.Forall₂ (Block.Kept source c.source) bs' behind ∧
    List.Forall₂ (Block.Alike (Position.Moved pre .start .start)) bs before ∧
    List.Forall₂ (Block.Alike (Position.Moved post (Position.start.advance pre)
      (Position.start.advance (pre ++ placeholder)))) bs' behind

theorem withScript_append {source : String} {pre post : List Char}
    (parts : source.toList = pre ++ post) :
    withScript source (Text.utf8Length pre) = String.ofList (pre ++ (placeholder ++ post)) := by
  rw [withScript, parts, Text.takeBytes_append, Text.dropBytes_append]
  apply String.toList_injective
  simp [placeholder]

theorem insertionOffset_of_template {d : Component} {t : Block} {pre : List Char}
    (found : d.template? = some t) (stop : t.span.stop = Position.start.advance pre) :
    d.insertionOffset = Text.utf8Length pre := by
  rw [insertionOffset, found]
  exact (congrArg Position.offset stop).trans (Position.offset_start_advance pre)

theorem insertionOffset_at_end {d : Component}
    (last : ∀ t, d.template? = some t → t.span.stop = Position.start.advance d.source.toList) :
    d.insertionOffset = Text.utf8Length d.source.toList := by
  cases template : d.template? with
  | none => rw [insertionOffset, template]
  | some t => exact insertionOffset_of_template template (last t template)

theorem blocksOf_eq_nil_iff {d : Component} {kind : BlockKind} :
    d.blocksOf kind = [] ↔ ∀ b ∈ d.blocks, b.kind ≠ kind := by
  simp [blocksOf, List.filter_eq_nil_iff]

theorem present_script_eq_false_iff {d : Component} :
    d.present.script = false ↔ d.blocksOf .script = [] := by
  rw [blocksOf_eq_nil_iff]
  simp [present, BlockKinds.ofList]

section Missing

variable {offset : Nat} (first : Layout.read o.kinds source = .ok written)
  (asked : o.addScript = true ∧ o.kinds.script = true)
  (missing : (Component.mk o.filename source written false).blocksOf .script = [])
  (place : (Component.mk o.filename source written false).insertionOffset = offset)

include first asked missing place

/-- Where a script is to be put in and there is none, the text with one put in is read. -/
theorem read_of_missing :
    read o source =
      (Layout.read o.kinds (withScript source offset)).bind fun layout =>
        match markSynthetic? (offset + 1) layout.blocks with
        | some blocks => .ok ⟨o.filename, withScript source offset, { layout with blocks }, true⟩
        | none => .error .scriptNotRecognized := by
  simp only [read, first, asked.1, asked.2, present_script_eq_false_iff.mpr missing, place, bind,
    Except.bind, Bool.and_self, Bool.not_false, if_true]
  rfl

theorem exists_marked {c : Component} (success : read o source = .ok c) :
    ∃ layout blocks, Layout.read o.kinds (withScript source offset) = .ok layout ∧
      markSynthetic? (offset + 1) layout.blocks = some blocks ∧
      c = ⟨o.filename, withScript source offset, { layout with blocks }, true⟩ := by
  rw [read_of_missing first asked missing place] at success
  cases second : Layout.read o.kinds (withScript source offset) with
  | error cause =>
    rw [second] at success
    cases success
  | ok layout =>
    rw [second] at success
    cases marked : markSynthetic? (offset + 1) layout.blocks with
    | none =>
      simp only [Except.bind, marked] at success
      cases success
    | some blocks =>
      simp only [Except.bind, marked] at success
      cases success
      exact ⟨layout, blocks, rfl, marked, rfl⟩

end Missing

theorem noScript_of_alike {near : Position → Position → Prop} {bs bs' : List Block}
    (alike : List.Forall₂ (Block.Alike near) bs bs') (none : ∀ b ∈ bs, b.kind ≠ .script) :
    ∀ b ∈ bs', b.kind ≠ .script := by
  induction alike with
  | nil => exact none
  | @cons b b' bs bs' first rest ih =>
    obtain ⟨own, others⟩ := List.forall_mem_cons.mp none
    exact List.forall_mem_cons.mpr ⟨first.kind ▸ own, ih others⟩

theorem scriptAt_start (pre : List Char) :
    (scriptAt (Position.start.advance (pre ++ ['\n']))).span.start.offset =
      Text.utf8Length pre + 1 := by
  rw [scriptAt, Position.offset_start_advance, Text.utf8Length_append]
  rfl

/-- Blocks are read as they are written. -/
theorem written_of_arrives {kinds : BlockKinds} {ls ls' : List Lexeme} {bs : List Block}
    (h : Layout.Arrives kinds ls bs ls') : ∀ b ∈ bs, b.synthetic = false := by
  intro b hb
  obtain ⟨before, after, rfl⟩ := List.mem_iff_append.mp hb
  obtain ⟨l, rest, after', tag, kind, -, -, -, read, -⟩ := h.at_block
  exact (Layout.readBlock_inversion read).2.2.2.1

theorem forall_kept {source text : String} {x y x' y' a : List Char} {bs bs' : List Block}
    (alike : List.Forall₂ (Block.Alike
      (Position.Moved a (Position.start.advance x) (Position.start.advance x'))) bs bs')
    (parts : source.toList = x ++ (a ++ y)) (parts' : text.toList = x' ++ (a ++ y'))
    (placed : ∀ b ∈ bs, b.Placed source) (written : ∀ b ∈ bs, b.synthetic = false) :
    List.Forall₂ (Block.Kept source text) bs bs' := by
  induction alike with
  | nil => exact .nil
  | @cons b b' bs bs' first rest ih =>
    refine .cons (first.kept parts parts' (placed b List.mem_cons_self)
      (written b List.mem_cons_self)) (ih ?_ ?_)
    · exact fun k hk => placed k (List.mem_cons_of_mem b hk)
    · exact fun k hk => written k (List.mem_cons_of_mem b hk)

/-- Blocks that stay where they are before what is put in, or move with their text after it, are as
they were written. -/
theorem kept_around {source text : String} {pre post : List Char} {bs bs' before behind : List Block}
    (parts : source.toList = pre ++ post) (parts' : text.toList = pre ++ (placeholder ++ post))
    (placed : ∀ b ∈ bs ++ bs', b.Placed source) (written : ∀ b ∈ bs ++ bs', b.synthetic = false)
    (alike : List.Forall₂ (Block.Alike (Position.Moved pre .start .start)) bs before)
    (alike' : List.Forall₂ (Block.Alike (Position.Moved post (Position.start.advance pre)
      (Position.start.advance (pre ++ placeholder)))) bs' behind) :
    List.Forall₂ (Block.Kept source text) bs before ∧
      List.Forall₂ (Block.Kept source text) bs' behind := by
  obtain ⟨placed, placed'⟩ := List.forall_mem_append.mp placed
  obtain ⟨written, written'⟩ := List.forall_mem_append.mp written
  constructor
  · have start : List.Forall₂ (Block.Alike (Position.Moved pre (Position.start.advance [])
      (Position.start.advance []))) bs before := alike
    exact forall_kept start parts parts' placed written
  · have last : source.toList = pre ++ (post ++ []) := by rw [parts, List.append_nil]
    have last' : text.toList = (pre ++ placeholder) ++ (post ++ []) := by
      rw [parts', List.append_nil, List.append_assoc]
    exact forall_kept alike' last last' placed' written'

theorem template_split {d : Component} {t : Block} (h : d.template? = some t) :
    ∃ bs bs', d.blocks = bs ++ t :: bs' := by
  rw [template?, blocksOf, List.head?_filter] at h
  obtain ⟨-, bs, bs', parts, -⟩ := List.find?_eq_some_iff_append.mp h
  exact ⟨bs, bs', parts⟩

/-- What is read without putting a script in is the text as it is. -/
theorem bare_of_read {d : Component} (h : read { o with addScript := false } source = .ok d) :
    ∃ written, Layout.read o.kinds source = .ok written ∧
      d = ⟨o.filename, source, written, false⟩ := by
  obtain ⟨written, first, same | ⟨⟨asked, -⟩, -⟩⟩ := read_cases h
  · exact ⟨written, first, same⟩
  · cases asked

/-- Where the text does not end inside the tag with which a block ends, what is read up to that tag
ends with it, and the block does. -/
theorem closed_of_last {source : String} {init after : List Lexeme} {m : Lexeme} {t : Block}
    (cut : Dialect.component.lexemes source = (init ++ [m]) ++ after)
    (stop : m.span.stop = t.span.stop) (noText : ∀ s, m.token ≠ .text s)
    (noComment : ∀ s, m.token ≠ .comment s) (closed : ¬ t.CutOff source) :
    ∃ h pre, Reads .component (.start source.toList) (init ++ [m]) h ∧
      h.lexemes .component = after ∧ source.toList = pre ++ h.rest ∧
      t.span.stop = Position.start.advance pre ∧ m.ClosedTag h.rest := by
  obtain ⟨h, reading, further⟩ := Reads.of_lexemes (h := .start source.toList) cut
  obtain ⟨pre, parts, place⟩ := reading.exists_before
  have last : m.span.stop = h.position := by
    obtain ⟨h₀, -, single⟩ := reading.split
    obtain ⟨-, rfl, rfl⟩ := single.single
    rfl
  have stop' : t.span.stop = Position.start.advance pre := by rw [← stop, last, place]
  refine ⟨h, pre, reading, further, parts, stop', noText, noComment, ?_⟩
  by_cases done : h.rest = []
  · right
    intro within
    obtain ⟨listed, -⟩ := List.mem_filter.mp within
    obtain ⟨f, met, kind⟩ := List.mem_map.mp listed
    rw [done, List.append_nil] at parts
    exact closed ⟨by rw [stop', parts], m, by rw [cut]; simp, stop, f, met, kind⟩
  · exact .inl done

/-- A script can be put in after a template whose last tag is not cut off by the end of the text. -/
theorem inserted_of_closed {d : Component} {t : Block}
    (found : read { o with addScript := false } source = .ok d)
    (asked : o.addScript = true ∧ o.kinds.script = true) (missing : d.blocksOf .script = [])
    (template : d.template? = some t) (closed : ¬ t.CutOff source) :
    ∃ c pre post, read o source = .ok c ∧ InsertedAt source pre post d c := by
  obtain ⟨-, placed⟩ := covers_of_read found
  obtain ⟨written, first, rfl⟩ := bare_of_read found
  obtain ⟨bs, bs', split⟩ := template_split template
  have whole : written.blocks = (bs ++ [t]) ++ bs' := split.trans (List.append_cons ..)
  have arrives := Layout.arrives_of_ok ((Layout.read_eq_onePass _ _).symm.trans first)
  have plain := written_of_arrives arrives
  rw [show written.blocks = bs ++ t :: bs' from split] at arrives
  obtain ⟨init, m, after, cut, stop, noText, noComment, noOpening, through, further⟩ :=
    arrives.exists_last
  obtain ⟨h, pre, reading, rfl, parts, stop', tag⟩ :=
    closed_of_last cut stop noText noComment closed
  obtain ⟨layout, before, behind, second, blocks, alike, alike'⟩ :=
    read_withScript asked.2 reading parts tag noOpening through further
  have place := insertionOffset_of_template template stop'
  have none : ∀ b ∈ (bs ++ [t]) ++ bs', b.kind ≠ .script :=
    whole ▸ blocksOf_eq_nil_iff.mp missing
  have marked := markSynthetic_append behind
    (noScript_of_alike alike (List.forall_mem_append.mp none).1) rfl (scriptAt_start pre)
  rw [← blocks] at marked
  rw [← withScript_append parts] at second
  have success := read_of_missing first asked missing place
  simp only [second, Except.bind, marked] at success
  have text : (withScript source (Text.utf8Length pre)).toList = pre ++ (placeholder ++ h.rest) := by
    rw [withScript_append parts, String.toList_ofList]
  obtain ⟨kept, kept'⟩ :=
    kept_around parts text (whole ▸ placed) (whole ▸ plain) alike alike'
  refine ⟨_, pre, h.rest, success, rfl, parts, text, ?_, ?_, ?_⟩
  · intro t' template'
    rw [template] at template'
    cases template'
    exact stop'
  · intro nothing
    rw [template] at nothing
    cases nothing
  · exact ⟨bs ++ [t], bs', before, behind, whole, rfl, kept, kept', alike, alike'⟩

end Component

end ComponentLoader
