import ComponentLoader.Proofs.Component.InsertionAtEnd
import ComponentLoader.Proofs.Template.Elements
import ComponentLoader.Proofs.Template.FaultPlaces

/-! Where a component is refused. A start tag that cannot be read as that of a block is
a stretch of the text that is given: if it is met in the text with a script put in, it
ends before the script. -/
namespace ComponentLoader

open Markup (Dialect Head Lexeme Reads Tag Token)

/-- What ends in the text that two texts begin with is a stretch of both. -/
theorem Span.Within.of_common {source text : String} {x y z : List Char} {s : Span}
    (h : s.Within text) (parts : text.toList = x ++ y) (parts' : source.toList = x ++ z)
    (before : s.stop.offset ≤ Text.utf8Length x) :
    s.Within source ∧ s.text source = s.text text := by
  obtain ⟨a, t, b, whole, start, stop⟩ := h.ends.1.between h.ends.2 h.order
  rw [stop, Position.offset_start_advance] at before
  obtain ⟨r, rfl⟩ := Text.exists_eq_append_of_utf8Length_le (whole.symm.trans parts) before
  have whole' : source.toList = a ++ t ++ (r ++ z) := by rw [parts', List.append_assoc]
  obtain ⟨start', stop'⟩ := s
  obtain rfl : start' = Position.start.advance a := start
  obtain rfl : stop' = Position.start.advance (a ++ t) := stop
  refine ⟨⟨⟨⟨a, t ++ (r ++ z), ?_, rfl⟩, ⟨a ++ t, r ++ z, whole', rfl⟩⟩, h.order⟩, ?_⟩
  · rw [whole', List.append_assoc]
  · rw [Span.text_of_parts whole', Span.text_of_parts whole]

/-- The error is about a start tag of the text, which cannot be read as that of a block. -/
def ComponentError.About (kinds : BlockKinds) (text : String) (cause : ComponentError) : Prop :=
  ∃ l rest tag kind, l ∈ Dialect.component.lexemes text ∧ l.token = .startTag tag ∧
    Layout.blockKind? kinds tag = some kind ∧ Layout.readBlock kind tag l rest = .error cause

namespace Layout

variable {kinds : BlockKinds} {source text : String} {cause : ComponentError} {l : Lexeme}
  {rest : List Lexeme} {tag : Tag} {kind : BlockKind} {bs : List Block}

theorem span_within_lexeme (listed : l ∈ Dialect.component.lexemes text) : l.span.Within text := by
  have tiles := Markup.tiles_lexemes .component text
  obtain ⟨before, after, cut⟩ := List.mem_iff_append.mp listed
  rw [cut, List.map_append, List.map_cons] at tiles
  exact ⟨(Markup.faithful_of_mem_lexemes listed).ends, Nat.le_of_lt tiles.split.2.1⟩

/-- A block is refused at its start tag. -/
theorem span_of_refused (listed : l ∈ Dialect.component.lexemes text)
    (refused : readBlock kind tag l rest = .error cause) :
    cause.span.Within text ∧ cause.span.stop.offset ≤ l.span.stop.offset := by
  rcases cause_of_readBlock refused with ⟨f, met, rfl⟩ | rfl
  · obtain ⟨ends, -, order, before⟩ :=
      (Markup.faithful_of_mem_lexemes listed).faults f met
    exact ⟨⟨ends, order⟩, before⟩
  · exact ⟨span_within_lexeme listed, Nat.le_refl _⟩

/-- A text that is refused is refused at the start tag of a block. -/
theorem about_of_error (failed : read kinds text = .error cause) :
    cause.span.Within text ∧ cause.About kinds text := by
  obtain ⟨bs, l, rest, tag, kind, arrives, token, found, refused⟩ := exists_refused failed
  have listed := arrives.suffix.subset List.mem_cons_self
  exact ⟨(span_of_refused listed refused).1, l, rest, tag, kind, listed, token, found, refused⟩

/-- In what is put in, a bracket and a letter stand only where the script begins. -/
theorem eq_emptyScript_of_suffix {a t : List Char} {ch : Char}
    (whole : Component.placeholder = a ++ '<' :: ch :: t) (letter : ch.isAlpha = true) :
    '<' :: ch :: t = Component.emptyScript := by
  rw [Component.placeholder_eq, Component.emptyScript_eq] at whole
  rw [Component.emptyScript_eq]
  simp only [List.cons_eq_append_iff, List.cons.injEq, Char.reduceEq, false_and, and_false,
    true_and, reduceCtorEq, and_self, List.nil_eq, List.append_eq_nil_iff, exists_const, or_self,
    or_false, ↓existsAndEq, false_or] at whole
  obtain ⟨c, -, ⟨-, rfl, rfl⟩ | ⟨-, rfl, -⟩⟩ := whole
  · rfl
  · cases letter

section Script

variable {h : Head} (token : (h.lexeme .component).token = .startTag tag)
  (found : blockKind? kinds tag = some kind)

include token found

/-- The script that is put in is not refused. -/
theorem readBlock_emptyScript (scripts : kinds.script = true) (mode : h.mode = .data)
    (here : h.rest = Component.emptyScript) :
    readBlock kind tag (h.lexeme .component) ((h.next .component).lexemes .component) ≠
      .error cause := by
  intro refused
  obtain ⟨h', k₁, k₂, own, -, done, -, script⟩ :=
    Component.reads_emptyScript mode (here.trans (List.append_nil _).symm)
  have more : h.rest ≠ [] := by
    rw [here, Component.emptyScript_eq]
    exact List.cons_ne_nil _ _
  have lexemes : h.lexeme .component :: (h.next .component).lexemes .component = [k₁, k₂] := by
    rw [← Head.lexemes_cons more, own.lexemes_eq, Head.lexemes_nil done, List.append_nil]
  obtain ⟨nodes, read⟩ :=
    onePass_of_arrives_nil 0 (Component.arrives_emptyScript script scripts [])
  rw [← lexemes, onePass_of_stuck (.here _) ⟨_, _, tag, kind, rfl, token, found, refused⟩] at read
  cases read

/-- Where the start tag of a block goes on into the script, it is cut off in the text without the
script, and refused there. -/
theorem refused_without_script {init : List Lexeme} {stretch s : List Char} {ch : Char}
    (reads : Reads .component (.start text.toList) init h) (mode : h.mode = .data)
    (whole : text.toList = stretch ++ h.rest) (source' : source.toList = stretch ++ '<' :: ch :: s)
    (rest : h.rest = '<' :: ch :: s ++ '\n' :: Component.emptyScript) (letter : ch.isAlpha = true)
    (arrives : Arrives kinds (init ++ h.lexemes .component) bs (h.lexemes .component))
    (across : ∀ b, (h.next .component).rest ≠ b ++ '\n' :: Component.emptyScript) :
    ∃ cause, read kinds source = .error cause := by
  have noEndTag (r : List Char) : h.rest ≠ '<' :: '/' :: r := by
    intro solidus
    rw [rest] at solidus
    obtain rfl := (List.cons.inj (List.cons.inj solidus).2).1
    cases letter
  have given : Markup.Replaceable h.rest ('<' :: ch :: s) init := by
    refine .inr ⟨?_, .inr ⟨by rw [rest]; exact List.cons_ne_nil _ _, noEndTag, ?_⟩⟩
    · intro _ a absent present
      refine absent (present.trans ?_)
      rw [rest, ← List.append_assoc]
      exact (List.prefix_append _ _).isInfix
    · rw [rest]
      exact List.prefix_append _ _
  obtain ⟨ls, h₁, reads₁, rest₁, mode₁, -, alike⟩ :=
    reads.reread rfl given trivial whole (.start source.toList) source' rfl
  obtain ⟨⟨tag₁, token₁, name⟩, fault, done⟩ :=
    h.startTag_cut_off mode (mode₁.trans mode) rest₁ rest letter token across
  have more₁ : h₁.rest ≠ [] := by
    rw [rest₁]
    exact List.cons_ne_nil _ _
  have lexemes : h₁.lexemes .component = [h₁.lexeme .component] := by
    rw [Head.lexemes_cons more₁, Head.lexemes_nil done]
  have stays : StaysOpen (h.lexemes .component) [h₁.lexeme .component] := by
    intro opened some _
    rw [emptying_cons, token₁, if_neg (track_startTag_ne_nil some tag₁)]
    rfl
  obtain ⟨bs₁, arrives₁, -⟩ := arrives.of_alike alike stays
  have found₁ : blockKind? kinds tag₁ = some kind := by
    rw [blockKind?, name]
    exact found
  cases met : (h₁.lexeme .component).faults.find? (·.kind.isTagSyntax) with
  | none =>
    rw [(find_tagSyntax_eq_none_iff _).mp met] at fault
    cases fault
  | some f =>
    have refused : readBlock kind tag₁ (h₁.lexeme .component) [] =
        .error (.malformedTag tag₁.name f) := by
      rw [readBlock, met]
    have failed : onePass kinds 0 _ = _ := onePass_of_stuck arrives₁
      ⟨_, [], tag₁, kind, rfl, token₁, found₁, refused⟩
    rw [← lexemes, ← reads₁.lexemes_eq] at failed
    exact ⟨_, (read_eq_onePass kinds source).trans failed⟩

end Script

/-- A block that is refused after a script is put in at the end is one whose start tag ends before
the script. -/
theorem refused_before_script {written : Layout} (scripts : kinds.script = true)
    (first : read kinds source = .ok written)
    (parts : text.toList = source.toList ++ Component.placeholder)
    (arrives : Arrives kinds (Dialect.component.lexemes text) bs (l :: rest))
    (token : l.token = .startTag tag) (found : blockKind? kinds tag = some kind)
    (refused : readBlock kind tag l rest = .error cause) :
    l.span.stop.offset ≤ Text.utf8Length source.toList := by
  obtain ⟨init, cut⟩ := arrives.suffix
  obtain ⟨h, reads, more, rfl, rfl⟩ := Markup.exists_head cut.symm
  obtain ⟨stretch, whole, place⟩ := reads.exists_before
  have mode := h.mode_of_startTag (reads.settled trivial) more token
  obtain ⟨ch, t, front, letter⟩ := h.startTag_inversion mode more token
  rcases List.append_eq_append_iff.mp (parts.symm.trans whole) with
    ⟨a, -, inside⟩ | ⟨c, source', inside⟩
  · rw [front] at inside
    have here := front.trans (eq_emptyScript_of_suffix inside letter)
    exact absurd refused (readBlock_emptyScript token found scripts mode here)
  · rw [Component.placeholder_eq] at inside parts
    obtain ⟨s, rfl⟩ : ∃ s, c = '<' :: ch :: s := by
      rw [front] at inside
      rcases c with _ | ⟨c, _ | ⟨d, c⟩⟩
      · cases inside
      · obtain rfl : ch = '\n' := (List.cons.inj (List.cons.inj inside).2).1
        cases letter
      · obtain ⟨rfl, further⟩ := List.cons.inj inside
        obtain ⟨rfl, -⟩ := List.cons.inj further
        exact ⟨c, rfl⟩
    rw [← cut, ← Head.lexemes_cons more] at arrives
    by_contra beyond
    have across (b : List Char) :
        (h.next .component).rest ≠ b ++ '\n' :: Component.emptyScript := by
      intro left
      refine beyond ?_
      obtain ⟨taken, -, split, stop⟩ := Head.exists_text more .component
      have same : source.toList = (stretch ++ taken) ++ b := by
        rw [split, left] at whole
        have ends : source.toList ++ '\n' :: Component.emptyScript =
            (stretch ++ taken) ++ b ++ '\n' :: Component.emptyScript := by
          rw [← parts, whole]
          simp
        exact List.append_cancel_right ends
      rw [Head.lexeme_stop, stop, place, ← Position.advance_append, Position.offset_start_advance,
        same, Text.utf8Length_append (stretch ++ taken)]
      exact Nat.le_add_right _ _
    obtain ⟨cause', failed⟩ :=
      refused_without_script token found reads mode whole source' inside letter arrives across
    rw [first] at failed
    cases failed

/-- A text that is refused only with a script at its end is refused at one of its own stretches. -/
theorem about_before_script {written : Layout} (scripts : kinds.script = true)
    (first : read kinds source = .ok written)
    (parts : text.toList = source.toList ++ Component.placeholder)
    (failed : read kinds text = .error cause) :
    cause.span.Within source ∧ cause.About kinds text ∧
      cause.span.text source = cause.span.text text := by
  obtain ⟨bs, l, rest, tag, kind, arrives, token, found, refused⟩ := exists_refused failed
  have listed := arrives.suffix.subset List.mem_cons_self
  have before := refused_before_script scripts first parts arrives token found refused
  obtain ⟨within, own⟩ := span_of_refused listed refused
  obtain ⟨here, same⟩ :=
    within.of_common parts (List.append_nil _).symm (Nat.le_trans own before)
  exact ⟨here, ⟨l, rest, tag, kind, listed, token, found, refused⟩, same⟩

end Layout

namespace Component

variable {o : ComponentOptions} {source : String} {cause : ComponentError} {written : Layout}

theorem read_bare (first : Layout.read o.kinds source = .ok written) :
    read { o with addScript := false } source = .ok ⟨o.filename, source, written, false⟩ := by
  simp only [read, first, bind, Except.bind, Bool.false_and, Bool.false_eq_true, if_false]
  rfl

/-- A script cannot be put in only where the first template, if there is one, ends the text: there
is room after any other. -/
theorem template_at_end_of_error (first : Layout.read o.kinds source = .ok written)
    (asked : o.addScript = true ∧ o.kinds.script = true)
    (missing : (Component.mk o.filename source written false).blocksOf .script = [])
    (failed : read o source = .error cause) (t : Block)
    (template : (Component.mk o.filename source written false).template? = some t) :
    t.span.stop = Position.start.advance source.toList := by
  by_contra inside
  obtain ⟨c, -, -, success, -⟩ := inserted_of_closed (read_bare first) asked missing template
    fun cut => inside cut.1
  rw [success] at failed
  cases failed

/-- Whatever keeps a file from being a component is a stretch of its own text: of a start tag in it
that is refused, with or without a script at its end. Only that a script is not recognized is about
nothing in particular. -/
theorem error_within (failed : read o source = .error cause) :
    cause.span.Within source ∧ (cause = .scriptNotRecognized ∨
      ∃ text added, text.toList = source.toList ++ added ∧ (added = [] ∨ added = placeholder) ∧
        cause.About o.kinds text ∧ cause.span.text source = cause.span.text text) := by
  have nowhere : (Span.mk .start .start).Within source :=
    ⟨⟨Position.start_in source, Position.start_in source⟩, Nat.le_refl _⟩
  rcases error_cases failed with refused | ⟨written, first, ⟨wanted, scripts, absent⟩, outcome⟩
  · obtain ⟨within, about⟩ := Layout.about_of_error refused
    exact ⟨within, .inr ⟨source, [], (List.append_nil _).symm, .inl rfl, about, rfl⟩⟩
  · have missing := present_script_eq_false_iff.mp absent
    have last := template_at_end_of_error first ⟨wanted, scripts⟩ missing failed
    rw [insertionOffset_at_end last] at outcome
    rcases outcome with refused | rfl
    · have text : (withScript source (Text.utf8Length source.toList)).toList =
          source.toList ++ placeholder := by
        rw [withScript_append (List.append_nil source.toList).symm, String.toList_ofList,
          List.append_nil]
      obtain ⟨within, about, same⟩ := Layout.about_before_script scripts first text refused
      exact ⟨within, .inr ⟨_, placeholder, text, .inr rfl, about, same⟩⟩
    · exact ⟨nowhere, .inl rfl⟩

def AfterScript (c : Component) (b : Block) : Prop :=
  ∃ k ∈ c.blocks, k.synthetic = true ∧ k.span.start.offset < b.span.start.offset

/-- The stretches `t` and `s` are the same, but for a script that is put in before. -/
def PushedOn (source : String) (t s : Span) : Prop :=
  ∃ pre post, source.toList = pre ++ post ∧
    Position.Moved post (Position.start.advance pre) (Position.start.advance (pre ++ placeholder))
      t.start s.start ∧
    Position.Moved post (Position.start.advance pre) (Position.start.advance (pre ++ placeholder))
      t.stop s.stop

theorem PushedOn.offset {t s : Span} (h : PushedOn source t s) :
    s.start.offset = t.start.offset + 18 ∧ s.stop.offset = t.stop.offset + 18 := by
  have length : Text.utf8Length placeholder = 18 := by decide
  obtain ⟨pre, post, -, ⟨u, -, -, first, first'⟩, ⟨v, -, -, last, last'⟩⟩ := h
  simp only [first, first', last, last', Position.offset_advance, Text.utf8Length_append, length]
  omega

/-- What is written of a stretch in a block of a component: where it is in the file. -/
structure Places (source : String) (c : Component) (b : Block) (s t : Span) : Prop where
  within : t.Within source
  text : t.text source = s.text c.source
  place : s = t ↔ ¬ c.AfterScript b
  pushed : c.AfterScript b → PushedOn source t s

theorem Places.same {c : Component} {b : Block} {s : Span} (within : s.Within source)
    (text : s.text source = s.text c.source) (before : ¬ c.AfterScript b) :
    Places source c b s s :=
  ⟨within, text, ⟨fun _ => before, fun _ => rfl⟩, fun after => absurd after before⟩

/-- A stretch that comes after what is put in is one of the text without it. -/
theorem exists_pushedOn {text : String} {pre post : List Char} {s : Span} (h : s.Within text)
    (parts : source.toList = pre ++ post) (parts' : text.toList = (pre ++ placeholder) ++ post)
    (after : Text.utf8Length (pre ++ placeholder) ≤ s.start.offset) :
    ∃ t, t.Within source ∧ t.text source = s.text text ∧ PushedOn source t s := by
  obtain ⟨a, m, b, whole, start, stop⟩ := h.ends.1.between h.ends.2 h.order
  rw [start, Position.offset_start_advance] at after
  rw [List.append_assoc] at whole
  obtain ⟨u, rfl⟩ := Text.exists_eq_append_of_utf8Length_le (parts'.symm.trans whole) after
  rw [parts', List.append_assoc (pre ++ placeholder)] at whole
  have post' : post = u ++ (m ++ b) := List.append_cancel_left whole
  have whole' : source.toList = (pre ++ u) ++ m ++ b := by
    rw [parts, post']
    simp
  have text' : text.toList = ((pre ++ placeholder) ++ u) ++ m ++ b := by
    rw [parts', post']
    simp
  obtain ⟨start', stop'⟩ := s
  obtain rfl : start' = _ := start
  obtain rfl : stop' = _ := stop
  refine ⟨⟨Position.start.advance (pre ++ u), Position.start.advance ((pre ++ u) ++ m)⟩,
    ⟨⟨⟨pre ++ u, m ++ b, by rw [whole', List.append_assoc], rfl⟩, ⟨_, b, whole', rfl⟩⟩, ?_⟩, ?_, ?_⟩
  · simp only [Position.offset_start_advance, Text.utf8Length_append]
    omega
  · rw [Span.text_of_parts whole', Span.text_of_parts text']
  · refine ⟨pre, post, parts, ⟨u, m ++ b, post', ?_, ?_⟩, ⟨u ++ m, b, ?_, ?_, ?_⟩⟩
    · simp only [Position.advance_append]
    · simp only [Position.advance_append]
    · rw [post', List.append_assoc]
    · simp only [Position.advance_append]
    · simp only [Position.advance_append]

namespace InsertedAt

variable {pre post : List Char} {d c : Component} {x b : Block} {s : Span}
  (inserted : InsertedAt source pre post d c)

include inserted

/-- The script that is put in is the only block that is not written. -/
theorem afterScript_iff :
    c.AfterScript b ↔ Text.utf8Length pre + 1 < b.span.start.offset := by
  obtain ⟨bs, bs', before, behind, -, blocks, kept, kept', -⟩ := inserted.blocks
  constructor
  · rintro ⟨k, hk, synthetic, later⟩
    have written {xs ys : List Block} (kept : List.Forall₂ (Block.Kept source c.source) xs ys) :
        k ∉ ys := by
      intro hk
      obtain ⟨x, own⟩ := exists_of_mem_right kept hk
      rw [own.written] at synthetic
      cases synthetic
    rw [blocks] at hk
    rcases List.mem_append.mp hk with hk | hk
    · exact absurd hk (written kept)
    · rcases List.mem_cons.mp hk with rfl | hk
      · exact scriptAt_start pre ▸ later
      · exact absurd hk (written kept')
  · intro later
    refine ⟨_, blocks ▸ List.mem_append_right before List.mem_cons_self, rfl, ?_⟩
    exact Nat.lt_of_le_of_lt (Nat.le_of_eq (scriptAt_start pre)) later

theorem places_before (own : x.Alike (Position.Moved pre .start .start) b)
    (placed : b.Placed c.source) (within : s.Within c.source)
    (last : s.stop.offset ≤ b.content.stop.offset) : Places source c b s s := by
  obtain ⟨u, v, rfl, -, stop⟩ := own.contentStop
  have order := placed.content_le
  rw [stop, Position.offset_start_advance] at last order
  obtain ⟨here, text⟩ := within.of_common (x := u ++ v) inserted.text inserted.parts
    (by rw [Text.utf8Length_append]; omega)
  refine .same here text ?_
  rw [inserted.afterScript_iff, Text.utf8Length_append]
  have start := placed.start_lt
  omega

theorem exists_places_behind
    (own : x.Alike (Position.Moved post (Position.start.advance pre)
      (Position.start.advance (pre ++ placeholder))) b)
    (within : s.Within c.source) (first : b.content.start.offset ≤ s.start.offset) :
    ∃ t, Places source c b s t := by
  obtain ⟨u, v, -, -, start⟩ := own.start
  obtain ⟨u', v', -, -, content⟩ := own.contentStart
  have parts' : c.source.toList = (pre ++ placeholder) ++ post := by
    rw [inserted.text, List.append_assoc]
  have length : Text.utf8Length placeholder = 18 := by decide
  have after : c.AfterScript b := by
    rw [inserted.afterScript_iff, start, Position.offset_advance, Position.offset_start_advance,
      Text.utf8Length_append, length]
    omega
  rw [content, Position.offset_advance, Position.offset_start_advance] at first
  obtain ⟨t, here, text, pushed⟩ := exists_pushedOn within inserted.parts parts' (by omega)
  refine ⟨t, here, text, ⟨?_, fun before => absurd after before⟩, fun _ => pushed⟩
  rintro rfl
  have moved := pushed.offset.1
  omega

end InsertedAt

/-- A stretch of the content of a block is one of the file: where it is said to be, unless the block
comes after a script that was put in. -/
theorem exists_places {c : Component} {b : Block} {s : Span} (success : read o source = .ok c)
    (listed : b ∈ c.blocks) (other : b.kind ≠ .script) (within : s.Within c.source)
    (first : b.content.start.offset ≤ s.start.offset)
    (last : s.stop.offset ≤ b.content.stop.offset) : ∃ t, Places source c b s t := by
  obtain ⟨written, bare, same | ⟨⟨asked, asked', absent⟩, -⟩⟩ := read_cases success
  · subst same
    refine ⟨s, .same within rfl ?_⟩
    rintro ⟨k, hk, synthetic, -⟩
    rw [written_of_read bare k hk] at synthetic
    cases synthetic
  · have missing := present_script_eq_false_iff.mp absent
    obtain ⟨pre, post, inserted⟩ :=
      (insertion_of_missing (read_bare bare) ⟨asked, asked'⟩ missing).1 c success
    have placed : b.Placed c.source := (covers_of_read success).2 b listed
    obtain ⟨bs, bs', before, behind, -, blocks, -, -, alike, alike'⟩ := inserted.blocks
    rw [blocks] at listed
    rcases List.mem_append.mp listed with listed | listed
    · obtain ⟨x, own⟩ := exists_of_mem_right alike listed
      exact ⟨s, inserted.places_before own placed within last⟩
    · rcases List.mem_cons.mp listed with rfl | listed
      · exact absurd rfl other
      · obtain ⟨x, own⟩ := exists_of_mem_right alike' listed
        exact inserted.exists_places_behind own within first

end Component

end ComponentLoader
