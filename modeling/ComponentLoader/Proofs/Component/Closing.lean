import ComponentLoader.Proofs.Component.Written

/-! Where blocks end. A script or a style ends at the first end tag of its name in
the text, a template at the end tag that balances the templates within it, and a
block whose end is missing fails the reading. -/
namespace ComponentLoader

open Markup (Dialect EndTagStands Head HoldsText Lexeme Reads Tag Token)

namespace Layout

/-- The first end tag of the name after one place of the text stands at the other. -/
def TextEnds (source name : String) (opened closed : Position) : Prop :=
  ∃ before body tail, source.toList = before ++ (body ++ tail) ∧
    opened = Position.start.advance before ∧ closed = Position.start.advance (before ++ body) ∧
    EndTagStands name tail ∧ ∀ x y, body = x ++ y → y ≠ [] → ¬ EndTagStands name (y ++ tail)

/-- The content of a block that is opened at one place, before the lexemes `rest`, ends at the
other. -/
def ContentEnds (source : String) (kind : BlockKind) (opened : Position) (rest : List Lexeme)
    (closed : Position) : Prop :=
  match kind with
  | .template => ∃ inside m after, rest = inside ++ m :: after ∧ Closes "template" 0 inside m ∧
      closed = m.span.start
  | .script => TextEnds source "script" opened closed
  | .style => TextEnds source "style" opened closed

theorem blockEnd_append_texts {name : String} {texts : List Lexeme}
    (h : ∀ l ∈ texts, ∃ content, l.token = .text content) (rest : List Lexeme) :
    blockEnd? name 0 (texts ++ rest) = blockEnd? name 0 rest := by
  induction texts with
  | nil => rfl
  | cons l texts ih =>
    obtain ⟨content, token⟩ := h l List.mem_cons_self
    rw [List.cons_append, blockEnd?]
    simp only [token]
    exact ih fun m hm => h m (List.mem_cons_of_mem l hm)

section Raw

variable {source : String} {before rest : List Lexeme} {l : Lexeme} {tag : Tag}

/-- After the start tag of a script or a style comes its text, and then its end tag, if it has
one. -/
theorem exists_holdsText_after (cut : Dialect.component.lexemes source = before ++ l :: rest)
    (token : l.token = .startTag tag) (raw : tag.name = "script" ∨ tag.name = "style")
    (opens : tag.selfClosing = false) :
    ∃ h h' ls body s, rest = h.lexemes .component ∧ source.toList = s ++ h.rest ∧
      l.span.stop = Position.start.advance s ∧ h.position = l.span.stop ∧
      HoldsText .component tag.name h h' ls body := by
  obtain ⟨first, read, more, rfl, rfl⟩ := Markup.exists_head cut
  have mode : (first.next .component).mode = .raw tag.name := by
    rw [Head.mode_after token, Dialect.modeAfter, opens]
    simp only [Dialect.component, raw, if_true, Bool.false_eq_true, if_false]
  obtain ⟨h', ls, body, holds⟩ :=
    Markup.exists_holdsText (d := .component) (by decide) (Markup.lettered_of_raw raw) mode
  obtain ⟨s, parts, place⟩ := (read.append (.next more (.here _))).exists_before
  exact ⟨_, h', ls, body, s, rfl, parts, place, rfl, holds⟩

theorem texts_of_holdsText {d : Dialect} {name : String} {h h' : Head} {ls : List Lexeme}
    {body : List Char} (holds : HoldsText d name h h' ls body) :
    ls.length ≤ 1 ∧ ∀ l ∈ ls, ∃ content, l.token = .text content := by
  have tokens := holds.tokens
  split at tokens
  · obtain rfl := List.map_eq_nil_iff.mp tokens
    exact ⟨Nat.zero_le 1, nofun⟩
  · obtain ⟨l, rfl, token⟩ := List.map_eq_singleton_iff.mp tokens
    refine ⟨Nat.le_refl 1, ?_⟩
    intro m hm
    obtain rfl := List.mem_singleton.mp hm
    exact ⟨_, token⟩

theorem ends_of_holdsText {d : Dialect} {name : String} {h h' : Head} {ls : List Lexeme}
    {body : List Char} (holds : HoldsText d name h h' ls body) (more : h'.rest ≠ []) :
    (h'.lexeme d).ends name = true := by
  obtain ⟨stands, n, token, same⟩ := holds.ends.resolve_left more
  rw [Lexeme.ends, token]
  exact same

theorem blockEnd_of_holdsText {d : Dialect} {name : String} {h h' : Head} {ls : List Lexeme}
    {body : List Char} (holds : HoldsText d name h h' ls body) :
    blockEnd? name 0 (h.lexemes d) =
      if h'.rest = [] then none else some ((h'.lexeme d).span, (h'.next d).lexemes d) := by
  rw [holds.read.lexemes_eq, blockEnd_append_texts (texts_of_holdsText holds).2]
  split
  · next done => rw [Head.lexemes_nil done, blockEnd?]
  · next more =>
    rw [Head.lexemes_cons more]
    exact blockEnd_here (ends_of_holdsText holds more) _

theorem textEnds_of_holdsText {d : Dialect} {name : String} {h h' : Head} {ls : List Lexeme}
    {body s : List Char} (holds : HoldsText d name h h' ls body) (more : h'.rest ≠ [])
    (parts : source.toList = s ++ h.rest) (place : h.position = Position.start.advance s) :
    TextEnds source name h.position h'.position := by
  obtain ⟨stands, -⟩ := holds.ends.resolve_left more
  refine ⟨s, body, h'.rest, ?_, place, ?_, stands, holds.first⟩
  · rw [parts, holds.text]
  · rw [holds.stop, place, Position.advance_append]

/-- Without an end tag after the text there is none in it either. -/
theorem not_textEnds_of_holdsText {d : Dialect} {name : String} {h h' : Head} {ls : List Lexeme}
    {body s : List Char} (holds : HoldsText d name h h' ls body) (done : h'.rest = [])
    (parts : source.toList = s ++ h.rest) (place : h.position = Position.start.advance s)
    (closed : Position) : ¬ TextEnds source name h.position closed := by
  rintro ⟨s', body', tail, parts', place', -, stands, -⟩
  have lengths := congrArg Position.offset (place.symm.trans place')
  simp only [Position.offset_start_advance] at lengths
  obtain rfl := Text.eq_of_utf8Length_eq (parts.symm.trans parts') lengths
  have same : body ++ h'.rest = body' ++ tail :=
    holds.text.symm.trans (List.append_cancel_left (parts.symm.trans parts'))
  rw [done, List.append_nil] at same
  have some : tail ≠ [] := by
    rintro rfl
    obtain ⟨n, rest, none, -⟩ := stands
    cases none
  refine holds.first body' tail same some ?_
  rwa [done, List.append_nil]

end Raw

/-- A block that is found to end does so where its content ends. -/
theorem contentEnds_of_blockEnd {source : String} {before rest after : List Lexeme} {l : Lexeme}
    {tag : Tag} {kind : BlockKind} {span : Span}
    (cut : Dialect.component.lexemes source = before ++ l :: rest)
    (token : l.token = .startTag tag) (name : tag.name = kind.tag) (opens : tag.selfClosing = false)
    (ended : blockEnd? tag.name 0 rest = some (span, after)) :
    ContentEnds source kind l.span.stop rest span.start := by
  have raw (given : tag.name = "script" ∨ tag.name = "style") :
      TextEnds source tag.name l.span.stop span.start := by
    obtain ⟨h, h', ls, body, s, rfl, parts, place, here, holds⟩ :=
      exists_holdsText_after cut token given opens
    rw [blockEnd_of_holdsText holds] at ended
    split at ended
    · cases ended
    · next more =>
      cases ended
      have ends := textEnds_of_holdsText holds more parts (here.trans place)
      rwa [here] at ends
  rw [name] at raw ended
  cases kind with
  | template =>
    obtain ⟨inside, m, parts, rfl, closes⟩ := closes_of_blockEnd ended
    exact ⟨inside, m, after, parts, closes, rfl⟩
  | script => exact raw (.inl rfl)
  | style => exact raw (.inr rfl)

/-- What is read after the start tag of a script or a style: its text, which is one token if it is
not empty, and then what follows from the first end tag on. -/
def Unread (source name : String) (opened : Position) (rest : List Lexeme) : Prop :=
  ∃ texts further, rest = texts ++ further ∧ texts.length ≤ 1 ∧
    (∀ l ∈ texts, ∃ content, l.token = .text content) ∧
    ((further = [] ∧ ∀ closed, ¬ TextEnds source name opened closed) ∨
      ∃ m after, further = m :: after ∧ m.ends name = true ∧
        TextEnds source name opened m.span.start)

theorem unread_after {source : String} {before rest : List Lexeme} {l : Lexeme} {tag : Tag}
    (cut : Dialect.component.lexemes source = before ++ l :: rest)
    (token : l.token = .startTag tag) (raw : tag.name = "script" ∨ tag.name = "style")
    (opens : tag.selfClosing = false) : Unread source tag.name l.span.stop rest := by
  obtain ⟨h, h', ls, body, s, rfl, parts, place, here, holds⟩ :=
    exists_holdsText_after cut token raw opens
  obtain ⟨length, texts⟩ := texts_of_holdsText holds
  refine ⟨ls, h'.lexemes .component, holds.read.lexemes_eq, length, texts, ?_⟩
  rw [← here]
  by_cases done : h'.rest = []
  · left
    exact ⟨Head.lexemes_nil done _,
      not_textEnds_of_holdsText holds done parts (here.trans place)⟩
  · right
    exact ⟨_, _, Head.lexemes_cons done _, ends_of_holdsText holds done,
      textEnds_of_holdsText holds done parts (here.trans place)⟩

/-- A block that is read with an end tag ends where its content ends. -/
theorem contentEnds_of_readBlock {source : String} {before rest after : List Lexeme} {l : Lexeme}
    {tag : Tag} {kind : BlockKind} {b : Block}
    (cut : Dialect.component.lexemes source = before ++ l :: rest)
    (token : l.token = .startTag tag) (name : tag.name = kind.tag)
    (opens : tag.selfClosing = false) (read : readBlock kind tag l rest = .ok (b, after)) :
    ContentEnds source kind b.content.start rest b.content.stop ∧
      ∃ m ∈ rest, m.ends kind.tag = true ∧ m.span = ⟨b.content.stop, b.span.stop⟩ := by
  have faultless := (readBlock_inversion read).1
  rw [readBlock_of_opens faultless opens] at read
  cases ended : blockEnd? tag.name 0 rest with
  | none =>
    rw [ended] at read
    cases read
  | some found =>
    obtain ⟨span, after'⟩ := found
    rw [ended] at read
    cases read
    obtain ⟨inside, m, rfl, rfl, closes⟩ := closes_of_blockEnd ended
    refine ⟨contentEnds_of_blockEnd cut token name opens ended, m, ?_, name ▸ closes.ends, rfl⟩
    exact List.mem_append_right inside List.mem_cons_self

end Layout

namespace Component

/-- The texts that are read: the one that is given, and the one with a script put in. -/
def Scanned (o : ComponentOptions) (source text : String) : Prop :=
  text = source ∨ ∃ written, Layout.read o.kinds source = .ok written ∧
    let bare : Component := ⟨o.filename, source, written, false⟩
    (o.addScript = true ∧ o.kinds.script = true ∧ bare.present.script = false) ∧
      text = withScript source bare.insertionOffset

theorem read_of_scanned {o : ComponentOptions} {source text : String} {cause : ComponentError}
    (h : Scanned o source text) (failed : Layout.read o.kinds text = .error cause) :
    read o source = .error cause := by
  rcases h with rfl | ⟨written, first, ⟨asked, scripts, missing⟩, rfl⟩
  · simp only [read, failed, bind, Except.bind]
  · simp only [read, first, bind, Except.bind, asked, scripts, missing, Bool.and_self,
      Bool.not_false, if_true, failed]

/-- A component that is read has its blocks where their tags are: each begins with a start tag of
its name, and if that is not self-closing the content runs from there to the first end tag of the
name that counts, with which the block ends. Of scripts and styles, also of those in a template,
nothing is read but the text and the end tag. Where reading arrives at the start tag of a block, not
self-closing and without faults of its own, and the content ends nowhere, reading fails at that very
tag. -/
theorem blocks_close (o : ComponentOptions) (source : String) :
    (∀ c, read o source = .ok c →
      (∀ b ∈ c.blocks, ∃ before l rest tag,
        Dialect.component.lexemes c.source = before ++ l :: rest ∧ l.token = .startTag tag ∧
          tag.name = b.kind.tag ∧ b.span.start = l.span.start ∧ b.content.start = l.span.stop ∧
          (tag.selfClosing = false →
            Layout.ContentEnds c.source b.kind b.content.start rest b.content.stop ∧
            ∃ m ∈ rest, m.ends b.kind.tag = true ∧ m.span = ⟨b.content.stop, b.span.stop⟩)) ∧
      ∀ before l rest tag, Dialect.component.lexemes c.source = before ++ l :: rest →
        l.token = .startTag tag → tag.selfClosing = false →
        tag.name = "script" ∨ tag.name = "style" →
        Layout.Unread c.source tag.name l.span.stop rest) ∧
    ∀ text, Scanned o source text → ∀ bs l rest tag kind,
      Layout.Arrives o.kinds (Dialect.component.lexemes text) bs (l :: rest) →
        l.token = .startTag tag → Layout.blockKind? o.kinds tag = some kind →
        tag.selfClosing = false → (∀ f ∈ l.faults, f.kind.isTagSyntax = false) →
        (∀ closed, ¬ Layout.ContentEnds text kind l.span.stop rest closed) →
        read o source = .error (.unclosedBlock tag.name l.span) := by
  refine ⟨fun c found => ⟨?_, ?_⟩, ?_⟩
  · intro b hb
    obtain ⟨before, l, rest, after, tag, kind, cut, token, recognized, read⟩ :=
      exists_readBlock found hb
    obtain ⟨start, content⟩ := Layout.start_of_readBlock read
    obtain rfl : b.kind = kind := (Layout.readBlock_inversion read).2.1
    have name := Layout.name_of_blockKind recognized
    refine ⟨before, l, rest, tag, cut, token, name, start, content, ?_⟩
    intro opens
    exact Layout.contentEnds_of_readBlock (b := b.unmarked) cut token name opens read
  · intro before l rest tag cut token opens raw
    exact Layout.unread_after cut token raw opens
  · intro text scanned bs l rest tag kind arrives token recognized opens faultless missing
    obtain ⟨before, cut⟩ := arrives.suffix
    have name := Layout.name_of_blockKind recognized
    have unended : Layout.blockEnd? tag.name 0 rest = none := by
      cases ended : Layout.blockEnd? tag.name 0 rest with
      | none => rfl
      | some found =>
        exact absurd (Layout.contentEnds_of_blockEnd cut.symm token name opens ended) (missing _)
    have faultless : l.faults.find? (·.kind.isTagSyntax) = none := by
      simpa using faultless
    have failed : Layout.readBlock kind tag l rest = .error (.unclosedBlock tag.name l.span) := by
      rw [Layout.readBlock_of_opens faultless opens, unended]
    refine read_of_scanned scanned ?_
    rw [Layout.read_eq_onePass]
    exact Layout.onePass_of_stuck arrives ⟨l, rest, tag, kind, rfl, token, recognized, failed⟩

end Component

end ComponentLoader
