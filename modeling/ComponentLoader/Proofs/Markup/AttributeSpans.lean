import ComponentLoader.Proofs.Markup.StartTags

/-! The span of an attribute is its spelling and nothing more. To see whether an equals sign, a
value or the end of the tag follows, reading moves on over space; the span ends before that space,
with the name, the equals sign or the value that was last. Only where the text ends in the space
after an equals sign does the span take that space too. -/
namespace ComponentLoader.Markup

open Text (isMarkupSpace)

def Blank (s : List Char) : Prop := ∀ c ∈ s, isMarkupSpace c = true

/-- The text gives an attribute this value after its equals sign, where the rest follows: no value
before the bracket that ends the tag or before the end of the text, one in quotes, of which the
second is missing at the end of the text, or one without quotes that is not empty. -/
inductive Assigns : Option String → List Char → List Char → Prop
  | missing {blanks rest : List Char} (space : Blank blanks) :
      Assigns none [] (blanks ++ '>' :: rest)
  | cutOff {blanks : List Char} (space : Blank blanks) : Assigns none blanks []
  | quoted {blanks value rest : List Char} {quote : Char} (space : Blank blanks)
      (mark : quote = '"' ∨ quote = '\'') (inner : quote ∉ value) :
      Assigns (some (String.ofList value)) (blanks ++ quote :: (value ++ [quote])) rest
  | unclosed {blanks value : List Char} {quote : Char} (space : Blank blanks)
      (mark : quote = '"' ∨ quote = '\'') (inner : quote ∉ value) :
      Assigns (some (String.ofList value)) (blanks ++ quote :: value) []
  | plain {blanks value rest : List Char} {first : Char} (space : Blank blanks)
      (unmarked : first ≠ '"' ∧ first ≠ '\'')
      (inner : ∀ c ∈ first :: value, isUnquotedChar c = true)
      (stop : ∀ c, rest.head? = some c → isUnquotedChar c = false) :
      Assigns (some (String.ofList (first :: value))) (blanks ++ first :: value) rest

/-- The name of an attribute. An equals sign where a name should begin is one. -/
def IsAttributeName (name : List Char) : Prop :=
  name = ['='] ∨ name ≠ [] ∧ ∀ c ∈ name, isAttributeNameChar c = true

/-- A name ends before this text, which does not go on with it. -/
def NameEnds (name rest : List Char) : Prop :=
  name = ['='] ∨ ∀ c, rest.head? = some c → isAttributeNameChar c = false

/-- The text spells an attribute of the name and the value, where the rest follows: the name alone
and no equals sign after it, or the name, an equals sign and what this assigns. -/
inductive SpellsAttribute (name : List Char) : Option String → List Char → List Char → Prop
  | bare {rest : List Char} (ends : NameEnds name rest)
      (next : (rest.dropWhile isMarkupSpace).head? ≠ some '=') : SpellsAttribute name none name rest
  | assigned {value : Option String} {blanks tail rest : List Char} (space : Blank blanks)
      (assigns : Assigns value tail rest) :
      SpellsAttribute name value (name ++ blanks ++ '=' :: tail) rest

structure Attribute.Spelled (source : String) (a : Attribute) : Prop where
  name : IsAttributeName a.name.toList
  place : ∃ before text rest, source.toList = before ++ text ++ rest ∧
    a.span = ⟨Position.start.advance before, Position.start.advance (before ++ text)⟩ ∧
    a.span.text source = String.ofList text ∧ SpellsAttribute a.name.toList a.value text rest

theorem SpellsAttribute.ne_nil {name text rest : List Char} {value : Option String}
    (spells : SpellsAttribute name value text rest) (some : IsAttributeName name) : text ≠ [] := by
  cases spells with
  | bare ends next =>
    rcases some with rfl | ⟨more, -⟩
    · exact List.cons_ne_nil _ _
    · exact more
  | assigned space assigns => exact List.append_ne_nil_of_right_ne_nil _ (List.cons_ne_nil _ _)

theorem blank_takeWhile (s : List Char) : Blank (s.takeWhile isMarkupSpace) :=
  List.all_eq_true.mp List.all_takeWhile

namespace Cursor

variable {c c' c'' : Cursor} {s t : List Char} {a : Attribute} {as : List Attribute}

def Moves (c : Cursor) (s : List Char) (c' : Cursor) : Prop :=
  c.rest = s ++ c'.rest ∧ c'.position = c.position.advance s

theorem Moves.trans (first : c.Moves s c') (last : c'.Moves t c'') : c.Moves (s ++ t) c'' := by
  obtain ⟨text, position⟩ := first
  obtain ⟨text', position'⟩ := last
  refine ⟨?_, ?_⟩
  · rw [text, text', List.append_assoc]
  · rw [position', position, Position.advance_append]

theorem Reaches.exists_moves (h : c.Reaches c') : ∃ s, c.Moves s c' := h.text

theorem moves_skip (c : Cursor) (n : Nat) : c.Moves (c.rest.take n) (c.skip n) :=
  ⟨(List.take_append_drop n c.rest).symm, rfl⟩

theorem moves_skip_one {ch : Char} {r : List Char} (front : c.rest = ch :: r) :
    c.Moves [ch] (c.skip 1) := by
  have moved := c.moves_skip 1
  rwa [front] at moved

theorem moves_skipNext (c : Cursor) : c.Moves (c.rest.take 1) c.skipNext := by
  have one : c.rest.take (c.rest.take 1).length = c.rest.take 1 := by
    cases c.rest <;> rfl
  rw [← one]
  exact c.moves_skip _

theorem moves_takeWhile (c : Cursor) (p : Char → Bool) :
    c.Moves (c.rest.takeWhile p) (c.takeWhile p).2 := by
  refine ⟨?_, ?_⟩
  · rw [rest_takeWhile, List.takeWhile_append_dropWhile]
  · show c.position.advance (c.rest.take (c.rest.takeWhile p).length) = _
    rw [← List.prefix_iff_eq_take.mp (List.takeWhile_prefix p)]

theorem moves_reportIf (c : Cursor) (condition : Bool) (kind : FaultKind) :
    c.Moves [] (c.reportIf condition kind) := by
  unfold reportIf
  split <;> exact ⟨rfl, rfl⟩

theorem moves_skipSpace (c : Cursor) : ∃ blanks, Blank blanks ∧ c.Moves blanks c.skipSpace :=
  ⟨_, blank_takeWhile c.rest, c.moves_takeWhile isMarkupSpace⟩

theorem moves_readAttributeName {ch : Char} {r : List Char} (front : c.rest = ch :: r)
    (begins : isNameChar ch = true) :
    c.Moves c.readAttributeName.1.toList c.readAttributeName.2 ∧
      IsAttributeName c.readAttributeName.1.toList ∧
      NameEnds c.readAttributeName.1.toList c.readAttributeName.2.rest := by
  unfold readAttributeName
  split
  · next equals =>
    have sign : "=".toList = ['='] := by decide
    rw [front] at equals
    obtain rfl := Option.some.inj equals
    dsimp only
    rw [sign]
    exact ⟨moves_skip_one front, .inl rfl, .inl rfl⟩
  · next other =>
    have stop := List.head?_dropWhile_not isAttributeNameChar c.rest
    dsimp only
    rw [String.toList_ofList]
    refine ⟨?_, .inr ⟨?_, List.all_eq_true.mp List.all_takeWhile⟩, .inr fun ch' next => ?_⟩
    · rw [← List.append_nil (c.takeWhile isAttributeNameChar).1]
      exact (c.moves_takeWhile isAttributeNameChar).trans (moves_reportIf _ _ _)
    · have first : isAttributeNameChar ch = true := by
        rw [front, List.head?_cons] at other
        simpa [isAttributeNameChar, begins] using other
      show c.rest.takeWhile isAttributeNameChar ≠ []
      rw [front, List.takeWhile_cons_of_pos first]
      exact List.cons_ne_nil _ _
    · rw [rest_reportIf, rest_takeWhile] at next
      rw [next] at stop
      exact stop

/-- What is read is a value, where it ends and how far reading goes: the text up to that end assigns
the value. -/
def ReadsValue (c : Cursor) (read : Option String × Position × Cursor) : Prop :=
  ∃ text last, c.Moves text last ∧ last.position = read.2.1 ∧ last.Reaches read.2.2 ∧
    Assigns read.1 text last.rest

/-- A value in quotes goes on to the second quote or to the end of the text. -/
theorem readsValue_readQuoted {quote : Char} {r blanks : List Char} (moved : c.Moves blanks c')
    (space : Blank blanks) (front : c'.rest = quote :: r) (mark : quote = '"' ∨ quote = '\'') :
    c.ReadsValue (c'.readQuoted quote) := by
  have value := (moves_skip_one front).trans ((c'.skip 1).moves_takeWhile (· != quote))
  have inner : quote ∉ (c'.skip 1).rest.takeWhile (· != quote) := by
    intro inside
    have other := List.all_eq_true.mp List.all_takeWhile _ inside
    simp at other
  have stop := List.head?_dropWhile_not (· != quote) (c'.skip 1).rest
  rw [← rest_takeWhile] at stop
  have ended := moves_skipNext ((c'.skip 1).takeWhile (· != quote)).2
  refine ⟨_, _, moved.trans (value.trans ended), rfl, reaches_afterQuoted _, ?_⟩
  cases left : ((c'.skip 1).takeWhile (· != quote)).2.rest with
  | nil =>
    rw [rest_skipNext, left, List.take_nil, List.append_nil]
    exact .unclosed space mark inner
  | cons ch rest =>
    rw [left] at stop
    obtain rfl : ch = quote := by simpa using stop
    exact .quoted space mark inner

/-- A value without quotes goes on to the first character that may not stand in one. -/
theorem readsValue_takeWhile {first : Char} {r blanks : List Char} (moved : c.Moves blanks c')
    (space : Blank blanks) (front : c'.rest = first :: r)
    (unmarked : first ≠ '"' ∧ first ≠ '\'') (begins : isUnquotedChar first = true)
    (reached : (c'.takeWhile isUnquotedChar).2.Reaches c'') :
    c.ReadsValue (some (String.ofList (c'.takeWhile isUnquotedChar).1),
      (c'.takeWhile isUnquotedChar).2.position, c'') := by
  have written : c'.rest.takeWhile isUnquotedChar = first :: r.takeWhile isUnquotedChar := by
    rw [front, List.takeWhile_cons_of_pos begins]
  have inner : ∀ ch ∈ c'.rest.takeWhile isUnquotedChar, isUnquotedChar ch = true :=
    List.all_eq_true.mp List.all_takeWhile
  have stop := List.head?_dropWhile_not isUnquotedChar c'.rest
  refine ⟨_, _, moved.trans (c'.moves_takeWhile isUnquotedChar), rfl, reached, ?_⟩
  show Assigns (some (String.ofList (c'.rest.takeWhile isUnquotedChar))) _ _
  rw [written] at inner
  rw [written, rest_takeWhile]
  refine .plain space unmarked inner fun ch next => ?_
  rw [next] at stop
  exact stop

theorem position_reportIf (c : Cursor) (condition : Bool) (kind : FaultKind) :
    (c.reportIf condition kind).position = c.position :=
  (c.moves_reportIf condition kind).2

theorem readsValue_readAttributeValue (c : Cursor) : c.ReadsValue c.readAttributeValue := by
  obtain ⟨blanks, space, moved⟩ := c.moves_skipSpace
  unfold readAttributeValue
  dsimp only
  split
  · next none =>
    refine ⟨blanks, c.skipSpace, moved, rfl, .refl _, ?_⟩
    rw [none]
    exact .cutOff space
  · next r bracket =>
    refine ⟨[], c, ⟨rfl, rfl⟩, rfl,
      (reaches_skipSpace c).trans (reaches_report _ .missingAttributeValue rfl), ?_⟩
    rw [moved.1, bracket]
    exact .missing space
  · next front => exact readsValue_readQuoted moved space front (.inl rfl)
  · next front => exact readsValue_readQuoted moved space front (.inr rfl)
  · next more noBracket noDouble noSingle =>
    obtain ⟨first, r, front⟩ := List.exists_cons_of_ne_nil more
    have solid := List.head?_dropWhile_not isMarkupSpace c.rest
    rw [← rest_skipSpace, front] at solid
    have other {ch : Char} (absent : ∀ r, c.skipSpace.rest ≠ ch :: r) : first ≠ ch := by
      rintro rfl
      exact absent r front
    have begins : isUnquotedChar first = true := by
      simpa [isUnquotedChar, other noBracket] using solid
    rw [position_reportIf]
    exact readsValue_takeWhile moved space front ⟨other noDouble, other noSingle⟩ begins
      (reaches_reportIf _ _ _ (by decide))

def Spells (c : Cursor) (a : Attribute) (c' : Cursor) : Prop :=
  IsAttributeName a.name.toList ∧ ∃ first last : Cursor, ∃ text,
    c.Reaches first ∧ first.Moves text last ∧ last.Reaches c' ∧
    a.span = ⟨first.position, last.position⟩ ∧ SpellsAttribute a.name.toList a.value text last.rest

inductive SpellsAll : Cursor → List Attribute → Cursor → Prop
  | nil {c c' : Cursor} (rest : c.Reaches c') : SpellsAll c [] c'
  | cons {c c' c'' : Cursor} {a : Attribute} {as : List Attribute} (first : c.Spells a c')
      (rest : SpellsAll c' as c'') : SpellsAll c (a :: as) c''

theorem Spells.precede (h : c'.Spells a c'') (reached : c.Reaches c') : c.Spells a c'' := by
  obtain ⟨name, first, last, text, before, rest⟩ := h
  exact ⟨name, first, last, text, reached.trans before, rest⟩

theorem SpellsAll.precede (h : c'.SpellsAll as c'') (first : c.Reaches c') :
    c.SpellsAll as c'' := by
  cases h with
  | nil rest => exact .nil (first.trans rest)
  | cons own rest => exact .cons (own.precede first) rest

theorem SpellsAll.extend (h : c.SpellsAll as c') (last : c'.Reaches c'') :
    c.SpellsAll as c'' := by
  induction h with
  | nil rest => exact .nil (rest.trans last)
  | cons own rest ih => exact .cons own (ih last)

theorem spells_readAttribute {ch : Char} {r : List Char} (front : c.rest = ch :: r)
    (begins : isNameChar ch = true) : c.Spells c.readAttribute.1 c.readAttribute.2 := by
  obtain ⟨named, name, ends⟩ := moves_readAttributeName front begins
  obtain ⟨blanks, space, moved⟩ := c.readAttributeName.2.moves_skipSpace
  have bare {c' : Cursor} (last : c.readAttributeName.2.skipSpace.Reaches c')
      (next : c.readAttributeName.2.skipSpace.rest.head? ≠ some '=') :
      c.Spells ⟨c.readAttributeName.1, none, c.position, c.readAttributeName.2.position⟩ c' := by
    rw [rest_skipSpace] at next
    exact ⟨name, c, _, _, .refl c, named, (reaches_skipSpace _).trans last, rfl, .bare ends next⟩
  unfold readAttribute
  dsimp only
  split
  · next ends =>
    refine bare (.refl _) fun sign => ?_
    obtain ⟨r, equals⟩ := List.head?_eq_some_iff.mp sign
    rw [equals] at ends
    cases ends
  · split
    · next solidus =>
      refine bare (reaches_skipSolidus solidus) fun sign => ?_
      obtain ⟨r, equals⟩ := List.head?_eq_some_iff.mp sign
      rw [skipSolidus?, equals] at solidus
      cases solidus
    · split
      · next sign =>
        obtain ⟨r, equals⟩ := List.head?_eq_some_iff.mp sign
        obtain ⟨tail, last, assigned, stop, rest, assigns⟩ :=
          (c.readAttributeName.2.skipSpace.skip 1).readsValue_readAttributeValue
        have equals := (named.trans moved).trans (moves_skip_one equals)
        refine ⟨name, c, last, _, .refl c, equals.trans assigned, rest, ?_, ?_⟩
        · rw [stop]
        · rw [List.append_assoc _ ['=']]
          exact .assigned space assigns
      · next other => exact bare (.refl _) other

theorem spellsAll_readAttributes (c : Cursor) (kept : List Attribute) :
    ∃ more, (c.readAttributes kept).1 = kept ++ more ∧
      c.SpellsAll more (c.readAttributes kept).2 := by
  fun_induction readAttributes c kept with
  | case1 c kept h => exact ⟨[], (List.append_nil kept).symm, .nil (reaches_skipSpace c)⟩
  | case2 c kept h c' solidus ih =>
    obtain ⟨more, same, spelled⟩ := ih
    exact ⟨more, same, spelled.precede ((reaches_skipSpace c).trans (reaches_skipSolidus solidus))⟩
  | case3 c kept h solidus next duplicate ih =>
    obtain ⟨more, same, spelled⟩ := ih
    have first := (reaches_skipSpace c).trans (reaches_readAttribute c.skipSpace).1
    exact ⟨more, same, spelled.precede (first.trans (reaches_report _ .duplicateAttribute rfl))⟩
  | case4 c kept h solidus next fresh ih =>
    obtain ⟨more, same, spelled⟩ := ih
    obtain ⟨ch, r, front, begins⟩ := exists_isNameChar (by simpa using h) solidus
    refine ⟨next.1 :: more, by rw [same, List.append_assoc]; rfl, .cons ?_ spelled⟩
    exact (spells_readAttribute front begins).precede (reaches_skipSpace c)

theorem spellsAll_readTag (c : Cursor) : c.SpellsAll c.readTag.1.attributes c.readTag.2 := by
  obtain ⟨more, same, spelled⟩ := spellsAll_readAttributes (c.takeWhile isNameChar).2 []
  have named : c.SpellsAll ((c.takeWhile isNameChar).2.readAttributes []).1
      ((c.takeWhile isNameChar).2.readAttributes []).2 := by
    rw [same]
    exact spelled.precede (reaches_takeWhile c _)
  unfold readTag
  dsimp only
  split
  · exact named.extend (reaches_report _ _ (by decide))
  · next bracket => exact named.extend (reaches_skip (by simp [bracket]))
  · next more _ => exact named.extend (reaches_skip (List.length_pos_iff.2 more))

theorem Reaches.offset_le (h : c.Reaches c') : c.position.offset ≤ c'.position.offset := by
  obtain ⟨s, -, position⟩ := h.exists_moves
  rw [position, Position.offset_advance]
  exact Nat.le_add_right _ _

/-- An attribute has at least the text of its name. -/
theorem Spells.ordered (h : c.Spells a c') :
    c.position.offset ≤ a.span.start.offset ∧ a.span.start.offset < a.span.stop.offset ∧
      a.span.stop.offset ≤ c'.position.offset := by
  obtain ⟨name, first, last, text, before, ⟨-, position⟩, after, span, spells⟩ := h
  have length := mt Text.utf8Length_eq_zero_iff.mp (spells.ne_nil name)
  have stop := Position.offset_advance first.position text
  rw [← position] at stop
  rw [span]
  refine ⟨before.offset_le, ?_, after.offset_le⟩
  dsimp only
  omega

theorem SpellsAll.offset_le (h : c.SpellsAll as c') : c.position.offset ≤ c'.position.offset := by
  induction h with
  | nil rest => exact rest.offset_le
  | cons own rest ih =>
    have := own.ordered
    omega

/-- The attributes lie within the way, and each ends before the next begins. -/
theorem SpellsAll.ordered (h : c.SpellsAll as c') :
    (∀ a ∈ as, c.position.offset ≤ a.span.start.offset ∧ a.span.start.offset < a.span.stop.offset ∧
      a.span.stop.offset ≤ c'.position.offset) ∧
      as.Pairwise fun a b => a.span.stop.offset ≤ b.span.start.offset := by
  induction h with
  | nil rest => exact ⟨nofun, .nil⟩
  | cons own rest ih =>
    obtain ⟨within, ordered⟩ := ih
    have first := own.ordered
    have last := rest.offset_le
    refine ⟨List.forall_mem_cons.mpr ⟨by omega, fun b hb => ?_⟩,
      List.pairwise_cons.mpr ⟨fun b hb => ?_, ordered⟩⟩
    · have := within b hb
      omega
    · have := within b hb
      omega

/-- The cursor is in the text, at the place where the rest of it begins. -/
def In (source : String) (c : Cursor) : Prop :=
  ∃ before, source.toList = before ++ c.rest ∧ c.position = Position.start.advance before

theorem In.moves {source : String} (h : c.In source) (moved : c.Moves s c') : c'.In source := by
  obtain ⟨before, whole, here⟩ := h
  obtain ⟨rest, position⟩ := moved
  refine ⟨before ++ s, ?_, ?_⟩
  · rw [whole, rest, List.append_assoc]
  · rw [position, here, Position.advance_append]

theorem Spells.exists_moves (h : c.Spells a c') : ∃ s, c.Moves s c' := by
  obtain ⟨-, first, last, text, before, own, after, -⟩ := h
  obtain ⟨s, before⟩ := before.exists_moves
  obtain ⟨t, after⟩ := after.exists_moves
  exact ⟨_, (before.trans own).trans after⟩

/-- What is spelled on a way in a text is spelled in the text. -/
theorem Spells.spelled (h : c.Spells a c') {source : String} (here : c.In source) :
    a.Spelled source := by
  obtain ⟨name, first, last, text, before, ⟨rest, stop⟩, -, span, spells⟩ := h
  obtain ⟨skipped, before⟩ := before.exists_moves
  obtain ⟨passed, whole, start⟩ := here.moves before
  have parts : source.toList = passed ++ text ++ last.rest := by
    rw [whole, rest, List.append_assoc]
  have place : a.span =
      ⟨Position.start.advance passed, Position.start.advance (passed ++ text)⟩ := by
    rw [span, stop, start, Position.advance_append]
  exact ⟨name, passed, text, _, parts, place, by rw [place, Span.text_of_parts parts], spells⟩

theorem SpellsAll.spelled (h : c.SpellsAll as c') {source : String} (here : c.In source) :
    ∀ a ∈ as, a.Spelled source := by
  induction h with
  | nil rest => exact nofun
  | cons own rest ih =>
    obtain ⟨s, moved⟩ := own.exists_moves
    exact List.forall_mem_cons.mpr ⟨own.spelled here, ih (here.moves moved)⟩

end Cursor

/-- The span of an attribute is its spelling. It spans its name where no equals sign follows, or its
name, the equals sign and the value, with the space between these and nothing after them; where the
value is missing it ends with the equals sign, or at the end of the text if nothing but space comes
before that. The attributes of a tag are in order and do not overlap, they are within the tag, and
no two of them have one name. -/
theorem attribute_spans (d : Dialect) (source : String) {l : Lexeme} (listed : l ∈ d.lexemes source)
    {tag : Tag} (token : l.token = .startTag tag) :
    (∀ a ∈ tag.attributes, a.Spelled source) ∧
      (∀ a ∈ tag.attributes, l.span.start.offset < a.span.start.offset ∧
        a.span.start.offset < a.span.stop.offset ∧ a.span.stop.offset ≤ l.span.stop.offset) ∧
      tag.attributes.Pairwise (fun a b => a.span.stop.offset ≤ b.span.start.offset) ∧
      (tag.attributes.map (·.name)).Nodup := by
  have distinct := (proper_of_mem_lexemes listed token).distinct
  obtain ⟨before, rest, cut⟩ := List.mem_iff_append.mp listed
  obtain ⟨h, reads, -, rfl, -⟩ := exists_head cut
  have here : h.cursor.In source := reads.exists_before
  obtain ⟨⟨more, -, read⟩, -⟩ := Cursor.follows_read d h.cursor h.mode tag token
  obtain ⟨bracket, r, front⟩ := List.exists_cons_of_ne_nil more
  have opened := Cursor.moves_skip_one front
  have spelled := Cursor.spellsAll_readTag (h.cursor.skip 1)
  rw [read] at spelled
  obtain ⟨within, ordered⟩ := spelled.ordered
  refine ⟨spelled.spelled (here.moves opened), fun a ha => ?_, ordered, distinct⟩
  obtain ⟨start, some, stop⟩ := within a ha
  refine ⟨Nat.lt_of_lt_of_le ?_ start, some, stop⟩
  rw [opened.2, Position.offset_advance]
  exact Nat.lt_add_of_pos_right (Nat.add_pos_left (Char.utf8Size_pos bracket) _)

/-- The space after a value and after an equals sign: the first is in no span, the second is in one,
as the text ends there. -/
theorem attribute_spans_to_end :
    let source := "<a x = 'y'  b= "
    let x : Attribute := ⟨"x", some "y", ⟨⟨3, 1, 4⟩, ⟨10, 1, 11⟩⟩⟩
    let b : Attribute := ⟨"b", none, ⟨⟨12, 1, 13⟩, ⟨15, 1, 16⟩⟩⟩
    let l : Lexeme := ⟨.startTag ⟨"a", [x, b], false⟩, ⟨.start, ⟨15, 1, 16⟩⟩,
      [{ kind := .eofInTag, span := .point ⟨15, 1, 16⟩ }]⟩
    l ∈ (Dialect.template {}).lexemes source ∧
      x.span.text source = "x = 'y'" ∧ b.span.text source = "b= " ∧
      x.Spelled source ∧ b.Spelled source ∧ x.span.stop.offset ≤ b.span.start.offset := by
  intro source x b l
  have listed : l ∈ (Dialect.template {}).lexemes source := by decide +kernel
  obtain ⟨spelled, -, ordered, -⟩ := attribute_spans (Dialect.template {}) source listed rfl
  refine ⟨listed, by decide +kernel, by decide +kernel, spelled x List.mem_cons_self,
    spelled b (List.mem_cons_of_mem x List.mem_cons_self), ?_⟩
  exact (List.pairwise_cons.mp ordered).1 b List.mem_cons_self

end ComponentLoader.Markup
