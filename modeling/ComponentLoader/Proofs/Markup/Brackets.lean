import ComponentLoader.Proofs.Markup.Rereading

/-! Where markup ends. Tags and comments go on to a bracket or to the end of the text,
and only text ends before anything else. -/
namespace ComponentLoader.Markup

/-- What is read of a text ends with a bracket, or with the text. -/
def Cursor.Bracketed (s : List Char) (c : Cursor) : Prop :=
  c.rest = [] ∨ ∃ a, s = a ++ '>' :: c.rest

namespace Cursor

variable {s t : List Char} {c : Cursor}

theorem Bracketed.precede (h : Bracketed t c) (parts : t <:+ s) : Bracketed s c := by
  rcases h with none | ⟨b, rfl⟩
  · exact .inl none
  · obtain ⟨a, rfl⟩ := parts
    exact .inr ⟨a ++ b, by rw [List.append_assoc]⟩

theorem bracketed_readTag (c : Cursor) : Bracketed c.rest c.readTag.2 := by
  obtain ⟨a, parts, -⟩ := (reaches_tagEnd c).text
  rcases readTag_cases c with ⟨done, tag⟩ | ⟨r, closed, tag⟩ | ⟨r, closed, tag⟩
  · rw [tag]
    exact .inl done
  · right
    refine ⟨a ++ ['/'], ?_⟩
    rw [tag, rest_skip, parts, closed]
    simp
  · right
    refine ⟨a, ?_⟩
    rw [tag, rest_skip, parts, closed]
    rfl

theorem bracketed_readBogusComment (c : Cursor) (n : Nat) :
    Bracketed c.rest (c.readBogusComment n).2 := by
  refine Bracketed.precede ?_ (List.drop_suffix n c.rest)
  have whole := List.takeWhile_append_dropWhile (p := (· != '>')) (l := c.rest.drop n)
  have head := List.head?_dropWhile_not (· != '>') (c.rest.drop n)
  rw [Bracketed, rest_readBogusComment]
  cases left : (c.rest.drop n).dropWhile (· != '>') with
  | nil => exact .inl rfl
  | cons ch r =>
    rw [left] at head whole
    obtain rfl : ch = '>' := by simpa using head
    exact .inr ⟨_, whole.symm⟩

theorem bracketed_readComment (c : Cursor) : Bracketed c.rest c.readComment.2 := by
  rw [Bracketed, rest_readComment]
  cases found : closer? c.rest with
  | none => exact .inl rfl
  | some parts =>
    obtain ⟨before, after⟩ := parts
    right
    rcases Option.or_eq_some_iff.mp found with strong | ⟨-, weak⟩
    · exact ⟨before ++ ['-', '-', '!'], by rw [Text.eq_of_splitOnce strong]; simp [strongCloser]⟩
    · exact ⟨before ++ ['-', '-'], by rw [Text.eq_of_splitOnce weak]; simp⟩

theorem bracketed_readDeclaration (c : Cursor) : Bracketed c.rest c.readDeclaration.2 := by
  rcases readDeclaration_cases c with ⟨-, read⟩ | ⟨-, left, -⟩
  · rw [read]
    exact bracketed_readComment c
  · rw [Bracketed, left]
    exact bracketed_readBogusComment c 2

theorem bracketed_readEndTag (c : Cursor) : Bracketed c.rest c.readEndTag.2 := by
  rw [Bracketed, rest_readEndTag]
  exact (bracketed_readTag (c.skip 2)).precede (List.drop_suffix 2 c.rest)

theorem bracketed_readEndTagOpen (front : c.rest = '<' :: '/' :: t) :
    Bracketed c.rest c.readEndTagOpen.2 := by
  cases t with
  | nil =>
    rw [readEndTagOpen_nil (by rw [front]; rfl)]
    left
    simp [readText, front]
  | cons ch t =>
    have third : c.rest.drop 2 = ch :: t := by rw [front]; rfl
    by_cases bracket : ch = '>'
    · subst bracket
      rw [readEndTagOpen_bracket third]
      exact .inr ⟨['<', '/'], by simp [front]⟩
    · by_cases letter : ch.isAlpha = true
      · rw [readEndTagOpen_eq third letter]
        exact bracketed_readEndTag c
      · rw [readEndTagOpen_bogus third bracket letter]
        exact bracketed_readBogusComment (c.report _) 2

/-- A bracket that opens begins something that a bracket closes, or is text alone. -/
theorem bracketed_readMarkup (d : Dialect) (front : c.rest = '<' :: t) :
    Bracketed c.rest (c.readMarkup d).2.2 ∨ (c.readMarkup d).2.2.rest = t := by
  rcases plain_or_begins t with plain | ⟨s, rfl⟩ | ⟨s, rfl⟩ | ⟨s, rfl⟩ | ⟨ch, s, rfl, letter⟩
  · obtain ⟨kind, -, read⟩ := readMarkup_text (d := d) front plain
    right
    rw [read]
    simp [readText, front]
  · left
    rw [readMarkup_endTag front]
    exact bracketed_readEndTagOpen front
  · left
    rw [readMarkup_declaration front]
    exact bracketed_readDeclaration c
  · left
    rw [readMarkup_question front]
    exact bracketed_readBogusComment (c.report _) 1
  · left
    rw [readMarkup_startTag front letter]
    exact (bracketed_readTag (c.skip 1)).precede (List.drop_suffix 1 c.rest)

end Cursor

/-- Text is read up to the next bracket that opens. -/
theorem Head.next_of_text {h : Head} {s t : List Char} (mode : h.mode = .data)
    (parts : h.rest = s ++ t) (more : s ≠ []) (plain : '<' ∉ s)
    (stop : t = [] ∨ t.head? = some '<') :
    (∃ content, (h.lexeme .component).token = .text content) ∧
      h.next .component = ⟨.data, h.position.advance s, t⟩ := by
  have read : h.cursor.read .component h.mode =
      ((h.cursor.readText s.length).1, .data, (h.cursor.readText s.length).2) := by
    rw [mode]
    exact Cursor.readData_text (c := h.cursor) parts more plain stop
  have taken : h.cursor.rest = s ++ t := parts
  refine ⟨⟨_, by rw [Head.lexeme, read]; rfl⟩, ?_⟩
  rw [Head.next, read]
  simp only [Cursor.readText, Cursor.skip, taken, List.drop_left, List.take_left]
  rfl

/-- Raw text is read up to the end tag of its element, and the end tag up to its bracket. -/
theorem Head.next_of_raw {h : Head} {name : String} (mode : h.mode = .raw name)
    (settled : h.mode.Settled) (more : h.rest ≠ []) :
    Cursor.Bracketed h.rest (h.next .component).cursor ∨
      EndTagStands name (h.next .component).rest := by
  obtain ⟨body, tail, whole, stands, -, readRaw⟩ := Cursor.readRaw_cases h.cursor name
  have read : h.cursor.read .component h.mode = h.cursor.readRaw .component name := by
    rw [mode, Cursor.read]
  rw [Head.next, read, readRaw]
  by_cases empty : body = []
  · subst empty
    obtain rfl : h.rest = tail := whole
    rw [mode] at settled
    rw [if_pos rfl, Cursor.readData_eq_endTag (by decide) settled (stands.resolve_left more)]
    exact .inl (Cursor.bracketed_readEndTag h.cursor)
  · have left : (h.cursor.readText body.length).2.rest = tail := by
      simp [Cursor.readText, whole]
    rw [if_neg empty]
    rcases stands with none | stands
    · exact .inl (.inl (left.trans none))
    · exact .inr (left ▸ stands)

/-- Where everything may stand, text is read, or something that a bracket closes, or a bracket that
opens nothing. -/
theorem Head.next_of_data {h : Head} (mode : h.mode = .data) (more : h.rest ≠ []) :
    (∃ body content, '<' ∉ body ∧ h.rest = body ++ (h.next .component).rest ∧
      (h.lexeme .component).token = .text content) ∨
    Cursor.Bracketed h.rest (h.next .component).cursor ∨
      h.rest = '<' :: (h.next .component).rest := by
  rcases Cursor.text_or_markup more with ⟨body, tail, whole, some, plain, stop⟩ | ⟨t, front⟩
  · obtain ⟨⟨content, text⟩, next⟩ := h.next_of_text mode whole some plain stop
    exact .inl ⟨body, content, plain, by rw [next]; exact whole, text⟩
  · right
    have read : h.cursor.read .component h.mode = h.cursor.readMarkup .component := by
      rw [mode, Cursor.read]
      exact Cursor.readData_markup (c := h.cursor) front
    rw [Head.next, read]
    rcases Cursor.bracketed_readMarkup .component (c := h.cursor) front with closed | alone
    · exact .inl closed
    · exact .inr (front.trans (congrArg ('<' :: ·) alone.symm))

/-- Where reading stops after a character that is no bracket, and before what is no end tag, it has
read text. -/
theorem Head.text_before {h : Head} {s r : List Char} {ch : Char} (settled : h.mode.Settled)
    (parts : h.rest = (s ++ [ch]) ++ r) (left : (h.next .component).rest = r) (more : r ≠ [])
    (noEndTag : ∀ t, r ≠ '<' :: '/' :: t) (closing : ch ≠ '>') (opening : ch ≠ '<') :
    h.mode = .data ∧ '<' ∉ s ++ [ch] ∧ ∃ content, (h.lexeme .component).token = .text content := by
  have nonempty : h.rest ≠ [] := by simp [parts]
  have notBracketed : ¬ Cursor.Bracketed h.rest (h.next .component).cursor := by
    rintro (none | ⟨a, whole⟩)
    · exact more (left.symm.trans none)
    · have whole : (s ++ [ch]) ++ r = (a ++ ['>']) ++ r := by
        rw [← parts, whole, List.append_assoc, ← left]
        rfl
      have last := List.append_inj_right' (List.append_cancel_right whole) rfl
      exact closing (List.cons.inj last).1
  cases mode : h.mode with
  | replaceable name =>
    rw [mode] at settled
    exact absurd settled id
  | raw name =>
    rcases h.next_of_raw mode settled nonempty with closed | ⟨n, t, front, -⟩
    · exact absurd closed notBracketed
    · exact absurd (left.symm.trans front) (noEndTag _)
  | data =>
    rcases h.next_of_data mode nonempty with ⟨body, content, plain, whole, text⟩ | closed | front
    · rw [left, parts] at whole
      obtain rfl := List.append_cancel_right whole
      exact ⟨rfl, plain, content, text⟩
    · exact absurd closed notBracketed
    · rw [left, parts] at front
      have single : s ++ [ch] = [] ++ ['<'] :=
        List.append_cancel_right (show (s ++ [ch]) ++ r = ([] ++ ['<']) ++ r from front)
      exact absurd (List.cons.inj (List.append_inj_right' single rfl)).1 opening

/-- A start tag is read only where everything may stand. -/
theorem Head.mode_of_startTag {h : Head} {tag : Tag} (settled : h.mode.Settled) (more : h.rest ≠ [])
    (token : (h.lexeme .component).token = .startTag tag) : h.mode = .data := by
  cases mode : h.mode with
  | data => rfl
  | replaceable name =>
    rw [mode] at settled
    exact absurd settled id
  | raw name =>
    obtain ⟨body, tail, whole, stands, -, readRaw⟩ := Cursor.readRaw_cases h.cursor name
    rw [mode] at settled
    rw [Head.lexeme, mode, Cursor.read, readRaw] at token
    by_cases empty : body = []
    · subst empty
      obtain rfl : h.rest = tail := whole
      obtain ⟨n, ending, -⟩ := Cursor.readData_endTag (c := h.cursor) (d := .component) (by decide)
        settled (stands.resolve_left more)
      rw [if_pos rfl, ending] at token
      cases token
    · rw [if_neg empty] at token
      cases token

/-- A start tag begins with a bracket and a letter. -/
theorem Head.startTag_inversion {h : Head} {tag : Tag} (mode : h.mode = .data) (more : h.rest ≠ [])
    (token : (h.lexeme .component).token = .startTag tag) :
    ∃ ch t, h.rest = '<' :: ch :: t ∧ ch.isAlpha = true := by
  rcases Cursor.text_or_markup more with ⟨s, t, parts, some, plain, stop⟩ | ⟨t, front⟩
  · obtain ⟨⟨content, text⟩, -⟩ := h.next_of_text mode parts some plain stop
    rw [token] at text
    cases text
  · have markup := Cursor.readData_markup (c := h.cursor) front
    rw [Head.lexeme, mode, Cursor.read, markup] at token
    rcases Cursor.plain_or_begins t with
      plain | ⟨s, rfl⟩ | ⟨s, rfl⟩ | ⟨s, rfl⟩ | ⟨ch, s, rfl, letter⟩
    · obtain ⟨kind, -, text⟩ := Cursor.readMarkup_text (c := h.cursor) (d := .component) front plain
      rw [text] at token
      cases token
    · rw [Cursor.readMarkup_endTag (c := h.cursor) front] at token
      exact absurd token (Cursor.startTag_ne_readEndTagOpen _ tag)
    · obtain ⟨content, comment⟩ := Cursor.comment_of_readDeclaration h.cursor
      rw [Cursor.readMarkup_declaration (c := h.cursor) front, comment] at token
      cases token
    · rw [Cursor.readMarkup_question (c := h.cursor) front] at token
      cases token
    · exact ⟨ch, s, front, letter⟩

theorem Head.read_startTag {h : Head} {ch : Char} {t : List Char} (mode : h.mode = .data)
    (front : h.rest = '<' :: ch :: t) (letter : ch.isAlpha = true) :
    h.cursor.read .component h.mode = h.cursor.readStartTag .component := by
  rw [mode, Cursor.read, Cursor.readData_markup (c := h.cursor) front]
  exact Cursor.readMarkup_startTag front letter

/-- A start tag that goes on over the end of a text is cut off there without what follows. -/
theorem Head.startTag_cut_off {h h₁ : Head} {ch : Char} {s w : List Char} {tag : Tag}
    (mode : h.mode = .data) (mode₁ : h₁.mode = .data) (rest₁ : h₁.rest = '<' :: ch :: s)
    (rest : h.rest = '<' :: ch :: s ++ '\n' :: w) (letter : ch.isAlpha = true)
    (token : (h.lexeme .component).token = .startTag tag)
    (across : ∀ b, (h.next .component).rest ≠ b ++ '\n' :: w) :
    (∃ tag₁, (h₁.lexeme .component).token = .startTag tag₁ ∧ tag₁.name = tag.name) ∧
      .eofInTag ∈ (h₁.lexeme .component).tagFaults ∧ (h₁.next .component).rest = [] := by
  have read := h.read_startTag mode rest letter
  have read₁ := h₁.read_startTag mode₁ rest₁ letter
  have beside : Cursor.Beside [] ('\n' :: w) (h₁.cursor.skip 1) (h.cursor.skip 1) := by
    refine ⟨⟨ch :: s, ?_, ?_⟩, rfl⟩
    · simp [Head.cursor, rest₁]
    · simp [Head.cursor, rest]
  have open? : ¬ Cursor.Stops [] ('\n' :: w) (h₁.cursor.skip 1).readTag.2 := by
    intro stops
    obtain ⟨a, -, left⟩ := (beside.readTag stops).2.rest
    refine across a ?_
    rw [Head.next, read]
    exact left
  have left : (h₁.next .component).rest = (h₁.cursor.skip 1).readTag.2.rest := by
    rw [Head.next, read₁]
    rfl
  have faults : (h₁.lexeme .component).tagFaults = (h₁.cursor.skip 1).readTag.2.tagFaults := by
    rw [Head.lexeme, read₁]
    rfl
  refine ⟨⟨(h₁.cursor.skip 1).readTag.1, by rw [Head.lexeme, read₁]; rfl, ?_⟩, ?_, ?_⟩
  · obtain rfl : (h.cursor.skip 1).readTag.1 = tag := by
      rw [Head.lexeme, read] at token
      exact Token.startTag.inj token
    have ends : ¬ isNameChar '\n' = true := by decide
    have name : (ch :: s ++ '\n' :: w).takeWhile isNameChar = (ch :: s).takeWhile isNameChar := by
      rw [List.takeWhile_append, List.takeWhile_cons_of_neg ends]
      split
      · next all =>
        rw [List.append_nil]
        exact ((List.takeWhile_prefix isNameChar).eq_of_length all).symm
      · rfl
    rw [Cursor.readTag_name, Cursor.readTag_name]
    simp only [Cursor.rest_skip, Head.cursor, rest, rest₁]
    exact congrArg String.ofList name.symm
  · rw [faults]
    by_contra closed
    exact open? ⟨_, (List.append_nil _).symm, .inr (.inr closed)⟩
  · rw [left]
    by_contra more
    exact open? ⟨_, (List.append_nil _).symm, .inr (.inl (by rwa [List.append_nil]))⟩

/-- Without brackets that open there is only text. -/
theorem Head.texts_of_plain {h : Head} (mode : h.mode = .data) (plain : '<' ∉ h.rest) :
    ∀ l ∈ h.lexemes .component, ∃ content, l.token = .text content := by
  intro l listed
  by_cases more : h.rest = []
  · rw [lexemes_nil more] at listed
    cases listed
  · obtain ⟨text, next⟩ :=
      h.next_of_text mode (List.append_nil h.rest).symm more plain (.inl rfl)
    rw [lexemes_cons more, next, lexemes_nil rfl, List.mem_singleton] at listed
    rw [listed]
    exact text

end ComponentLoader.Markup
