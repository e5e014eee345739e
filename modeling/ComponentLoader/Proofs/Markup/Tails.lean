import ComponentLoader.Proofs.Markup.CommentTails
import ComponentLoader.Proofs.Markup.RawText

/-! Tokens before different tails. A token that ends before a tail is read again when
the tail is replaced, if nothing that the token depends on is in the tail: the end of
a tag or a comment, or the character that ends a text. -/
namespace ComponentLoader.Markup

/-- Two tokens of one kind; tags say the same, whatever texts and comments say. -/
inductive Token.Alike : Token → Token → Prop
  | startTag {t t' : Tag} (same : t.Alike t') : Alike (.startTag t) (.startTag t')
  | endTag (name : String) : Alike (.endTag name) (.endTag name)
  | text (s s' : String) : Alike (.text s) (.text s')
  | comment (s s' : String) : Alike (.comment s) (.comment s')

namespace Cursor

variable {u v : List Char} {c c' : Cursor}

/-- A token has come to an end before the tail `u`, and the tail `v` does not change that. -/
def Firm (u v : List Char) (token : Token) (c : Cursor) : Prop :=
  ∃ b, c.rest = b ++ u ∧ (u = [] ∧ v = [] ∨
    match token with
    | .text _ => b ++ v = [] ∨ (b ++ v).head? = (b ++ u).head?
    | .comment _ => b ++ u ≠ [] ∧ NoCloserComes u v
    | _ => b ++ u ≠ [] ∨ .eofInTag ∉ c.tagFaults)

structure Agree (u v : List Char) (read read' : Token × Mode × Cursor) : Prop where
  token : read.1.Alike read'.1
  mode : read.2.1 = read'.2.1
  beside : Beside u v read.2.2 read'.2.2

/-- Characters that stand before a bracket stand before either tail. -/
theorem Twin.front {s t : List Char} {ch : Char} (h : Twin u v c c') (plain : '>' ∉ s)
    (front : c.rest = s ++ ch :: t) : ∃ t', c'.rest = s ++ ch :: t' := by
  obtain ⟨a, ha, ha', ⟨rfl, rfl⟩ | bracket⟩ := h.rest
  · exact ⟨t, by rw [ha', ← ha, front]⟩
  · rcases List.append_eq_append_iff.mp (ha.symm.trans front) with ⟨r, rfl, -⟩ | ⟨r, rfl, further⟩
    · exact absurd (List.mem_append_left r bracket) plain
    · cases r with
      | nil => exact absurd (by simpa using bracket) plain
      | cons x r =>
        obtain ⟨rfl, -⟩ := List.cons.inj further
        exact ⟨r ++ v, by rw [ha']; simp⟩

theorem Beside.reported (h : Beside u v c c') (kind kind' : FaultKind)
    (plain : kind.isTagSyntax = false) (plain' : kind'.isTagSyntax = false) :
    Beside u v (c.report kind) (c'.report kind') := by
  refine ⟨h.rest, ?_⟩
  rw [tagFaults_report c plain, tagFaults_report c' plain']
  exact h.faults

section EndTags

variable {ch : Char} {t : List Char}

theorem readEndTagOpen_nil (h : c.rest.drop 2 = []) :
    c.readEndTagOpen = (c.report .eofBeforeTagName).readText 2 := by
  unfold readEndTagOpen
  split
  · rfl
  · next some => rw [h] at some; cases some
  · next some => rw [h] at some; cases some

theorem readEndTagOpen_bracket (h : c.rest.drop 2 = '>' :: t) :
    c.readEndTagOpen = (.comment "", (c.report .missingEndTagName).skip 3) := by
  unfold readEndTagOpen
  split
  · next none => rw [h] at none; cases none
  · rfl
  · next other some =>
    rw [h] at some
    cases some
    exact absurd rfl other

theorem readEndTagOpen_bogus (h : c.rest.drop 2 = ch :: t) (open? : ch ≠ '>')
    (letter : ¬ ch.isAlpha = true) :
    c.readEndTagOpen = (c.report .invalidFirstCharacterOfTagName).readBogusComment 2 := by
  unfold readEndTagOpen
  split
  · next none => rw [h] at none; cases none
  · next some =>
    rw [h] at some
    cases some
    exact absurd rfl open?
  · next some =>
    rw [h] at some
    cases some
    rw [if_neg letter]

end EndTags

theorem tagFaults_readEndTag (c : Cursor) :
    c.readEndTag.2.tagFaults = (c.skip 2).readTag.2.tagFaults := by
  unfold readEndTag
  dsimp only
  rw [tagFaults_reportIf _ _ rfl, tagFaults_reportIf _ _ rfl]

theorem rest_readEndTag (c : Cursor) : c.readEndTag.2.rest = (c.skip 2).readTag.2.rest := by
  simp [readEndTag]

theorem Beside.readEndTag (h : Beside u v c c') (length : 2 ≤ c.rest.length)
    (firm : Firm u v c.readEndTag.1 c.readEndTag.2) :
    Ahead u v c.rest ∧ c.readEndTag.1.Alike c'.readEndTag.1 ∧
      Beside u v c.readEndTag.2 c'.readEndTag.2 := by
  have stops : Stops u v (c.skip 2).readTag.2 := by
    obtain ⟨b, left, ended⟩ := firm
    rw [rest_readEndTag] at left
    refine ⟨b, left, ?_⟩
    rw [← tagFaults_readEndTag]
    exact ended
  have opened := (reaches_tagEnd _).ahead (ahead_tagEnd stops)
  have start := (reaches_skip length).ahead opened
  obtain ⟨tag, beside⟩ := ((h.twin start).skip opened).beside.readTag stops
  refine ⟨start, ?_, ?_⟩
  · simp only [Cursor.readEndTag, tag.name]
    exact .endTag _
  · refine ⟨?_, ?_⟩
    · rw [rest_readEndTag, rest_readEndTag]
      exact beside.rest
    · rw [tagFaults_readEndTag, tagFaults_readEndTag]
      exact beside.faults

theorem Beside.readText (h : Beside u v c c') {s b : List Char}
    (parts : c.rest = s ++ (b ++ u)) :
    (c.readText s.length).1.Alike (c'.readText s.length).1 ∧
      Beside u v (c.readText s.length).2 (c'.readText s.length).2 :=
  ⟨.text _ _, (h.skip parts).2⟩

/-- `</` at the end of the text is read as text, which it is only without tails. -/
theorem Beside.readEndTagOpen_nil (h : Beside u v c c') (front : c.rest = '<' :: '/' :: [])
    (firm : Firm u v c.readEndTagOpen.1 c.readEndTagOpen.2) :
    c'.rest = '<' :: '/' :: [] ∧ c.readEndTagOpen.1.Alike c'.readEndTagOpen.1 ∧
      Beside u v c.readEndTagOpen.2 c'.readEndTagOpen.2 := by
  have none : c.rest.drop 2 = [] := by rw [front]; rfl
  rw [Cursor.readEndTagOpen_nil none] at firm
  obtain ⟨b, left, settled⟩ := firm
  have empty : b = [] ∧ u = [] := by
    refine List.append_eq_nil_iff.mp (left.symm.trans ?_)
    simp [Cursor.readText, front]
  obtain ⟨rfl, rfl⟩ := empty
  have both : v = [] := by
    rcases settled with ⟨-, rfl⟩ | rfl | head
    · rfl
    · rfl
    · exact List.head?_eq_none_iff.mp head
  subst both
  obtain ⟨a, ha, ha'⟩ := h.rest
  have same : c'.rest = '<' :: '/' :: [] := by rw [ha', ← ha, front]
  have none' : c'.rest.drop 2 = [] := by rw [same]; rfl
  rw [Cursor.readEndTagOpen_nil none, Cursor.readEndTagOpen_nil none']
  have parts : (c.report .eofBeforeTagName).rest = ['<', '/'] ++ ([] ++ []) := front
  exact ⟨same, (h.reported .eofBeforeTagName .eofBeforeTagName rfl rfl).readText parts⟩

theorem Beside.readEndTagOpen_bracket (h : Beside u v c c') {t : List Char}
    (front : c.rest = '<' :: '/' :: '>' :: t)
    (firm : Firm u v c.readEndTagOpen.1 c.readEndTagOpen.2) :
    (∃ t', c'.rest = '<' :: '/' :: '>' :: t') ∧
      c.readEndTagOpen.1.Alike c'.readEndTagOpen.1 ∧
      Beside u v c.readEndTagOpen.2 c'.readEndTagOpen.2 := by
  have some : c.rest.drop 2 = '>' :: t := by rw [front]; rfl
  rw [Cursor.readEndTagOpen_bracket some] at firm
  obtain ⟨b, left, -⟩ := firm
  have parts : c.rest = ['<', '/', '>'] ++ (b ++ u) := by
    rw [front, ← left]
    simp [front]
  obtain ⟨parts', beside⟩ := (h.reported .missingEndTagName .missingEndTagName rfl rfl).skip parts
  have some' : c'.rest.drop 2 = '>' :: (b ++ v) := congrArg (List.drop 2) parts'
  rw [Cursor.readEndTagOpen_bracket some, Cursor.readEndTagOpen_bracket some']
  exact ⟨⟨_, parts'⟩, .comment _ _, beside⟩

theorem Beside.readEndTagOpen (h : Beside u v c c') {t : List Char}
    (front : c.rest = '<' :: '/' :: t) (firm : Firm u v c.readEndTagOpen.1 c.readEndTagOpen.2) :
    (∃ t', c'.rest = '<' :: '/' :: t') ∧ c.readEndTagOpen.1.Alike c'.readEndTagOpen.1 ∧
      Beside u v c.readEndTagOpen.2 c'.readEndTagOpen.2 := by
  have length : 2 ≤ c.rest.length := by simp [front]
  cases t with
  | nil =>
    obtain ⟨front', agree⟩ := h.readEndTagOpen_nil front firm
    exact ⟨⟨_, front'⟩, agree⟩
  | cons ch t =>
    have some : c.rest.drop 2 = ch :: t := by rw [front]; rfl
    have again (start : Ahead u v c.rest) : ∃ t', c'.rest = '<' :: '/' :: ch :: t' :=
      (h.twin start).front (s := ['<', '/']) (by decide) front
    by_cases bracket : ch = '>'
    · subst bracket
      obtain ⟨⟨t', front'⟩, agree⟩ := h.readEndTagOpen_bracket front firm
      exact ⟨⟨_, front'⟩, agree⟩
    · by_cases letter : ch.isAlpha = true
      · rw [readEndTagOpen_eq some letter] at firm ⊢
        obtain ⟨start, token, beside⟩ := h.readEndTag length firm
        obtain ⟨t', front'⟩ := again start
        have some' : c'.rest.drop 2 = ch :: t' := by rw [front']; rfl
        rw [readEndTagOpen_eq some' letter]
        exact ⟨⟨_, front'⟩, token, beside⟩
      · rw [readEndTagOpen_bogus some bracket letter] at firm ⊢
        obtain ⟨start, beside⟩ :=
          (h.reported .invalidFirstCharacterOfTagName .invalidFirstCharacterOfTagName rfl
            rfl).readBogusComment length firm
        obtain ⟨t', front'⟩ := again start
        have some' : c'.rest.drop 2 = ch :: t' := by rw [front']; rfl
        rw [readEndTagOpen_bogus some' bracket letter]
        exact ⟨⟨_, front'⟩, .comment _ _, beside⟩

theorem Twin.startsWith (h : Twin u v c c') {p : List Char} (plain : '>' ∉ p) :
    Text.startsWith p c.rest = Text.startsWith p c'.rest := by
  obtain ⟨a, ha, ha', ⟨rfl, rfl⟩ | bracket⟩ := h.rest
  · rw [ha, ha']
  · rw [ha, ha', Text.startsWith_append plain bracket, Text.startsWith_append plain bracket]

/-- What follows `<!` is a comment, or is read as one up to the next bracket. -/
theorem readDeclaration_cases (c : Cursor) :
    (Text.startsWith "<!--".toList c.rest = true ∧ c.readDeclaration = c.readComment) ∨
      (Text.startsWith "<!--".toList c.rest = false ∧
        c.readDeclaration.2.rest = (c.readBogusComment 2).2.rest ∧
        c.readDeclaration.2.tagFaults = c.tagFaults) := by
  unfold readDeclaration
  split
  · next opened => exact .inl ⟨opened, rfl⟩
  · next other =>
    refine .inr ⟨by simpa using other, ?_⟩
    split
    · exact ⟨rfl, rfl⟩
    · split
      · exact ⟨rfl, tagFaults_report c rfl⟩
      · exact ⟨rfl, tagFaults_report c rfl⟩

theorem Beside.readDeclaration (h : Beside u v c c') (length : 2 ≤ c.rest.length)
    (firm : Firm u v c.readDeclaration.1 c.readDeclaration.2) :
    Ahead u v c.rest ∧ c.readDeclaration.1.Alike c'.readDeclaration.1 ∧
      Beside u v c.readDeclaration.2 c'.readDeclaration.2 := by
  obtain ⟨content, comment⟩ := comment_of_readDeclaration c
  obtain ⟨content', comment'⟩ := comment_of_readDeclaration c'
  have token : c.readDeclaration.1.Alike c'.readDeclaration.1 := by
    rw [comment, comment']
    exact .comment _ _
  rw [comment] at firm
  have shuts : Shuts u v c.readDeclaration.2 := firm
  rcases readDeclaration_cases c with ⟨opened, read⟩ | ⟨other, left, faults⟩
  · rw [read] at shuts
    obtain ⟨start, beside⟩ := h.readComment shuts
    rcases readDeclaration_cases c' with ⟨-, read'⟩ | ⟨other', -⟩
    · rw [read, read'] at token ⊢
      exact ⟨start, token, beside⟩
    · rw [← (h.twin start).startsWith (by decide), opened] at other'
      cases other'
  · rw [Shuts, left] at shuts
    obtain ⟨start, beside⟩ := h.readBogusComment length shuts
    rcases readDeclaration_cases c' with ⟨opened', -⟩ | ⟨-, left', faults'⟩
    · rw [← (h.twin start).startsWith (by decide), other] at opened'
      cases opened'
    · refine ⟨start, token, ?_, ?_⟩
      · rw [left, left']
        exact beside.rest
      · rw [faults, faults']
        exact h.faults

theorem modeAfter_of_alike (d : Dialect) {t t' : Tag} (same : t.Alike t') :
    d.modeAfter t = d.modeAfter t' := by
  rw [Dialect.modeAfter, Dialect.modeAfter, same.selfClosing, same.name]

theorem Beside.readStartTag (h : Beside u v c c') {d : Dialect} (length : 1 ≤ c.rest.length)
    (firm : Firm u v (c.readStartTag d).1 (c.readStartTag d).2.2) :
    Ahead u v c.rest ∧ Agree u v (c.readStartTag d) (c'.readStartTag d) := by
  have stops : Stops u v (c.skip 1).readTag.2 := firm
  have opened := (reaches_tagEnd _).ahead (ahead_tagEnd stops)
  have start := (reaches_skip length).ahead opened
  obtain ⟨tag, beside⟩ := ((h.twin start).skip opened).beside.readTag stops
  exact ⟨start, .startTag tag, modeAfter_of_alike d tag, beside⟩

section Markup

variable {d : Dialect} {t : List Char} {ch : Char}

theorem readMarkup_endTag (h : c.rest = '<' :: '/' :: t) :
    c.readMarkup d = (c.readEndTagOpen.1, .data, c.readEndTagOpen.2) := by
  simp only [readMarkup, h]

theorem readMarkup_declaration (h : c.rest = '<' :: '!' :: t) :
    c.readMarkup d = (c.readDeclaration.1, .data, c.readDeclaration.2) := by
  simp only [readMarkup, h]

theorem readMarkup_question (h : c.rest = '<' :: '?' :: t) :
    c.readMarkup d =
      let read := (c.report .unexpectedQuestionMarkInsteadOfTagName).readBogusComment 1
      (read.1, .data, read.2) := by
  simp only [readMarkup, h]

theorem readMarkup_startTag (h : c.rest = '<' :: ch :: t) (letter : ch.isAlpha = true) :
    c.readMarkup d = c.readStartTag d := by
  unfold readMarkup
  split
  · next hr => rw [h] at hr; cases hr; cases letter
  · next hr => rw [h] at hr; cases hr; cases letter
  · next hr => rw [h] at hr; cases hr; cases letter
  · next hr =>
    rw [h] at hr
    cases hr
    rw [if_pos letter]
  · next none =>
    exact absurd h (none ch t)

/-- The next character begins neither a tag nor anything that is read as a comment. -/
def Plain (t : List Char) : Prop :=
  ∀ ch, t.head? = some ch → ¬ ch.isAlpha = true ∧ ch ≠ '/' ∧ ch ≠ '!' ∧ ch ≠ '?'

/-- A bracket that begins nothing is text. -/
theorem readMarkup_text (h : c.rest = '<' :: t) (plain : Plain t) :
    ∃ kind : FaultKind, kind.isTagSyntax = false ∧
      c.readMarkup d = (((c.report kind).readText 1).1, .data, ((c.report kind).readText 1).2) := by
  unfold readMarkup
  split
  · next hr => rw [h] at hr; cases hr; exact absurd rfl (plain _ rfl).2.1
  · next hr => rw [h] at hr; cases hr; exact absurd rfl (plain _ rfl).2.2.1
  · next hr => rw [h] at hr; cases hr; exact absurd rfl (plain _ rfl).2.2.2
  · next hr =>
    rw [h] at hr
    cases hr
    rw [if_neg (plain _ rfl).1]
    exact ⟨.invalidFirstCharacterOfTagName, rfl, rfl⟩
  · exact ⟨.eofBeforeTagName, rfl, rfl⟩

theorem plain_or_begins (t : List Char) :
    Plain t ∨ (∃ s, t = '/' :: s) ∨ (∃ s, t = '!' :: s) ∨ (∃ s, t = '?' :: s) ∨
      ∃ ch s, t = ch :: s ∧ ch.isAlpha = true := by
  cases t with
  | nil =>
    left
    intro ch head
    cases head
  | cons ch s =>
    by_cases letter : ch.isAlpha = true
    · exact .inr (.inr (.inr (.inr ⟨ch, s, rfl, letter⟩)))
    · by_cases solidus : ch = '/'
      · exact .inr (.inl ⟨s, by rw [solidus]⟩)
      · by_cases mark : ch = '!'
        · exact .inr (.inr (.inl ⟨s, by rw [mark]⟩))
        · by_cases question : ch = '?'
          · exact .inr (.inr (.inr (.inl ⟨s, by rw [question]⟩)))
          · left
            intro ch' head
            obtain rfl := Option.some.inj head
            exact ⟨letter, solidus, mark, question⟩

end Markup

theorem Beside.readMarkup (h : Beside u v c c') {d : Dialect} {t : List Char}
    (front : c.rest = '<' :: t) (firm : Firm u v (c.readMarkup d).1 (c.readMarkup d).2.2) :
    Agree u v (c.readMarkup d) (c'.readMarkup d) := by
  have again {ch : Char} {s : List Char} (front : c.rest = '<' :: ch :: s)
      (start : Ahead u v c.rest) : ∃ s', c'.rest = '<' :: ch :: s' :=
    (h.twin start).front (s := ['<']) (by decide) front
  rcases plain_or_begins t with plain | ⟨s, rfl⟩ | ⟨s, rfl⟩ | ⟨s, rfl⟩ | ⟨ch, s, rfl, letter⟩
  · obtain ⟨kind, quiet, read⟩ := readMarkup_text (d := d) front plain
    rw [read] at firm
    obtain ⟨b, left, settled⟩ := firm
    have parts : c.rest = ['<'] ++ (b ++ u) := by
      rw [← left, front]
      simp [Cursor.readText, front]
    obtain ⟨front', -⟩ := h.skip parts
    have plain' : Plain (b ++ v) := by
      obtain rfl : t = b ++ u := List.cons.inj (front.symm.trans parts) |>.2
      rcases settled with ⟨rfl, rfl⟩ | none | same
      · exact plain
      · rw [none]
        intro ch head
        cases head
      · intro ch head
        exact plain ch (same ▸ head)
    obtain ⟨kind', quiet', read'⟩ := readMarkup_text (d := d) front' plain'
    obtain ⟨token, beside⟩ := (h.reported kind kind' quiet quiet').readText parts
    rw [read, read']
    exact ⟨token, rfl, beside⟩
  · rw [readMarkup_endTag front] at firm ⊢
    obtain ⟨⟨s', front'⟩, token, beside⟩ := h.readEndTagOpen front firm
    rw [readMarkup_endTag front']
    exact ⟨token, rfl, beside⟩
  · rw [readMarkup_declaration front] at firm ⊢
    obtain ⟨start, token, beside⟩ := h.readDeclaration (by simp [front]) firm
    obtain ⟨s', front'⟩ := again front start
    rw [readMarkup_declaration front']
    exact ⟨token, rfl, beside⟩
  · rw [readMarkup_question front] at firm ⊢
    obtain ⟨start, beside⟩ := (h.reported .unexpectedQuestionMarkInsteadOfTagName
      .unexpectedQuestionMarkInsteadOfTagName rfl rfl).readBogusComment (by simp [front]) firm
    obtain ⟨s', front'⟩ := again front start
    rw [readMarkup_question front']
    exact ⟨.comment _ _, rfl, beside⟩
  · rw [readMarkup_startTag front letter] at firm ⊢
    obtain ⟨start, agree⟩ := h.readStartTag (d := d) (by simp [front]) firm
    obtain ⟨s', front'⟩ := again front start
    rw [readMarkup_startTag front' letter]
    exact agree

theorem stopsText_component (c : Char) :
    Dialect.component.delimiters.stopsText c = (c == '<') := by
  simp [Delimiters.stopsText, Dialect.component]

theorem takeWhile_plain {s t : List Char} (plain : '<' ∉ s) (stop : t = [] ∨ t.head? = some '<') :
    (s ++ t).takeWhile (!Dialect.component.delimiters.stopsText ·) = s := by
  simp only [stopsText_component]
  have all : ∀ c ∈ s, (!(c == '<')) = true := by
    intro c hc
    have other : c ≠ '<' := fun same => plain (same ▸ hc)
    simpa using other
  rw [List.takeWhile_append_of_pos all]
  cases t with
  | nil => rw [List.takeWhile_nil, List.append_nil]
  | cons c t =>
    have bracket : c = '<' := by simpa using stop
    rw [List.takeWhile_cons_of_neg (by simp [bracket]), List.append_nil]

/-- Text goes on to the next bracket that opens. -/
theorem readData_text {c : Cursor} {s t : List Char} (parts : c.rest = s ++ t) (more : s ≠ [])
    (plain : '<' ∉ s) (stop : t = [] ∨ t.head? = some '<') :
    c.readData .component = ((c.readText s.length).1, .data, (c.readText s.length).2) := by
  have positive : 0 < s.length := List.length_pos_iff.mpr more
  simp only [readData]
  rw [parts, takeWhile_plain plain stop, if_pos positive]

theorem readData_markup {c : Cursor} {t : List Char} (front : c.rest = '<' :: t) :
    c.readData .component = c.readMarkup .component :=
  readData_bracket (by decide) front

theorem text_or_markup {s : List Char} (more : s ≠ []) :
    (∃ a b, s = a ++ b ∧ a ≠ [] ∧ '<' ∉ a ∧ (b = [] ∨ b.head? = some '<')) ∨ ∃ t, s = '<' :: t := by
  obtain ⟨c, t, rfl⟩ := List.exists_cons_of_ne_nil more
  by_cases bracket : c = '<'
  · exact .inr ⟨t, by rw [bracket]⟩
  · left
    refine ⟨(c :: t).takeWhile (· != '<'), (c :: t).dropWhile (· != '<'),
      List.takeWhile_append_dropWhile.symm, ?_, ?_, ?_⟩
    · rw [List.takeWhile_cons_of_pos (by simpa using bracket)]
      exact List.cons_ne_nil _ _
    · intro inside
      have all := List.all_eq_true.mp (List.all_takeWhile (p := (· != '<')) (l := c :: t)) _ inside
      simp at all
    · have head := List.head?_dropWhile_not (· != '<') (c :: t)
      cases rest : (c :: t).dropWhile (· != '<') with
      | nil => exact .inl rfl
      | cons ch r =>
        rw [rest] at head
        exact .inr (by simpa using head)

theorem Beside.readData (h : Beside u v c c') (more : c.rest ≠ [])
    (firm : Firm u v (c.readData .component).1 (c.readData .component).2.2) :
    Agree u v (c.readData .component) (c'.readData .component) := by
  rcases text_or_markup more with ⟨s, t, parts, nonempty, plain, stop⟩ | ⟨t, front⟩
  · rw [readData_text parts nonempty plain stop] at firm ⊢
    obtain ⟨b, left, settled⟩ := firm
    have left : t = b ++ u := by
      rw [← left]
      simp [Cursor.readText, parts]
    rw [left] at parts stop
    obtain ⟨parts', -⟩ := h.skip parts
    have stop' : b ++ v = [] ∨ (b ++ v).head? = some '<' := by
      rcases settled with ⟨rfl, rfl⟩ | none | same
      · exact stop
      · exact .inl none
      · rcases stop with none | head
        · rw [none] at same
          exact .inl (List.head?_eq_none_iff.mp same)
        · exact .inr (same.trans head)
    rw [readData_text parts' nonempty plain stop']
    obtain ⟨token, beside⟩ := h.readText parts
    exact ⟨token, rfl, beside⟩
  · have again : ∃ t', c'.rest = '<' :: t' := by
      obtain ⟨a, ha, ha'⟩ := h.rest
      obtain ⟨b, left, -⟩ := firm
      have shorter := length_readData_lt .component (List.length_pos_iff.mpr more)
      rw [left, ha, List.length_append, List.length_append] at shorter
      have some : a ≠ [] := by
        rintro rfl
        rw [List.length_nil] at shorter
        omega
      obtain ⟨ch, a', rfl⟩ := List.exists_cons_of_ne_nil some
      obtain ⟨rfl, -⟩ := List.cons.inj (ha.symm.trans front)
      exact ⟨a' ++ v, ha'⟩
    obtain ⟨t', front'⟩ := again
    rw [readData_markup front] at firm ⊢
    rw [readData_markup front']
    exact h.readMarkup front firm

/-- How text alone is read: as one text up to the end tag, or from the end tag on. -/
theorem readRaw_cases (c : Cursor) (name : String) :
    ∃ body tail, c.rest = body ++ tail ∧ (tail = [] ∨ EndTagStands name tail) ∧
      (∀ x y, body = x ++ y → y ≠ [] → ¬ EndTagStands name (y ++ tail)) ∧
      c.readRaw .component name =
        if body = [] then c.readData .component
        else ((c.readText body.length).1, .data, (c.readText body.length).2) := by
  obtain ⟨tail, parts, stands, first⟩ := beforeEndTag_spec name c.rest
  refine ⟨beforeEndTag name c.rest, tail, parts, stands, first, ?_⟩
  simp only [readRaw, List.length_eq_zero_iff]

theorem readRaw_eq {c : Cursor} {name : String} {body tail : List Char}
    (parts : c.rest = body ++ tail) (stands : tail = [] ∨ EndTagStands name tail)
    (first : ∀ x y, body = x ++ y → y ≠ [] → ¬ EndTagStands name (y ++ tail)) :
    c.readRaw .component name =
      if body = [] then c.readData .component
      else ((c.readText body.length).1, .data, (c.readText body.length).2) := by
  simp only [readRaw, List.length_eq_zero_iff]
  rw [parts, beforeEndTag_eq stands first]

/-- Before a bracket, or without tails, an end tag stands in both texts or in neither. -/
theorem endTagStands_tails {name : String} (letters : Lettered name) {a : List Char}
    (inside : u = [] ∧ v = [] ∨ '>' ∈ a) :
    EndTagStands name (a ++ u) ↔ EndTagStands name (a ++ v) := by
  rcases inside with ⟨rfl, rfl⟩ | bracket
  · rfl
  · rw [endTagStands_append letters bracket, endTagStands_append letters bracket]

theorem Beside.readRaw (h : Beside u v c c') {name : String} (letters : Lettered name)
    (more : c.rest ≠ [])
    (firm : Firm u v (c.readRaw .component name).1 (c.readRaw .component name).2.2)
    (closing : ∀ s, (c.readRaw .component name).1 = .text s →
      Ahead u v (c.readRaw .component name).2.2.rest) :
    Agree u v (c.readRaw .component name) (c'.readRaw .component name) := by
  obtain ⟨body, tail, parts, stands, first, read⟩ := readRaw_cases c name
  by_cases empty : body = []
  · subst empty
    obtain rfl : c.rest = tail := parts
    have here := stands.resolve_left more
    rw [read, if_pos rfl] at firm ⊢
    have agree := h.readData more firm
    rw [readData_eq_endTag (by decide) letters here] at firm
    have length : 2 ≤ c.rest.length := by
      obtain ⟨n, rest, front, -⟩ := here
      simp [front]
    obtain ⟨start, -⟩ := h.readEndTag length firm
    have here' : EndTagStands name c'.rest := by
      obtain ⟨a, ha, ha', inside⟩ := (h.twin start).rest
      rw [ha, endTagStands_tails letters inside, ← ha'] at here
      exact here
    have parts' : c'.rest = [] ++ c'.rest := rfl
    rw [readRaw_eq parts' (.inr here'), if_pos rfl]
    · exact agree
    · intro x y none some
      exact absurd (List.append_eq_nil_iff.mp none.symm).2 some
  · rw [read, if_neg empty] at firm closing ⊢
    obtain ⟨b, left, -⟩ := firm
    obtain ⟨b', left', inside⟩ := closing _ rfl
    obtain rfl : b = b' := List.append_cancel_right (left.symm.trans left')
    have left : tail = b ++ u := by
      rw [← left]
      simp [Cursor.readText, parts]
    subst left
    obtain ⟨parts', -⟩ := h.skip parts
    have stands' : b ++ v = [] ∨ EndTagStands name (b ++ v) := by
      rcases stands with none | here
      · rcases inside with ⟨rfl, rfl⟩ | bracket
        · exact .inl none
        · exact absurd (List.append_eq_nil_iff.mp none).1 (List.ne_nil_of_mem bracket)
      · exact .inr ((endTagStands_tails letters inside).mp here)
    have first' (x y : List Char) (split : body = x ++ y) (some : y ≠ []) :
        ¬ EndTagStands name (y ++ (b ++ v)) := by
      have within : u = [] ∧ v = [] ∨ '>' ∈ y ++ b :=
        inside.imp id fun bracket => List.mem_append_right y bracket
      rw [← List.append_assoc, ← endTagStands_tails letters within, List.append_assoc]
      exact first x y split some
    rw [readRaw_eq parts' stands' first', if_neg empty]
    obtain ⟨token, beside⟩ := h.readText parts
    exact ⟨token, rfl, beside⟩

end Cursor

end ComponentLoader.Markup
