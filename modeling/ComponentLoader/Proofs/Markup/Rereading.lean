import ComponentLoader.Proofs.Markup.Tails
import Mathlib.Data.List.Forall2

/-! The lexemes of a text whose tail is replaced. Those before the tail are read again
one by one, at the same places, where the text before the tail ends with a tag, or
where the tail is only cut short; and a text is read alike wherever it begins. -/
namespace ComponentLoader

/-- Two places have the same part of the text `a` between them and the places `p` and `p'`, where
it begins. -/
def Position.Moved (a : List Char) (p p' q q' : Position) : Prop :=
  ∃ s t, a = s ++ t ∧ q = p.advance s ∧ q' = p'.advance s

theorem Position.moved_start (a : List Char) (p p' : Position) : Moved a p p' p p' :=
  ⟨[], a, rfl, rfl, rfl⟩

theorem Position.Moved.later {a s b : List Char} {p p' q q' : Position} (parts : a = s ++ b)
    (h : Moved b (p.advance s) (p'.advance s) q q') : Moved a p p' q q' := by
  obtain ⟨t, r, rfl, rfl, rfl⟩ := h
  exact ⟨s ++ t, r, by rw [parts, List.append_assoc], by simp, by simp⟩

/-- The part of the text up to a place is known by its length. -/
theorem Position.Moved.eq {a s t : List Char} {p p' q q' : Position} (h : Moved a p p' q q')
    (parts : a = s ++ t) (here : q.offset = p.offset + Text.utf8Length s) : q' = p'.advance s := by
  obtain ⟨s', t', parts', rfl, rfl⟩ := h
  rw [Position.offset_advance] at here
  have same : s' = s := Text.eq_of_utf8Length_eq (parts'.symm.trans parts) (by omega)
  rw [same]

namespace Markup

namespace Lexeme

def tagFaults (l : Lexeme) : List FaultKind := (l.faults.map (·.kind)).filter (·.isTagSyntax)

/-- Two lexemes that say the same, at corresponding places of two texts. -/
structure Alike (near : Position → Position → Prop) (l l' : Lexeme) : Prop where
  token : l.token.Alike l'.token
  faults : l.tagFaults = l'.tagFaults
  start : near l.span.start l'.span.start
  stop : near l.span.stop l'.span.stop

/-- A tag before the tail `u` that is not cut off by the end of the text. -/
structure ClosedTag (u : List Char) (l : Lexeme) : Prop where
  noText : ∀ s, l.token ≠ .text s
  noComment : ∀ s, l.token ≠ .comment s
  closed : u ≠ [] ∨ .eofInTag ∉ l.tagFaults

end Lexeme

/-- What is read next: markup, or text alone in an element with a name of letters. -/
def Mode.Settled : Mode → Prop
  | .data => True
  | .raw name => Lettered name
  | .replaceable _ => False

/-- What is known of the lexemes `ls` before the tail `u` in order to put the tail `v` in its
place. -/
def Replaceable (u v : List Char) (ls : List Lexeme) : Prop :=
  u = [] ∧ v = [] ∨
    ((∃ l ∈ ls, ∃ s, l.token = .comment s) → NoCloserComes u v) ∧
      ((∀ init m, ls = init ++ [m] → m.ClosedTag u) ∨ u ≠ [] ∧ (∀ t, u ≠ '<' :: '/' :: t) ∧ v <+: u)

variable {u v : List Char} {h h₁ : Head} {l : Lexeme} {ls : List Lexeme}

theorem Replaceable.tail (given : Replaceable u v (l :: ls)) : Replaceable u v ls := by
  rcases given with empty | ⟨quiet, ends⟩
  · exact .inl empty
  · refine .inr ⟨?_, ends.imp ?_ id⟩
    · rintro ⟨k, listed, comment⟩
      exact quiet ⟨k, List.mem_cons_of_mem l listed, comment⟩
    · intro closed init m parts
      exact closed (l :: init) m (by rw [parts]; rfl)

theorem Reads.exists_text_ne_nil {d : Dialect} {h' : Head} (read : Reads d h (l :: ls) h') :
    ∃ s, s ≠ [] ∧ h.rest = s ++ h'.rest := by
  cases read with
  | next more tail =>
    obtain ⟨s, some, parts, -⟩ := Head.exists_text more d
    obtain ⟨t, parts', -⟩ := tail.exists_text
    exact ⟨s ++ t, List.append_ne_nil_of_left_ne_nil some t,
      by rw [parts, parts', List.append_assoc]⟩

/-- What comes after a lexeme is the same with either tail, or the lexeme is a tag that is
closed. -/
theorem Replaceable.next {b : List Char} (given : Replaceable u v (l :: ls)) {h' : Head}
    (tail : Reads .component h' ls h₁) (left : h₁.rest = u) (parts : h'.rest = b ++ u) :
    u = [] ∧ v = [] ∨ l.ClosedTag u ∨
      b ++ u ≠ [] ∧ (b ++ v = [] ∨ (b ++ v).head? = (b ++ u).head?) := by
  rcases given with empty | ⟨-, ends⟩
  · exact .inl empty
  · right
    cases ls with
    | nil =>
      cases tail
      obtain rfl : b = [] := by
        rw [left] at parts
        exact List.self_eq_append_left.mp parts
      rcases ends with closed | ⟨some, -, pre⟩
      · exact .inl (closed [] l rfl)
      · refine .inr ⟨some, ?_⟩
        obtain ⟨r, rfl⟩ := pre
        cases v with
        | nil => exact .inl rfl
        | cons c v => exact .inr rfl
    | cons k ls =>
      obtain ⟨s, some, whole⟩ := tail.exists_text_ne_nil
      rw [left, parts] at whole
      obtain rfl := List.append_cancel_right whole
      obtain ⟨c, b, rfl⟩ := List.exists_cons_of_ne_nil some
      exact .inr ⟨List.cons_ne_nil _ _, .inr rfl⟩

/-- Each of the lexemes comes to an end before the tail. -/
theorem firm_of_reads (tail : Reads .component (h.next .component) ls h₁) (left : h₁.rest = u)
    (given : Replaceable u v (h.lexeme .component :: ls)) :
    Cursor.Firm u v (h.lexeme .component).token (h.cursor.read .component h.mode).2.2 := by
  obtain ⟨b, parts, -⟩ := tail.exists_text
  rw [left] at parts
  refine ⟨b, parts, ?_⟩
  rcases given.next tail left parts with empty | ⟨noText, noComment, ended⟩ | ⟨more, same⟩
  · exact .inl empty
  · right
    cases token : (h.lexeme .component).token with
    | text s => exact absurd token (noText s)
    | comment s => exact absurd token (noComment s)
    | startTag tag => exact ended.imp (List.append_ne_nil_of_right_ne_nil b) id
    | endTag name => exact ended.imp (List.append_ne_nil_of_right_ne_nil b) id
    | interpolation s => exact ended.imp (List.append_ne_nil_of_right_ne_nil b) id
  · rcases given with empty | ⟨quiet, -⟩
    · exact .inl empty
    · right
      cases token : (h.lexeme .component).token with
      | text s => exact same
      | comment s => exact ⟨more, quiet ⟨_, List.mem_cons_self, s, token⟩⟩
      | startTag tag => exact .inl more
      | endTag name => exact .inl more
      | interpolation s => exact .inl more

/-- Where an end tag stands that is read before the tail, its bracket is before the tail. -/
theorem ahead_of_endTag {name : String} (letters : Lettered name) (mode : h.mode = .data)
    (stands : EndTagStands name h.rest) (more : h.rest ≠ [])
    (tail : Reads .component (h.next .component) ls h₁) (left : h₁.rest = u)
    (given : Replaceable u v (h.lexeme .component :: ls)) : Ahead u v h.rest := by
  have read : h.cursor.read .component h.mode =
      (h.cursor.readEndTag.1, .data, h.cursor.readEndTag.2) := by
    rw [mode]
    exact Cursor.readData_eq_endTag (by decide) letters stands
  have token : (h.lexeme .component).token = h.cursor.readEndTag.1 := by rw [Head.lexeme, read]
  have firm := firm_of_reads tail left given
  rw [token, read] at firm
  obtain ⟨a, parts, -⟩ := (Reads.next more tail).exists_text
  rw [left] at parts
  have length : 2 ≤ h.rest.length := by
    obtain ⟨n, rest, front, -⟩ := stands
    simp [front]
  have beside : Cursor.Beside u v h.cursor ⟨a ++ v, h.position, [], false⟩ :=
    ⟨⟨a, parts, rfl⟩, rfl⟩
  exact (beside.readEndTag length firm).1

/-- Text alone ends before a bracket. -/
theorem ahead_of_text {name : String} (letters : Lettered name) (raw : h.mode = .raw name)
    {s : String} (more : h.rest ≠ []) (text : (h.lexeme .component).token = .text s)
    (tail : Reads .component (h.next .component) ls h₁) (left : h₁.rest = u)
    (given : Replaceable u v (h.lexeme .component :: ls)) :
    Ahead u v (h.next .component).rest := by
  obtain ⟨body, stop, parts, stands, -, readRaw⟩ := Cursor.readRaw_cases h.cursor name
  have read : h.cursor.read .component h.mode = h.cursor.readRaw .component name := by
    rw [raw, Cursor.read]
  have token : (h.lexeme .component).token = (h.cursor.readRaw .component name).1 := by
    rw [Head.lexeme, read]
  by_cases empty : body = []
  · subst empty
    obtain rfl : h.rest = stop := parts
    rw [if_pos rfl] at readRaw
    obtain ⟨n, ending, -⟩ := Cursor.readData_endTag (c := h.cursor) (d := .component) (by decide)
      letters (stands.resolve_left more)
    rw [token, readRaw, ending] at text
    cases text
  · rw [if_neg empty] at readRaw
    have rest : (h.next .component).rest = stop := by
      rw [Head.next, read, readRaw, Cursor.readText, Cursor.rest_skip, parts, List.drop_left]
    have mode : (h.next .component).mode = .data := by rw [Head.next, read, readRaw]
    obtain ⟨b, parts', -⟩ := tail.exists_text
    rw [left] at parts'
    rcases given.next tail left parts' with none | closed | ⟨some, -⟩
    · exact ⟨b, parts', .inl none⟩
    · exact absurd text (closed.noText s)
    · have here : EndTagStands name (h.next .component).rest := by
        rw [rest]
        rw [← parts', rest] at some
        exact stands.resolve_left some
      cases tail with
      | next more' tail =>
        exact ahead_of_endTag letters mode here more' tail left given.tail
      | here =>
        -- Nothing is read of the end tag, so the tail begins with it.
        rcases given with none | ⟨-, closed | ⟨-, noEndTag, -⟩⟩
        · exact ⟨b, parts', .inl none⟩
        · exact absurd text ((closed [] _ rfl).noText s)
        · obtain ⟨n, r, front, -⟩ := here
          rw [left] at front
          exact absurd front (noEndTag _)

theorem Cursor.mode_readMarkup (d : Dialect) (c : Cursor) :
    (c.readMarkup d).2.1 = .data ∨ ∃ tag, (c.readMarkup d).1 = .startTag tag := by
  unfold readMarkup
  split
  · exact .inl rfl
  · exact .inl rfl
  · exact .inl rfl
  · split
    · exact .inr ⟨_, rfl⟩
    · exact .inl rfl
  · exact .inl rfl

theorem Cursor.mode_readData (d : Dialect) (c : Cursor) :
    (c.readData d).2.1 = .data ∨ ∃ tag, (c.readData d).1 = .startTag tag := by
  unfold readData
  dsimp only
  split
  · exact .inl rfl
  · split
    · exact .inl rfl
    · split
      · exact mode_readMarkup d c
      · exact .inl rfl

theorem settled_modeAfter (tag : Tag) : (Dialect.component.modeAfter tag).Settled := by
  unfold Dialect.modeAfter
  split
  · trivial
  · by_cases raw : tag.name = "script" ∨ tag.name = "style"
    · simp only [Dialect.component, raw, if_true]
      exact lettered_of_raw raw
    · simp only [Dialect.component, raw, if_false]
      trivial

/-- Only a start tag can change what is read next. -/
theorem mode_next (settled : h.mode.Settled) :
    (h.next .component).mode = .data ∨ ∃ tag, (h.lexeme .component).token = .startTag tag := by
  cases same : h.mode with
  | data =>
    simp only [Head.next, Head.lexeme, same]
    exact Cursor.mode_readData .component h.cursor
  | raw name =>
    simp only [Head.next, Head.lexeme, same, Cursor.read, Cursor.readRaw]
    split
    · exact Cursor.mode_readData .component h.cursor
    · exact .inl rfl
  | replaceable name =>
    rw [same] at settled
    exact absurd settled id

/-- What is read next is settled again. -/
theorem settled_next (settled : h.mode.Settled) : (h.next .component).mode.Settled := by
  rcases mode_next settled with data | ⟨tag, token⟩
  · rw [data]
    trivial
  · rw [Head.mode_after token]
    exact settled_modeAfter tag

theorem Reads.settled (read : Reads .component h ls h₁) (settled : h.mode.Settled) :
    h₁.mode.Settled := by
  induction read with
  | here h => exact settled
  | next more tail ih => exact ih (settled_next settled)

/-- The lexemes before the tail are read again when the tail is replaced, and reading stands where
the other tail begins. -/
theorem Reads.reread {a : List Char} (read : Reads .component h ls h₁) (left : h₁.rest = u)
    (given : Replaceable u v ls) (settled : h.mode.Settled) (parts : h.rest = a ++ u) (h' : Head)
    (parts' : h'.rest = a ++ v) (mode : h'.mode = h.mode) :
    ∃ ls' h₁', Reads .component h' ls' h₁' ∧ h₁'.rest = v ∧ h₁'.mode = h₁.mode ∧
      h₁'.position = h'.position.advance a ∧
      List.Forall₂ (Lexeme.Alike (Position.Moved a h.position h'.position)) ls ls' := by
  induction read generalizing a h' with
  | here h =>
    obtain rfl : a = [] := by
      rw [left] at parts
      exact List.self_eq_append_left.mp parts
    exact ⟨[], h', .here h', parts', mode, rfl, .nil⟩
  | @next h h₁ ls more tail ih =>
    have firm := firm_of_reads tail left given
    have beside : Cursor.Beside u v h.cursor h'.cursor := ⟨⟨a, parts, parts'⟩, rfl⟩
    have agree : Cursor.Agree u v (h.cursor.read .component h.mode)
        (h'.cursor.read .component h'.mode) := by
      rw [mode]
      cases same : h.mode with
      | data =>
        rw [Head.lexeme, same] at firm
        exact beside.readData more firm
      | raw name =>
        have letters : Lettered name := by rwa [same] at settled
        have closing := fun s text => ahead_of_text (s := s) letters same more text tail left given
        rw [Head.lexeme, same] at firm
        simp only [Head.lexeme, Head.next, same] at closing
        exact beside.readRaw letters more firm closing
      | replaceable name =>
        rw [same] at settled
        exact absurd settled id
    obtain ⟨b, rest, rest'⟩ := agree.beside.rest
    have rest : (h.next .component).rest = b ++ u := rest
    have rest' : (h'.next .component).rest = b ++ v := rest'
    obtain ⟨s, some, taken, place⟩ := Head.exists_text more .component
    have whole : a = s ++ b := by
      rw [parts, rest, ← List.append_assoc] at taken
      exact List.append_cancel_right taken
    have more' : h'.rest ≠ [] := by
      rw [parts', whole]
      simp [some]
    obtain ⟨s', -, taken', place'⟩ := Head.exists_text more' .component
    obtain rfl : s' = s := by
      rw [parts', rest', whole, List.append_assoc] at taken'
      exact (List.append_cancel_right taken').symm
    obtain ⟨ls', h₁', read', left', mode', stop', alike⟩ :=
      ih left given.tail (settled_next settled) rest _ rest' agree.mode.symm
    refine ⟨_, h₁', .next more' read', left', mode', ?_, .cons ?_ ?_⟩
    · rw [stop', place', whole, Position.advance_append]
    · refine ⟨agree.token, agree.beside.faults, Position.moved_start _ _ _, ?_⟩
      exact ⟨s', b, whole, place, place'⟩
    · refine alike.imp ?_
      rintro k k' ⟨token, faults, start, stop⟩
      rw [place, place'] at start stop
      exact ⟨token, faults, start.later whole, stop.later whole⟩

end Markup

end ComponentLoader
