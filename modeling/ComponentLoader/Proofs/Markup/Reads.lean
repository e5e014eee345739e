import ComponentLoader.Proofs.Markup.Tiles

/-! Reading lexeme by lexeme. A head is where reading stands: what is read next,
the place, and the text that is left. The lexemes of a text, cut anywhere, are
those that are read up to some head and those that are read from it. -/
namespace ComponentLoader.Markup

/-- Where reading stands between two lexemes. -/
structure Head where
  mode : Mode
  position : Position
  rest : List Char

namespace Head

def start (s : List Char) : Head := ⟨.data, .start, s⟩

def cursor (h : Head) : Cursor := ⟨h.rest, h.position, [], false⟩

def lexemes (h : Head) (d : Dialect) : List Lexeme := d.lexemesFrom h.mode h.position h.rest

def lexeme (h : Head) (d : Dialect) : Lexeme :=
  let read := h.cursor.read d h.mode
  ⟨read.1, ⟨h.position, read.2.2.position⟩, read.2.2.faults⟩

def next (h : Head) (d : Dialect) : Head :=
  let read := h.cursor.read d h.mode
  ⟨read.2.1, read.2.2.position, read.2.2.rest⟩

variable {d : Dialect} {h h' h'' : Head} {ls ms : List Lexeme}

theorem lexemes_cons (more : h.rest ≠ []) (d : Dialect) :
    h.lexemes d = h.lexeme d :: (h.next d).lexemes d := by
  rw [lexemes, Dialect.lexemesFrom, dif_pos (List.length_pos_iff.mpr more)]
  rfl

theorem lexemes_nil (done : h.rest = []) (d : Dialect) : h.lexemes d = [] := by
  rw [lexemes, Dialect.lexemesFrom, dif_neg (by simp [done])]

theorem rest_of_lexemes_nil (none : h.lexemes d = []) : h.rest = [] := by
  by_cases more : h.rest = []
  · exact more
  · rw [lexemes_cons more] at none
    cases none

theorem yields (more : h.rest ≠ []) (d : Dialect) :
    h.cursor.Yields (h.lexeme d).token (h.cursor.read d h.mode).2.2 :=
  Cursor.yields_read d h.mode more

theorem lexeme_stop (h : Head) (d : Dialect) : (h.lexeme d).span.stop = (h.next d).position := rfl

/-- A lexeme takes a text that is not empty. -/
theorem exists_text (more : h.rest ≠ []) (d : Dialect) :
    ∃ s, s ≠ [] ∧ h.rest = s ++ (h.next d).rest ∧
      (h.next d).position = h.position.advance s := by
  obtain ⟨s, parts, stop⟩ := (yields more d).reaches.text
  refine ⟨s, ?_, parts, stop⟩
  rintro rfl
  have shorter : (h.next d).rest.length < h.rest.length :=
    Cursor.length_read_lt (c := h.cursor) d h.mode (List.length_pos_iff.mpr more)
  have same : h.rest = (h.next d).rest := parts
  rw [same] at shorter
  exact Nat.lt_irrefl _ shorter

end Head

inductive Reads (d : Dialect) : Head → List Lexeme → Head → Prop
  | here (h : Head) : Reads d h [] h
  | next {h h' : Head} {ls : List Lexeme} (more : h.rest ≠ []) (tail : Reads d (h.next d) ls h') :
      Reads d h (h.lexeme d :: ls) h'

namespace Reads

variable {d : Dialect} {h h' h'' : Head} {ls ms : List Lexeme}

theorem append (first : Reads d h ls h') (last : Reads d h' ms h'') :
    Reads d h (ls ++ ms) h'' := by
  induction first with
  | here h => exact last
  | next more tail ih => exact .next more (ih last)

theorem lexemes_eq (read : Reads d h ls h') : h.lexemes d = ls ++ h'.lexemes d := by
  induction read with
  | here h => rfl
  | next more tail ih => rw [Head.lexemes_cons more, ih, List.cons_append]

theorem single {l : Lexeme} (read : Reads d h [l] h') :
    h.rest ≠ [] ∧ l = h.lexeme d ∧ h' = h.next d := by
  cases read with
  | next more tail =>
    cases tail
    exact ⟨more, rfl, rfl⟩

theorem split (read : Reads d h (ls ++ ms) h'') :
    ∃ h', Reads d h ls h' ∧ Reads d h' ms h'' := by
  induction ls generalizing h with
  | nil => exact ⟨h, .here h, read⟩
  | cons l ls ih =>
    cases read with
    | next more tail =>
      obtain ⟨h', first, last⟩ := ih tail
      exact ⟨h', .next more first, last⟩

/-- Wherever the lexemes are cut, reading stands at a head. -/
theorem of_lexemes (cut : h.lexemes d = ls ++ ms) :
    ∃ h', Reads d h ls h' ∧ h'.lexemes d = ms := by
  induction ls generalizing h with
  | nil => exact ⟨h, .here h, cut⟩
  | cons l ls ih =>
    by_cases more : h.rest = []
    · rw [Head.lexemes_nil more] at cut
      cases cut
    · rw [Head.lexemes_cons more] at cut
      obtain ⟨rfl, later⟩ := List.cons.inj cut
      obtain ⟨h', read, rest⟩ := ih later
      exact ⟨h', .next more read, rest⟩

/-- The lexemes take the text between the heads. -/
theorem exists_text (read : Reads d h ls h') :
    ∃ s, h.rest = s ++ h'.rest ∧ h'.position = h.position.advance s := by
  induction read with
  | here h => exact ⟨[], rfl, rfl⟩
  | next more tail ih =>
    obtain ⟨s, -, parts, stop⟩ := Head.exists_text more d
    obtain ⟨t, parts', stop'⟩ := ih
    refine ⟨s ++ t, ?_, ?_⟩
    · rw [parts, parts', List.append_assoc]
    · rw [stop', stop, Position.advance_append]

/-- From the beginning of a text, a head is at the place where the text that is left begins. -/
theorem exists_before {s : List Char} (read : Reads d (.start s) ls h) :
    ∃ before, s = before ++ h.rest ∧ h.position = Position.start.advance before :=
  read.exists_text

end Reads

/-- A lexeme of a text is read at some head, and what follows it is read on from there. -/
theorem exists_head {d : Dialect} {source : String} {before rest : List Lexeme} {l : Lexeme}
    (cut : d.lexemes source = before ++ l :: rest) :
    ∃ h, Reads d (.start source.toList) before h ∧ h.rest ≠ [] ∧ h.lexeme d = l ∧
      (h.next d).lexemes d = rest := by
  obtain ⟨h, read, further⟩ := Reads.of_lexemes (h := .start source.toList) cut
  by_cases more : h.rest = []
  · rw [Head.lexemes_nil more] at further
    cases further
  · rw [Head.lexemes_cons more] at further
    obtain ⟨own, later⟩ := List.cons.inj further
    exact ⟨h, read, more, own, later⟩

end ComponentLoader.Markup
