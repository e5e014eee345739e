import ComponentLoader.Markup.Token
import ComponentLoader.Text.Space

/-!
The state of reading: what is left of the text, where that begins, and the faults met so far.
Reading only ever drops characters from the front and adds faults at the end.

No text can be moved over that is not there. A move that asks for more is remembered, since it would
stop the program.
-/
namespace ComponentLoader.Markup

/-- A place within a text that is being read. -/
structure Cursor where
  rest : List Char
  position : Position
  faults : List Fault
  /-- Whether a move has asked for more than was left. -/
  overrun : Bool := false

namespace Cursor

/-- Moves over `n` characters. -/
def skip (c : Cursor) (n : Nat) : Cursor where
  rest := c.rest.drop n
  position := c.position.advance (c.rest.take n)
  faults := c.faults
  overrun := c.overrun || decide ((c.rest.take n).length < n)

/-- Moves over the next character, if there is one. -/
def skipNext (c : Cursor) : Cursor := c.skip (c.rest.take 1).length

def report (c : Cursor) (kind : FaultKind) : Cursor :=
  { c with faults := c.faults ++ [{ kind, span := .point c.position }] }

/-- Adds a fault at the present place where the condition holds. -/
def reportIf (c : Cursor) (condition : Bool) (kind : FaultKind) : Cursor :=
  if condition then c.report kind else c

/-- Moves over the characters that satisfy `p` and returns them. -/
def takeWhile (c : Cursor) (p : Char → Bool) : List Char × Cursor :=
  let s := c.rest.takeWhile p
  (s, c.skip s.length)

/-- Moves over the space of markup. -/
def skipSpace (c : Cursor) : Cursor := (c.takeWhile Text.isMarkupSpace).2

@[simp] theorem rest_skip (c : Cursor) (n : Nat) : (c.skip n).rest = c.rest.drop n := rfl

@[simp] theorem rest_skipNext (c : Cursor) : c.skipNext.rest = c.rest.drop 1 := by
  cases h : c.rest <;> simp [skipNext, h]

@[simp] theorem rest_report (c : Cursor) (kind : FaultKind) : (c.report kind).rest = c.rest := rfl

@[simp] theorem rest_reportIf (c : Cursor) (b : Bool) (kind : FaultKind) :
    (c.reportIf b kind).rest = c.rest := by
  unfold reportIf; split <;> rfl

theorem length_rest_skip_le (c : Cursor) (n : Nat) : (c.skip n).rest.length ≤ c.rest.length := by
  simp

theorem drop_length_takeWhile (p : Char → Bool) (s : List Char) :
    s.drop (s.takeWhile p).length = s.dropWhile p := by
  induction s with
  | nil => rfl
  | cons c s ih => by_cases h : p c <;> simp [h, ih]

@[simp] theorem rest_takeWhile (c : Cursor) (p : Char → Bool) :
    (c.takeWhile p).2.rest = c.rest.dropWhile p := by
  exact drop_length_takeWhile p c.rest

@[simp] theorem rest_skipSpace (c : Cursor) :
    c.skipSpace.rest = c.rest.dropWhile Text.isMarkupSpace := rest_takeWhile ..

theorem length_dropWhile_le (p : Char → Bool) (s : List Char) :
    (s.dropWhile p).length ≤ s.length :=
  (List.dropWhile_sublist p).length_le

theorem length_rest_skipSpace_le (c : Cursor) : c.skipSpace.rest.length ≤ c.rest.length := by
  rw [rest_skipSpace]
  exact length_dropWhile_le ..

end Cursor

end ComponentLoader.Markup
