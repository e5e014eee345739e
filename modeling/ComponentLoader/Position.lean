import ComponentLoader.Text.Basic

/-!
Places in a text and the stretches between them.
-/
namespace ComponentLoader

/-- A place in a text: its offset in bytes, its line and its column in characters, the last two
counted from 1. -/
structure Position where
  offset : Nat
  line : Nat
  column : Nat
deriving DecidableEq, Repr

namespace Position

def start : Position := ⟨0, 1, 1⟩

instance : Inhabited Position := ⟨start⟩

def step (p : Position) (c : Char) : Position :=
  if c = '\n' then ⟨p.offset + c.utf8Size, p.line + 1, 1⟩
  else ⟨p.offset + c.utf8Size, p.line, p.column + 1⟩

def advance (p : Position) (s : List Char) : Position := s.foldl step p

@[simp] theorem advance_nil (p : Position) : p.advance [] = p := rfl

@[simp] theorem advance_cons (p : Position) (c : Char) (s : List Char) :
    p.advance (c :: s) = (p.step c).advance s := rfl

@[simp] theorem advance_append (p : Position) (s t : List Char) :
    p.advance (s ++ t) = (p.advance s).advance t := List.foldl_append

theorem offset_advance (p : Position) (s : List Char) :
    (p.advance s).offset = p.offset + Text.utf8Length s := by
  induction s generalizing p with
  | nil => rfl
  | cons c s ih =>
    rw [advance_cons, ih]
    simp only [Text.utf8Length, step]
    split <;> simp [Nat.add_assoc]

/-- The place that `p` names in a text that itself begins at `base`. -/
def relocate (p base : Position) : Position where
  offset := p.offset + base.offset
  line := p.line + base.line - 1
  column := if p.line = 1 then p.column + base.column - 1 else p.column

end Position

/-- A stretch of text. -/
structure Span where
  start : Position
  stop : Position
deriving DecidableEq, Repr

namespace Span

instance : Inhabited Span := ⟨⟨.start, .start⟩⟩

def point (p : Position) : Span := ⟨p, p⟩

/-- Whether an offset lies in the stretch, both ends included. -/
def covers (s : Span) (offset : Nat) : Bool :=
  s.start.offset ≤ offset && offset ≤ s.stop.offset

/-- The stretch that `s` names in a text that itself begins at `base`. -/
def relocate (s : Span) (base : Position) : Span :=
  ⟨s.start.relocate base, s.stop.relocate base⟩

def text (s : Span) (source : String) : String :=
  Text.slice source s.start.offset s.stop.offset

end Span

end ComponentLoader
