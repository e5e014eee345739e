import ComponentLoader.Text.Space

/-!
Splitting an interpolation at its pipes. A doubled pipe is an operator, and a pipe within quotes or
brackets belongs to an argument.
-/
namespace ComponentLoader.Template.Filter

def extend (c : Char) : List (List Char) → List (List Char)
  | [] => [[c]]
  | part :: parts => (c :: part) :: parts

/-- The parts between pipes, from a place within the given quotes and number of brackets. A
backslash in quotes hides the character after it, and a bracket too many closes nothing. -/
def cut : (quote : Option Char) → (depth : Nat) → List Char → List (List Char)
  | _, _, [] => [[]]
  | some q, depth, c :: s =>
    if c = '\\' then
      match s with
      | [] => [[c]]
      | hidden :: s => extend c (extend hidden (cut (some q) depth s))
    else extend c (cut (if c = q then none else some q) depth s)
  | none, depth, c :: s =>
    if c = '"' ∨ c = '\'' ∨ c = '`' then extend c (cut (some c) depth s)
    else if c = '(' ∨ c = '[' ∨ c = '\x7b' then extend c (cut none (depth + 1) s)
    else if c = ')' ∨ c = ']' ∨ c = '\x7d' then extend c (cut none (depth - 1) s)
    else if c = '|' ∧ depth = 0 then
      match s with
      | '|' :: s => extend c (extend '|' (cut none 0 s))
      | s => [] :: cut none 0 s
    else extend c (cut none depth s)

theorem extend_ne_nil (c : Char) (parts : List (List Char)) : extend c parts ≠ [] := by
  cases parts <;> exact List.cons_ne_nil _ _

theorem cut_ne_nil (quote : Option Char) (depth : Nat) (s : List Char) :
    cut quote depth s ≠ [] := by
  fun_cases cut quote depth s
  all_goals first
    | exact List.cons_ne_nil _ _
    | exact extend_ne_nil _ _

/-- The parts of an interpolation, without the white space around them: an expression and the
filters its value passes through. Never empty. -/
def split (s : List Char) : List (List Char) := (cut none 0 s).map Text.trim

end ComponentLoader.Template.Filter
