/-!
Sets of characters given by ranges of code points, the form in which the tables of character
properties are kept.
-/
namespace ComponentLoader.Text

/-- A set of characters as ascending ranges of code points, both ends included. -/
abbrev Ranges := List (Nat × Nat)

def Ranges.contains (ranges : Ranges) (c : Char) : Bool :=
  ranges.any fun (low, high) => low ≤ c.toNat && c.toNat ≤ high

end ComponentLoader.Text
