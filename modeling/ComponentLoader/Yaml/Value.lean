import ComponentLoader.Yaml.Scalar

/-!
YAML documents in block style.
-/
namespace ComponentLoader

/-- A YAML value. The items of a sequence are records, and so is a whole document. -/
inductive Yaml where
  | null
  | bool (value : Bool)
  | number (value : Nat)
  | string (value : String)
  | sequence (items : List (List (String × Yaml)))
  | record (fields : List (String × Yaml))
deriving Inhabited

namespace Yaml

def indentation (indent : Nat) : String := String.ofList (spaces indent)

mutual

/-- What follows the colon after a key that stands in the given column. Sequences are not indented
below their key. -/
def renderValue (indent : Nat) : Yaml → String
  | null => " null\n"
  | bool value => if value then " true\n" else " false\n"
  | number value => " " ++ value.repr ++ "\n"
  | string value => " " ++ scalar (indent + 2) value
  | sequence [] => " []\n"
  | sequence (item :: items) => "\n" ++ renderItems indent (item :: items)
  | record [] => " \x7b\x7d\n"
  | record (field :: fields) =>
    "\n" ++ indentation (indent + 2) ++ renderFields (indent + 2) (field :: fields)

def renderFields (indent : Nat) : List (String × Yaml) → String
  | [] => ""
  | [(key, value)] => key ++ ":" ++ renderValue indent value
  | (key, value) :: fields =>
    key ++ ":" ++ renderValue indent value ++ indentation indent ++ renderFields indent fields

def renderItems (indent : Nat) : List (List (String × Yaml)) → String
  | [] => ""
  | item :: items =>
    indentation indent ++ "- " ++ renderFields (indent + 2) item ++ renderItems indent items

end

def document (fields : List (String × Yaml)) : String := renderFields 0 fields

end Yaml

end ComponentLoader
