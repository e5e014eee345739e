import ComponentLoader.Template.Node
import ComponentLoader.Text.Quoted

/-!
A tree as indented lines for people to read.
-/
namespace ComponentLoader.Template

mutual

def Expr.outline : Expr → String
  | .string value => Text.quote value
  | .bool value => if value then "true" else "false"
  | .interpolation expr filters =>
    "\x7b\x7b " ++ expr ++ String.join (filters.map (" | " ++ ·)) ++ " \x7d\x7d"
  | .text segments => String.intercalate " + " (Expr.outlines segments)
  | .raw code => "`" ++ code ++ "`"

def Expr.outlines : List Expr → List String
  | [] => []
  | expr :: rest => expr.outline :: Expr.outlines rest

end

def indent (level : Nat) : String := String.ofList (List.replicate (2 * level) ' ')

def Property.outline (p : Property) : String :=
  "prop " ++ p.name ++ (if p.merged then " (x)" else "") ++ " = " ++ p.expr.outline

def Event.outline (e : Event) : String :=
  "on-" ++ e.name ++ String.join (e.modifiers.map (":" ++ ·)) ++ " = " ++ e.expr.outline

def Directive.outline (name : String) (d : Directive) : String :=
  let value := (d.value.map (" = " ++ ·.outline)).getD ""
  let parts := [("item", d.item), ("index", d.index), ("trackBy", d.trackBy)].filterMap
    fun (label, part) => part.map (label ++ ": " ++ ·)
  let parts := if parts.isEmpty then "" else " (" ++ String.intercalate ", " parts ++ ")"
  "s-" ++ name ++ value ++ parts

mutual

/-- The lines of a node at a level. Of a text only the expression shows. -/
def Node.lines (level : Nat) : Node → List String
  | ⟨tag, text, properties, events, directives, children⟩ =>
    match text with
    | some expr => [indent level ++ "Text " ++ expr.outline]
    | none =>
      (indent level ++ "Element `" ++ tag.getD "<root>" ++ "`") ::
        (properties.map Property.outline ++ events.map Event.outline ++
          directives.entries.map (fun (name, d) => Directive.outline name d)).map
            (indent (level + 1) ++ ·) ++
        Node.linesOfAll (level + 1) children

def Node.linesOfAll (level : Nat) : List Node → List String
  | [] => []
  | n :: rest => n.lines level ++ Node.linesOfAll level rest

end

def Node.outline (n : Node) (level : Nat) : String := String.intercalate "\n" (n.lines level)

end ComponentLoader.Template
