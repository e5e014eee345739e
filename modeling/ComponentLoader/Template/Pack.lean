import ComponentLoader.Template.Node
import ComponentLoader.Json.Value

/-!
A tree as one flat list. Each node is a code, its fixed fields and its lists, each after its length;
what is absent is written as nothing.

* an element: `1, tag, #properties, .., #events, .., #directives, .., #children, ..`
* a text: `2, expr`
* a property: `name, merged, expr`
* an event: `name, #modifiers, modifiers .., expr`
* a directive: `name, expr, item, index, trackBy`
* an expression: `3, value`, `4, expr, #filters, filters ..`, `5, #segments, segments ..`,
  `6, code` or `7, 0` or `7, 1`
-/
namespace ComponentLoader.Template

/-- An item of a pack. -/
inductive PackItem where
  | number (value : Nat)
  | string (value : String)
  | null
deriving DecidableEq, Repr

/-- A packed tree. -/
abbrev Pack := List PackItem

namespace Pack

def ofOption : Option String → PackItem
  | some s => .string s
  | none => .null

def strings (ss : List String) : Pack := .number ss.length :: ss.map .string

end Pack

open Pack (strings)

mutual

def Expr.pack : Expr → Pack
  | .string value => [.number 3, .string value]
  | .interpolation expr filters => .number 4 :: .string expr :: strings filters
  | .text segments => .number 5 :: .number segments.length :: Expr.packAll segments
  | .raw code => [.number 6, .string code]
  | .bool value => [.number 7, .number value.toNat]

def Expr.packAll : List Expr → Pack
  | [] => []
  | expr :: rest => expr.pack ++ Expr.packAll rest

end

def Property.pack (p : Property) : Pack :=
  .string p.name :: .number p.merged.toNat :: p.expr.pack

def Event.pack (e : Event) : Pack :=
  .string e.name :: strings e.modifiers ++ e.expr.pack

def Directive.pack (name : String) (d : Directive) : Pack :=
  .string name :: (d.value.map Expr.pack).getD [.null] ++
    [d.item, d.index, d.trackBy].map Pack.ofOption

mutual

/-- The items of a node. Of a text only the expression is kept. -/
def Node.pack : Node → Pack
  | ⟨tag, text, properties, events, directives, children⟩ =>
    match text with
    | some expr => .number 2 :: expr.pack
    | none =>
      .number 1 :: .string (tag.getD "") ::
        .number properties.length :: properties.flatMap Property.pack ++
        .number events.length :: events.flatMap Event.pack ++
        .number directives.entries.length ::
          directives.entries.flatMap (fun (name, d) => d.pack name) ++
        .number children.length :: Node.packAll children

def Node.packAll : List Node → Pack
  | [] => []
  | n :: rest => n.pack ++ Node.packAll rest

end

def PackItem.toJson : PackItem → Json
  | .number value => .number value
  | .string value => .string value
  | .null => .null

def Pack.toJson (p : Pack) : Json := .array (p.map PackItem.toJson)

end ComponentLoader.Template
