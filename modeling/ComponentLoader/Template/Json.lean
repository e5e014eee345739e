import ComponentLoader.Template.Node
import ComponentLoader.Json.Value

/-!
A tree as JSON. Members that are absent, empty or false are left out, the filters of an
interpolation excepted.
-/
namespace ComponentLoader.Template

/-- Texts as JSON. -/
def jsonStrings (ss : List String) : Json := .array (ss.map .string)

/-- A member that is left out where it is absent. -/
def jsonOptional (key : String) (value : Option Json) : List (String × Json) :=
  (value.map fun v => (key, v)).toList

/-- An array that is left out where it is empty. -/
def jsonList (key : String) (items : List Json) : List (String × Json) :=
  if items.isEmpty then [] else [(key, .array items)]

mutual

def Expr.toJson : Expr → Json
  | .string value => .object [("type", .string "string"), ("value", .string value)]
  | .bool value => .object [("type", .string "bool"), ("value", .bool value)]
  | .interpolation expr filters =>
    .object [("type", .string "interp"), ("expr", .string expr), ("filters", jsonStrings filters)]
  | .text segments =>
    .object [("type", .string "text"), ("segs", .array (Expr.allToJson segments))]
  | .raw code => .object [("type", .string "raw"), ("code", .string code)]

def Expr.allToJson : List Expr → List Json
  | [] => []
  | expr :: rest => expr.toJson :: Expr.allToJson rest

end

def Property.toJson (p : Property) : Json :=
  .object ([("name", .string p.name), ("expr", p.expr.toJson)] ++
    if p.merged then [("x", .bool true)] else [])

def Event.toJson (e : Event) : Json :=
  .object ([("name", .string e.name), ("expr", e.expr.toJson)] ++
    jsonList "modifiers" (e.modifiers.map .string))

def Directive.toJson (d : Directive) : Json :=
  .object (jsonOptional "value" (d.value.map Expr.toJson) ++
    jsonOptional "item" (d.item.map .string) ++ jsonOptional "index" (d.index.map .string) ++
    jsonOptional "trackBy" (d.trackBy.map .string))

/-- Directives as JSON, left out where there are none. -/
def Directives.toMembers (ds : Directives) : List (String × Json) :=
  if ds.entries.isEmpty then []
  else [("directives", .object (ds.entries.map fun (name, d) => (name, d.toJson)))]

mutual

def Node.toJson : Node → Json
  | ⟨tag, text, properties, events, directives, children⟩ =>
    .object (jsonOptional "tagName" (tag.map .string) ++
      jsonOptional "textExpr" (text.map Expr.toJson) ++
      jsonList "props" (properties.map Property.toJson) ++
      jsonList "events" (events.map Event.toJson) ++ directives.toMembers ++
      jsonList "children" (Node.allToJson children))

def Node.allToJson : List Node → List Json
  | [] => []
  | n :: rest => n.toJson :: Node.allToJson rest

end

end ComponentLoader.Template
