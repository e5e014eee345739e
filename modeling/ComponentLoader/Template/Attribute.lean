import ComponentLoader.Template.Text
import ComponentLoader.Text.Alphanumeric

/-!
What the attributes of an element mean: directives, event handlers and properties.
-/
namespace ComponentLoader.Template

open Markup (Attribute Delimiters Fault FaultKind Tag)

/-- What the name of an attribute makes of it. -/
inductive Role where
  | directive (name : String)
  | event (name : String)
  | property
deriving DecidableEq, Repr

/-- A name that begins with `s-` is that of a directive, one that begins with `on-` that of an
event. -/
def Role.ofName (name : String) : Role :=
  match Text.stripStart "s-".toList name.toList with
  | some rest => .directive (String.ofList rest)
  | none =>
    match Text.stripStart "on-".toList name.toList with
    | some rest => .event (String.ofList rest)
    | none => .property

def isIdentifier (s : List Char) : Bool :=
  !s.isEmpty && !s.head?.any Char.isDigit &&
    s.all fun c => c == '$' || c == '_' || Text.isAlphanumeric c

/-- Reads a loop: `item in list`, with an index after the item and a key after the list. -/
def Directive.ofLoop? (value : List Char) : Option Directive := do
  let (names, source) ← Text.splitOnce " in ".toList value
  let (list, trackBy) :=
    match Text.splitOnce " trackBy ".toList source with
    | some (list, key) => (Text.trim list, some (Text.trim key))
    | none => (Text.trim source, none)
  let (item, index) :=
    match Text.splitOnce [','] names with
    | some (item, index) => (Text.trim item, some (Text.trim index))
    | none => (Text.trim names, none)
  guard (isIdentifier item && index.all isIdentifier && !list.isEmpty)
  return {
    value := some (.raw (String.ofList list))
    item := some (String.ofList item)
    index := index.map String.ofList
    trackBy := trackBy.map String.ofList }

/-- Reads a directive. A loop must be well formed and a condition must be there. -/
def Directive.read (name : String) (value : Option String) : Except FaultKind Directive :=
  let value := (value.map fun v => Text.trim v.toList).filter (!·.isEmpty)
  if name = "for" then
    match value with
    | none => .error .forNoExpression
    | some v => ((Directive.ofLoop? v).map .ok).getD (.error .forMalformedExpression)
  else if (name = "if" ∨ name = "elif") ∧ value = none then .error .ifNoExpression
  else .ok { value := value.map fun v => .raw (String.ofList v) }

/-- The words that may stand before the code of an event, each with a colon. -/
def eventModifiers : List String := ["native", "capture"]

/-- Reads an event handler. Each modifier is looked for once, in order. -/
def Event.read (name : String) (value : Option String) : Event :=
  let (modifiers, code) := eventModifiers.foldl
    (fun (taken, code) modifier =>
      match Text.stripStart (modifier.toList ++ [':']) code with
      | some rest => (taken ++ [modifier], Text.trimStart rest)
      | none => (taken, code))
    ([], Text.trim (value.getD "").toList)
  { name, expr := .raw (String.ofList code), modifiers }

/-- Reads a property. One without a value is true. -/
def Property.read (d : Delimiters) (name : String) (value : Option String) : Property :=
  { name, expr := (value.map (Expr.ofText d)).getD (.bool true) }

/-- The element of a start tag, without children. A directive at fault says nothing. -/
def Node.ofTag (d : Delimiters) (tag : Tag) : Node where
  tag := some tag.name
  properties := tag.attributes.filterMap fun a =>
    match Role.ofName a.name with
    | .property => some (.read d a.name a.value)
    | _ => none
  events := tag.attributes.filterMap fun a =>
    match Role.ofName a.name with
    | .event name => some (.read name a.value)
    | _ => none
  directives := .ofList <| tag.attributes.filterMap fun a =>
    match Role.ofName a.name with
    | .directive name => some (name, (Directive.read name a.value).toOption.getD {})
    | _ => none

def directiveFaults (tag : Tag) : List Fault :=
  tag.attributes.filterMap fun a =>
    match Role.ofName a.name with
    | .directive name =>
      match Directive.read name a.value with
      | .error kind => some { kind, span := a.span }
      | .ok _ => none
    | _ => none

end ComponentLoader.Template
