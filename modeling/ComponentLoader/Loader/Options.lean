import ComponentLoader.Json.Input
import ComponentLoader.Json.Value
import ComponentLoader.Loader.Error
import ComponentLoader.Template.Tree

/-!
The options of a loader and their JSON.
-/
namespace ComponentLoader

/-- What a template is handed out as: its text, its tree, or the pack of its tree. -/
inductive Target where
  | source
  | tree
  | pack
deriving DecidableEq, Repr

namespace Target

def name : Target → String
  | source => "none"
  | tree => "aNode"
  | pack => "aPack"

def ofName? (name : String) : Option Target :=
  [source, tree, pack].find? (·.name == name)

/-- The target of a name, or the error of there being none. -/
def ofName (name : String) : Except LoadError Target :=
  match ofName? name with
  | some target => .ok target
  | none => .error (.unknownTarget name)

end Target

def Template.Trim.name : Template.Trim → String
  | .keep => "none"
  | .blank => "blank"
  | .all => "all"

def Template.Trim.ofName? (name : String) : Option Template.Trim :=
  [Template.Trim.keep, .blank, .all].find? (·.name == name)

/-- The options that hold for everything a loader does. -/
structure LoaderOptions where
  target : Target := .source
  /-- Whether modules use import and export. -/
  esModule : Bool := false
  addScript : Bool := true
  /-- Whether the root of a compiled template is given the properties it lacks. -/
  fillRoot : Bool := true
  trim : Template.Trim := .keep
  delimiters : Markup.Delimiters := {}
  sourceMap : Bool := false
  /-- The module that puts script, template and styles together. -/
  normalizePath : String := "san-loader/runtime/normalize"
deriving DecidableEq, Repr

namespace LoaderOptions

def fieldNames : List String :=
  ["compileTemplate", "esModule", "autoAddScriptTag", "autoFillStyleAndId", "trimWhitespace",
   "delimiters", "sourceMap", "normalizePath"]

/-- The option in a field: the default where the field is missing. -/
def option (default : α) (read : Json.Input → Option α) : Option Json.Input → Option α
  | none => some default
  | some value => read value

def delimiters? : Json.Input → Option Markup.Delimiters
  | .array [opening, closing] => do return ⟨← opening.string?, ← closing.string?⟩
  | _ => none

def ofInput? (input : Json.Input) : Option LoaderOptions := do
  let defaults : LoaderOptions := {}
  match ← input.fields? fieldNames true with
  | [target, esModule, addScript, fillRoot, trim, delimiters, sourceMap, normalizePath] =>
    return {
      target := ← option defaults.target (·.name?.bind Target.ofName?) target
      esModule := ← option defaults.esModule (·.bool?) esModule
      addScript := ← option defaults.addScript (·.bool?) addScript
      fillRoot := ← option defaults.fillRoot (·.bool?) fillRoot
      trim := ← option defaults.trim (·.name?.bind Template.Trim.ofName?) trim
      delimiters := ← option defaults.delimiters delimiters? delimiters
      sourceMap := ← option defaults.sourceMap (·.bool?) sourceMap
      normalizePath := ← option defaults.normalizePath (·.string?) normalizePath }
  | _ => none

/-- Reads options. Neither delimiter may be empty. -/
def parse (text : String) : Except LoadError LoaderOptions := do
  let some options := (Json.Input.parse text).bind ofInput? | throw .unreadableOptions
  if options.delimiters.opening = "" ∨ options.delimiters.closing = "" then throw .emptyDelimiters
  return options

def toJson (o : LoaderOptions) : Json :=
  .object (fieldNames.zip [.string o.target.name, .bool o.esModule, .bool o.addScript,
    .bool o.fillRoot, .string o.trim.name,
    .array [.string o.delimiters.opening, .string o.delimiters.closing], .bool o.sourceMap,
    .string o.normalizePath])

def templateOptions (o : LoaderOptions) : Template.Options := ⟨o.trim, o.delimiters⟩

end LoaderOptions

end ComponentLoader
