import ComponentLoader.Component.Basic
import ComponentLoader.Request.Query
import ComponentLoader.SourceMap.Basic
import ComponentLoader.Template.Json
import ComponentLoader.Template.Pack
import ComponentLoader.Template.Root

/-!
Handing out a block: its text, a module that stands for the file that holds it, or its template
compiled ahead.
-/
namespace ComponentLoader

/-- What a block is handed out as. -/
inductive BlockCode where
  | text (content : String)
  | tree (node : Template.Node)
  | packed (pack : Template.Pack)

namespace BlockCode

/-- The text, if the block is handed out as one. -/
def text? : BlockCode → Option String
  | text content => some content
  | _ => none

/-- A module whose only export is a JSON value. -/
def jsonModule (esModule : Bool) (value : Json) : String :=
  (if esModule then "export default " else "module.exports = ") ++ value.render ++ ";\n"

/-- The module that a bundler is given. Text is given as it is. -/
def toModule (esModule : Bool) : BlockCode → String
  | text content => content
  | tree node => jsonModule esModule node.toJson
  | packed pack => jsonModule esModule pack.toJson

end BlockCode

/-- A block that is handed out, with a source map if there is one. -/
structure Extracted where
  code : BlockCode
  map : Option SourceMap

/-- What is asked for: a block of a kind, and how it is to be handed out. -/
structure Extraction where
  kind : BlockKind
  selector : BlockSelector := {}
  filename : String
  target : Target
  options : LoaderOptions

namespace Extraction

def ofKind (kind : BlockKind) (options : LoaderOptions) (filename : String) : Extraction :=
  { kind, filename, target := options.target, options }

/-- What a query asks for. Its target goes before that of the options. -/
def ofQuery (kind : BlockKind) (options : LoaderOptions) (query : Query) (filename : String) :
    Except LoadError Extraction := do
  let target := (← query.target).getD options.target
  return { kind, selector := ← query.selector, filename, target, options }

/-- The map of a block, if maps are asked for. -/
def mapOf (x : Extraction) (c : Component) (b : Block) : Option SourceMap :=
  if x.options.sourceMap then some (.ofBlock x.filename c.source b.content.start) else none

end Extraction

/-- The code that stands for a block whose content is in another file. -/
def forward (kind : BlockKind) (file : String) (esModule : Bool) : BlockCode :=
  let file := Json.quote file
  .text <|
    if kind = .style then "@import " ++ file ++ ";\n"
    else if esModule then "export \x7b default \x7d from " ++ file ++ ";\n"
    else "module.exports = require(" ++ file ++ ");\n"

/-- Compiles the content of a template. With the root's properties filled, the tree is that of the
root element; without, it is a bare root around all nodes, read with the usual options. -/
def compileTemplate (x : Extraction) (c : Component) (b : Block) :
    Except LoadError Template.Node :=
  let content := c.contentOf b
  let parsed :=
    if x.options.fillRoot then
      Template.parseComponent x.options.templateOptions true content
    else Template.parse {} content
  match parsed.checked with
  | .ok node => .ok node
  | .error fault => .error (.template (fault.relocate b.content.start))

/-- The pack of a compiled template: of the root element, or of the first node in a bare root.
Nothing without children. -/
def packTemplate (x : Extraction) (node : Template.Node) : Template.Pack :=
  match node.children with
  | [] => []
  | first :: _ => if x.options.fillRoot then node.pack else first.pack

namespace Component

/-- Hands out the text of a block; nothing if there is no such block. -/
def extractText (c : Component) (x : Extraction) : Extracted :=
  match c.select x.kind x.selector with
  | none => ⟨.text "", none⟩
  | some b =>
    match b.source? with
    | some file => ⟨forward x.kind file x.options.esModule, none⟩
    | none => ⟨.text (c.contentOf b), x.mapOf c b⟩

/-- Hands out a template. It can be compiled only if its content is in the component and in HTML,
or said to be so by the request. -/
def extractTemplate (c : Component) (x : Extraction) : Except LoadError Extracted := do
  let some b := c.select .template x.selector | throw (.noBlock .template x.selector)
  match b.source? with
  | some file =>
    if x.target = .source then return ⟨forward .template file x.options.esModule, none⟩
    else throw (.compiledSource file)
  | none =>
    if x.target = .source then return ⟨.text (c.contentOf b), x.mapOf c b⟩
    else
      let language := x.selector.language.getD b.language
      if language ≠ "html" then throw (.compiledLanguage language)
      let node ← compileTemplate x c b
      let code := if x.target = .pack then .packed (packTemplate x node) else .tree node
      return ⟨code, x.mapOf c b⟩

/-- Hands out a block. -/
def extract (c : Component) (x : Extraction) : Except LoadError Extracted :=
  if x.kind = .template then c.extractTemplate x else .ok (c.extractText x)

end Component

end ComponentLoader
