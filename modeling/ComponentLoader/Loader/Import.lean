import ComponentLoader.Component.Basic
import ComponentLoader.Request.Query

/-!
The statements with which the entry module of a component takes in its blocks, and the requests that
they make.
-/
namespace ComponentLoader

/-- A piece of the entry module, and the requests in it. -/
structure Snippet where
  code : String
  requests : List String := []
deriving DecidableEq, Repr

def importStatement (esModule : Bool) (binding request : String) : String :=
  if esModule then "import " ++ binding ++ " from " ++ Json.quote request ++ ";\n"
  else "var " ++ binding ++ " = require(" ++ Json.quote request ++ ");\n"

namespace Block

def declaredTarget? (b : Block) : Option String :=
  (b.value? "compileTemplate").or (b.value? "compile-template")

/-- The target of a template: the one that it names, or else that of the options. -/
def targetIn (b : Block) (o : LoaderOptions) : Except LoadError Target :=
  match b.declaredTarget? with
  | some name => Target.ofName name
  | none => .ok o.target

/-- Whether a template is taken in by a request: it is not, if it is text in HTML. -/
def isDeferred (b : Block) (target : Target) : Bool :=
  b.source?.isSome || b.language != BlockKind.template.defaultLanguage || target != .source

/-- The query for a template. It names the target, unless that is the text. -/
def templateQuery (b : Block) (target : Target) : BlockQuery :=
  let query := (BlockQuery.ofBlock .template 0).param "lang" b.language
  let query := if target = .source then query else query.param "compileTemplate" target.name
  query.src b.source?

/-- The query for the style at an index. -/
def styleQuery (b : Block) (index : Nat) : BlockQuery :=
  let query := (BlockQuery.ofBlock .style index).param "lang" b.language
  let query := if b.isScoped then query.flag "scoped" else query
  let query := match b.moduleName? with
    | some name => query.param "module" name
    | none => query
  query.src b.source?

def scriptQuery (b : Block) : BlockQuery :=
  ((BlockQuery.ofBlock .script 0).param "lang" b.language).src b.source?

end Block

namespace Component

/-- Takes in the template: as a literal if it is text in HTML, and by a request otherwise. -/
def importTemplate (c : Component) (o : LoaderOptions) : Except LoadError Snippet :=
  match c.template? with
  | none => .ok ⟨"var template = null;\n", []⟩
  | some b => do
    let target ← b.targetIn o
    if b.isDeferred target then
      let request := (b.templateQuery target).request c.filename
      return ⟨importStatement o.esModule "template" request, [request]⟩
    else return ⟨"var template = " ++ Json.quote (c.contentOf b) ++ ";\n", []⟩

/-- The request for the style at an index. -/
def styleRequest (c : Component) (b : Block) (index : Nat) : String :=
  (b.styleQuery index).request c.filename

def styleBinding (index : Nat) : String := s!"style{index}"

/-- The statement that hands out the classes of a style, if it has a name for them. -/
def moduleStatement (b : Block) (index : Nat) : String :=
  match b.moduleName? with
  | some name => "    this[" ++ Json.quote name ++ "] = " ++ styleBinding index ++ ";\n"
  | none => ""

/-- Takes in every style by a request, and binds a function that returns them all. -/
def importStyles (c : Component) (o : LoaderOptions) : Snippet :=
  match c.styles.zipIdx with
  | [] => ⟨"var injectStyles = null;\n", []⟩
  | styles =>
    let requests := styles.map fun (b, i) => c.styleRequest b i
    let imports := styles.map fun (b, i) =>
      importStatement o.esModule (styleBinding i) (c.styleRequest b i)
    let modules := styles.map fun (b, i) => moduleStatement b i
    let bindings := styles.map fun (_, i) => styleBinding i
    ⟨String.join imports ++ "var injectStyles = function () \x7b\n" ++ String.join modules ++
      "    return [" ++ String.intercalate ", " bindings ++ "];\n\x7d;\n", requests⟩

/-- Takes in the script by a request. Where modules are objects, that of a script may hold it under
the name of the default export. -/
def importScript (c : Component) (o : LoaderOptions) : Snippet :=
  match c.script? with
  | none => ⟨"var script = \x7b\x7d;\n", []⟩
  | some b =>
    let request := b.scriptQuery.request c.filename
    let unwrap :=
      if o.esModule then "" else "script = script.__esModule ? script.default : script;\n"
    ⟨importStatement o.esModule "script" request ++ unwrap, [request]⟩

end Component

/-- Says that a module is the entry of a component. -/
def entryMarker : String := "/* san-hmr component */"

/-- The entry module: the pieces that take in styles, template and script, and the call that puts
them together. -/
def assemble (o : LoaderOptions) (template style script : String) : String :=
  importStatement o.esModule "normalize" o.normalizePath ++ style ++ template ++ script ++
    (if o.esModule then "export default " else "module.exports.default = ") ++
    "normalize(script, template, injectStyles);\n" ++ entryMarker ++ "\n"

end ComponentLoader
