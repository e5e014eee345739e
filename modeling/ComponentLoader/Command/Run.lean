import ComponentLoader.Command.Arguments
import ComponentLoader.Command.Path
import ComponentLoader.Component.Yaml
import ComponentLoader.Loader.Run
import ComponentLoader.Report.Drawing
import ComponentLoader.Template.Outline

/-!
What the command prints.
-/
namespace ComponentLoader

/-- What has come of a run so far: the texts on the standard output and on the standard error, and
whether the run has failed. -/
structure Outcome where
  output : String := ""
  errors : String := ""
  failed : Bool := false
deriving DecidableEq, Repr

namespace Outcome

/-- One outcome after another. Nothing comes after a failure. -/
def andThen (a b : Outcome) : Outcome :=
  if a.failed then a else ⟨a.output ++ b.output, a.errors ++ b.errors, b.failed⟩

instance : Append Outcome := ⟨andThen⟩

def print (text : String) : Outcome := { output := text }

def report (text : String) : Outcome := { errors := text }

def fail (message : String) : Outcome := { errors := s!"Error: {message}\n", failed := true }

def sequence (outcomes : List Outcome) : Outcome := outcomes.foldr andThen {}

end Outcome

/-- A component as the command has read it: its name and its text. -/
structure SourceFile where
  name : String
  text : String

namespace SourceFile

/-- A failure to load the component, drawn where it is. -/
def fail (file : SourceFile) (cause : LoadError) : Outcome :=
  match cause.span? with
  | some span =>
    .report (drawError file.name file.text cause.message span) ++ .fail cause.message
  | none => .fail cause.message

def attempt (file : SourceFile) (result : Except LoadError α) (next : α → Outcome) : Outcome :=
  match result with
  | .ok value => next value
  | .error cause => file.fail cause

end SourceFile

namespace Command

def showBlocks (c : Component) : Outcome :=
  .print <| "=========== Descriptor ===========\n" ++ c.blocksYaml ++ c.nodesYaml ++
    "======= End of Descriptor ========\n"

/-- Prints the tree of the first template, if there is one, and draws its faults. -/
def showTree (o : LoaderOptions) (c : Component) : Outcome :=
  match c.template? with
  | none => {}
  | some b =>
    let content := c.contentOf b
    let parsed := Template.parse o.templateOptions content
    let name := c.filename ++ " <template>"
    .report (String.join (parsed.faults.map fun f => drawError name content f.message f.span)) ++
      .print ("============== ANode =============\n" ++ parsed.node.outline 0 ++
        "\n========== End of ANode ==========\n")

/-- Prints what the arguments ask to see of a component before it is loaded. -/
def inspect (a : Arguments) (o : LoaderOptions) (file : SourceFile) : Outcome :=
  if a.showBlocks || a.showTree then
    file.attempt (o.component file.name file.text) fun c =>
      (if a.showBlocks then showBlocks c else {}) ++ if a.showTree then showTree o c else {}
  else {}

/-- Prints a block on lines of its own, then its source map if it has one. -/
def showExtracted (o : LoaderOptions) (x : Extracted) : Outcome :=
  let code := x.code.toModule o.esModule
  let lineEnd := if code.toList.getLast? = some '\n' then "" else "\n"
  let map := x.map.elim "" fun map =>
    "=========== Source Map ===========\n" ++ map.toJson.render ++ "\n"
  .print (code ++ lineEnd ++ map)

def follow (o : LoaderOptions) (file : SourceFile) (requests : List String) : Outcome :=
  .sequence <| requests.map fun request =>
    .print s!"========== {request} ==========\n" ++
      file.attempt (o.resolve request file.text) (showExtracted o)

def load (a : Arguments) (o : LoaderOptions) (file : SourceFile) : Outcome :=
  file.attempt (o.run file.name file.text (a.query.getD "")) fun
    | .block x => showExtracted o x
    | .entry code requests =>
      .print code ++ if a.follow then follow o file requests else {}

def onFile (a : Arguments) (file : SourceFile) : Outcome :=
  match a.loaderOptions with
  | .error cause => .fail cause.message
  | .ok o => inspect a o file ++ load a o file

def inputName : String := "App.san"

/-- The run on what has been read, be it the text of a component or the reason why there is
none. -/
def run (a : Arguments) (source : Except String String) : Outcome :=
  match source with
  | .error message => .fail message
  | .ok text => onFile a ⟨a.file.getD inputName, text⟩

def runIn (folder : Folder) (input : String) (a : Arguments) : Outcome :=
  run a <|
    match a.file with
    | some name => (folder.read name).mapError (·.message)
    | none => .ok input

end Command

end ComponentLoader
