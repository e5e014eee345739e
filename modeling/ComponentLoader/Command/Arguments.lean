import ComponentLoader.Loader.Options

/-!
The arguments of the command line.
-/
namespace ComponentLoader

/-- What the command is asked to do. -/
structure Arguments where
  /-- The file that holds the component, the standard input if there is none. -/
  file : Option String := none
  query : Option String := none
  /-- Loader options in JSON. The arguments below go before them. -/
  options : Option String := none
  delimiters : Option String := none
  target : Option String := none
  esModule : Bool := false
  sourceMap : Bool := false
  showBlocks : Bool := false
  showTree : Bool := false
  /-- Whether the requests that the entry module makes are answered, too. -/
  follow : Bool := false
deriving DecidableEq, Repr

/-- The options that take a value. -/
inductive Setting where
  | query
  | options
  | delimiters
  | target
deriving DecidableEq, Repr

/-- The options that take none. -/
inductive Switch where
  | esModule
  | sourceMap
  | showBlocks
  | showTree
  | follow
deriving DecidableEq, Repr

namespace Setting

def name : Setting → String
  | query => "query"
  | options => "options"
  | delimiters => "delimiters"
  | target => "compile-template"

def letter? : Setting → Option Char
  | query => some 'q'
  | options => some 'o'
  | delimiters => some 'd'
  | target => none

def all : List Setting := [query, options, delimiters, target]

def describe (s : Setting) : String :=
  let value := s.name.map fun c => if c = '-' then '_' else c.toUpper
  s!"--{s.name} <{value}>"

end Setting

namespace Switch

def name : Switch → String
  | esModule => "es-module"
  | sourceMap => "source-map"
  | showBlocks => "dump-descriptor"
  | showTree => "dump-tree"
  | follow => "follow"

def all : List Switch := [esModule, sourceMap, showBlocks, showTree, follow]

end Switch

/-- What is wrong with a command line. -/
inductive UsageError where
  | unexpected (word : String)
  | missingValue (setting : Setting)
  | unexpectedValue (switch : Switch) (value : String)
  | repeated (option : String)
deriving DecidableEq, Repr

def UsageError.message : UsageError → String
  | unexpected word => s!"unexpected argument '{word}' found"
  | missingValue setting =>
    s!"a value is required for '{setting.describe}' but none was supplied"
  | unexpectedValue switch value =>
    s!"unexpected value '{value}' for '--{switch.name}' found; no more were expected"
  | repeated option => s!"the argument '{option}' cannot be used multiple times"

/-- What is printed where the command line is not understood. -/
def UsageError.report (e : UsageError) : String :=
  s!"error: {e.message}\n\nUsage: san-loader [OPTIONS] [INPUT_FILE_NAME]\n"

/-- One word of a command line. -/
inductive Word where
  /-- Two dashes, after which there are no options. -/
  | endOfOptions
  | operand (text : String)
  | setting (setting : Setting) (value : Option String)
  | switch (switch : Switch)
deriving DecidableEq, Repr

namespace Word

/-- A word that begins with two dashes and goes on with a name, perhaps a sign of equality and a
value. -/
def ofName (word : String) (text : List Char) : Except UsageError Word :=
  let (name, value) :=
    match Text.splitOnce ['='] text with
    | some (name, value) => (String.ofList name, some (String.ofList value))
    | none => (String.ofList text, none)
  match Setting.all.find? (·.name == name), Switch.all.find? (·.name == name), value with
  | some s, _, _ => .ok (.setting s value)
  | none, some s, none => .ok (.switch s)
  | none, some s, some value => .error (.unexpectedValue s value)
  | none, none, _ => .error (.unexpected word)

/-- A word that begins with one dash and goes on with a letter, perhaps with a value right after
it. -/
def ofLetter (letter : Char) (value : List Char) : Except UsageError Word :=
  match Setting.all.find? (·.letter? == some letter) with
  | some s =>
    let given :=
      match value with
      | [] => none
      | '=' :: rest => some (String.ofList rest)
      | _ => some (String.ofList value)
    .ok (.setting s given)
  | none => .error (.unexpected s!"-{letter}")

/-- Reads one word. A dash alone is no option. -/
def read (word : String) : Except UsageError Word :=
  match word.toList with
  | ['-', '-'] => .ok .endOfOptions
  | '-' :: '-' :: text => ofName word text
  | '-' :: letter :: value => ofLetter letter value
  | _ => .ok (.operand word)

/-- Whether a word cannot be the value of the option before it. -/
def looksLikeOption (word : String) : Bool :=
  match word.toList with
  | '-' :: _ :: _ => true
  | _ => false

end Word

namespace Arguments

/-- Puts a value where there is none yet. -/
def fill (option value : String) : Option String → Except UsageError (Option String)
  | none => .ok (some value)
  | some _ => .error (.repeated option)

def turnOn (option : String) : Bool → Except UsageError Bool
  | false => .ok true
  | true => .error (.repeated option)

def addOperand (a : Arguments) (text : String) : Except UsageError Arguments :=
  match a.file with
  | none => .ok { a with file := some text }
  | some _ => .error (.unexpected text)

def addSetting (a : Arguments) (setting : Setting) (value : String) :
    Except UsageError Arguments := do
  let fill := fill setting.describe value
  match setting with
  | .query => return { a with query := ← fill a.query }
  | .options => return { a with options := ← fill a.options }
  | .delimiters => return { a with delimiters := ← fill a.delimiters }
  | .target => return { a with target := ← fill a.target }

def addSwitch (a : Arguments) (switch : Switch) : Except UsageError Arguments := do
  let turnOn := turnOn s!"--{switch.name}"
  match switch with
  | .esModule => return { a with esModule := ← turnOn a.esModule }
  | .sourceMap => return { a with sourceMap := ← turnOn a.sourceMap }
  | .showBlocks => return { a with showBlocks := ← turnOn a.showBlocks }
  | .showTree => return { a with showTree := ← turnOn a.showTree }
  | .follow => return { a with follow := ← turnOn a.follow }

def addWords (a : Arguments) : List String → Except UsageError Arguments
  | [] => .ok a
  | word :: rest => do
    match ← Word.read word with
    | .endOfOptions => rest.foldlM addOperand a
    | .operand text => (← a.addOperand text).addWords rest
    | .switch switch => (← a.addSwitch switch).addWords rest
    | .setting setting (some value) => (← a.addSetting setting value).addWords rest
    | .setting setting none =>
      match rest with
      | [] => .error (.missingValue setting)
      | value :: rest =>
        if Word.looksLikeOption value then .error (.missingValue setting)
        else (← a.addSetting setting value).addWords rest

def read (words : List String) : Except UsageError Arguments := addWords {} words

end Arguments

def Markup.Delimiters.ofText? (text : String) : Option Markup.Delimiters :=
  match Text.splitOnce [' '] text.toList with
  | some (opening, closing) =>
    if opening = [] ∨ closing = [] then none
    else some ⟨String.ofList opening, String.ofList closing⟩
  | none => none

/-- Why the arguments do not make up options. -/
inductive ArgumentError where
  | loader (cause : LoadError)
  | malformedDelimiters
deriving DecidableEq, Repr

def ArgumentError.message : ArgumentError → String
  | loader cause => cause.message
  | malformedDelimiters => "The delimiter argument should be split by one whitespace"

namespace Arguments

def readDelimiters (text : String) : Except ArgumentError Markup.Delimiters :=
  match Markup.Delimiters.ofText? text with
  | some delimiters => .ok delimiters
  | none => .error .malformedDelimiters

/-- The options of the loader: those in JSON, then those that have arguments of their own. -/
def loaderOptions (a : Arguments) : Except ArgumentError LoaderOptions := do
  let given : LoaderOptions ←
    match a.options with
    | some text => (LoaderOptions.parse text).mapError .loader
    | none => pure {}
  let delimiters ←
    match a.delimiters with
    | some text => readDelimiters text
    | none => pure given.delimiters
  let target ←
    match a.target with
    | some name => (Target.ofName name).mapError .loader
    | none => pure given.target
  return { given with
    target, delimiters
    esModule := given.esModule || a.esModule
    sourceMap := given.sourceMap || a.sourceMap }

end Arguments

end ComponentLoader
