import ComponentLoader.Loader.Options
import ComponentLoader.Request.Percent
import ComponentLoader.Text.UpperCase

/-!
Requests: the path of a component, and a query that may select one of its blocks.
-/
namespace ComponentLoader

/-- The path and the query of a request. The query begins with its question mark. -/
def splitRequest (request : String) : String × String :=
  let path := request.toList.takeWhile (· != '?')
  let query := request.toList.dropWhile (· != '?')
  (String.ofList path, String.ofList query)

/-- A name without its hyphens, the characters after them in upper case; the first one too if it
is to be raised. -/
def camelCaseFrom (raised : Bool) : List Char → List Char
  | [] => []
  | c :: s =>
    if c = '-' then camelCaseFrom true s
    else (if raised then Text.upperCase c else [c]) ++ camelCaseFrom false s

def camelCase (name : List Char) : List Char := camelCaseFrom false name

/-- The parameters of a query, the last one first. -/
structure Query where
  parameters : List (String × String) := []
deriving DecidableEq, Repr

namespace Query

/-- The key and the value of one part of a query. -/
def readPair (part : List Char) : List Char × List Char :=
  match Text.splitOnce ['='] part with
  | some (key, value) => (Percent.decode key, Percent.decode value)
  | none => (Percent.decode part, [])

/-- What one part of a query sets: its key and, if that is hyphenated, the key in camel case before
it. -/
def readPart (part : List Char) : List (String × String) :=
  let (key, value) := readPair part
  let value := String.ofList value
  let plain := (String.ofList key, value)
  if key.contains '-' then [plain, (String.ofList (camelCase key), value)] else [plain]

def parse (text : String) : Query :=
  let s := (Text.stripStart ['?'] text.toList).getD text.toList
  let parts := (Text.splitOn '&' s).filter (!·.isEmpty)
  ⟨parts.reverse.flatMap readPart⟩

/-- The value of a key; of several, the last. -/
def get? (q : Query) (key : String) : Option String := q.parameters.lookup key

def has (q : Query) (key : String) : Bool := (q.get? key).isSome

def isEmpty (q : Query) : Bool := q.parameters.isEmpty

/-- The name of the kind of block that the query selects, if it selects one. -/
def blockType? (q : Query) : Option String :=
  if q.get? "san" = some "" then q.get? "type" else none

def isBlockRequest (q : Query) : Bool := q.blockType?.isSome

def kind (q : Query) : Except LoadError (Option BlockKind) := (q.get? "type").mapM BlockKind.ofName

/-- The greatest index. -/
def maxIndex : Nat := 0xFFFFFFFFFFFFFFFF

/-- Reads an index: digits, after a plus sign if need be. -/
def parseIndex? (text : String) : Option Nat :=
  let ds := (Text.stripStart ['+'] text.toList).getD text.toList
  if ds.isEmpty || !ds.all Char.isDigit then none
  else
    let n := Json.Input.numberOf ds
    if n ≤ maxIndex then some n else none

def index (q : Query) : Except LoadError (Option Nat) :=
  (q.get? "index").mapM fun text =>
    match parseIndex? text with
    | some n => .ok n
    | none => .error (.invalidIndex text)

def language? (q : Query) : Option String := (q.get? "lang").filter (· ≠ "")

def target (q : Query) : Except LoadError (Option Target) :=
  (q.get? "compileTemplate").mapM Target.ofName

def selector (q : Query) : Except LoadError BlockSelector :=
  return ⟨← q.index, q.language?⟩

end Query

/-- The text of a query that selects a block. -/
structure BlockQuery where
  text : String
deriving DecidableEq, Repr

namespace BlockQuery

/-- The query for the block of a kind at an index. -/
def ofBlock (kind : BlockKind) (index : Nat) : BlockQuery :=
  ⟨s!"?san&type={kind.tag}&index={index}"⟩

def param (q : BlockQuery) (key value : String) : BlockQuery :=
  ⟨q.text ++ "&" ++ key ++ "=" ++ String.ofList (Percent.encode value.toList)⟩

/-- Adds a key without a value. -/
def flag (q : BlockQuery) (key : String) : BlockQuery := ⟨q.text ++ "&" ++ key⟩

/-- Adds the file that holds the content of the block, if there is one. -/
def src (q : BlockQuery) (file : Option String) : BlockQuery :=
  match file with
  | some file => q.param "src" file
  | none => q

def request (q : BlockQuery) (path : String) : String := path ++ q.text

end BlockQuery

end ComponentLoader
