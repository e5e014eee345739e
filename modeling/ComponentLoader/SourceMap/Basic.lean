import ComponentLoader.Json.Input
import ComponentLoader.Json.Value
import ComponentLoader.Position
import ComponentLoader.SourceMap.Vlq

/-!
Source maps of the third revision for blocks. A block is handed out as it stands in its component,
so that one segment, at its beginning, places all of it.
-/
namespace ComponentLoader

/-- A source map. -/
structure SourceMap where
  version : Nat
  file : String
  sources : List String
  sourcesContent : List String
  names : List String
  mappings : String
deriving DecidableEq, Repr

namespace SourceMap

/-- The column of a place in UTF-16 code units, from 0. -/
def utf16Column (source : String) (offset : Nat) : Nat :=
  let before := Text.takeBytes offset source.toList
  Text.utf16Length (before.reverse.takeWhile (· != '\n'))

def ofBlock (filename source : String) (start : Position) : SourceMap where
  version := 3
  file := filename
  sources := [filename]
  sourcesContent := [source]
  names := []
  mappings := String.ofList <|
    [0, 0, Vlq.wrap (start.line - 1), (utf16Column source start.offset : Int)].flatMap Vlq.encode

/-- What has been read of mappings: the last place in the source, its line and column from 0, and
the place of the last segment that begins a line, with the number of that line. -/
structure Trace where
  line : Int := 0
  column : Int := 0
  last : Option (Int × Int × Nat) := none
deriving DecidableEq, Repr

/-- Reads a segment. Its third and fourth numbers move the place in the source. -/
def readSegment (t : Trace) (segment : List Char) : Option Trace :=
  (Vlq.decode segment).map fun fields =>
    match fields with
    | _ :: _ :: line :: column :: _ =>
      { t with line := Vlq.wrap (t.line + line), column := Vlq.wrap (t.column + column) }
    | _ => t

/-- Reads the segments of the line of the given number. -/
def readLine (t : Trace) (line : List Char × Nat) : Option Trace :=
  match (Text.splitOn ',' line.1).filter (!·.isEmpty) with
  | [] => some t
  | first :: rest => do
    let t ← readSegment t first
    rest.foldlM readSegment { t with last := some (t.line, t.column, line.2) }

/-- The natural number of 64 bits that stands for an integer. -/
def unsigned (n : Int) : Nat := (n % 0x10000000000000000).toNat

/-- The line, from 1, and the column, from 0, of the first segment of a generated line, counted
from 1. A line without segments goes on from the nearest one before it that has some. -/
def sourcePosition? (mappings : String) (line : Nat) : Option (Nat × Nat) := do
  let lines := (Text.splitOn ';' mappings.toList).take line
  let t ← lines.zipIdx.foldlM readLine {}
  let (sourceLine, column, number) ← t.last
  return (unsigned (sourceLine + (line - 1 - number : Nat) + 1), unsigned column)

def fieldNames : List String :=
  ["version", "file", "sources", "sourcesContent", "names", "mappings"]

def toJson (m : SourceMap) : Json :=
  let strings (ss : List String) : Json := .array (ss.map .string)
  .object (fieldNames.zip [.number m.version, .string m.file, strings m.sources,
    strings m.sourcesContent, strings m.names, .string m.mappings])

/-- The map in a JSON value. Every member must be there, and the version must fit a byte. -/
def ofInput? (input : Json.Input) : Option SourceMap := do
  match (← input.fields? fieldNames false) with
  | [version, file, sources, sourcesContent, names, mappings] =>
    let version ← (← version).number?
    guard (version < 256)
    return {
      version
      file := ← (← file).string?
      sources := ← (← sources).strings?
      sourcesContent := ← (← sourcesContent).strings?
      names := ← (← names).strings?
      mappings := ← (← mappings).string? }
  | _ => none

def parse? (text : String) : Option SourceMap := (Json.Input.parse text).bind ofInput?

end SourceMap

end ComponentLoader
