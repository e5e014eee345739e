import ComponentLoader.Command.Run

/-!
The command line.
-/
namespace ComponentLoader.Command

partial def readRest (stream : IO.FS.Stream) (read : ByteArray) : IO ByteArray := do
  let chunk ← stream.read 65536
  if chunk.isEmpty then return read else readRest stream (read ++ chunk)

def readInput : IO String := do
  match String.fromUTF8? (← readRest (← IO.getStdin) .empty) with
  | some text => return text
  | none => throw (.userError "stream did not contain valid UTF-8")

def readFile (name : String) : IO String := do
  IO.FS.readFile (Path.absolute (← IO.currentDir).toString name).text

def describe : IO.Error → String
  | .noFileOrDirectory .. => FileError.missing.message
  | .inappropriateType _ 21 _ => FileError.isDirectory.message
  | .inappropriateType .. => FileError.notDirectory.message
  | e => e.toString

/-- The text that the arguments name, or the reason why it cannot be read. -/
def readSource (a : Arguments) : IO (Except String String) := do
  try
    match a.file with
    | some name => return .ok (← readFile name)
    | none => return .ok (← readInput)
  catch e => return .error (describe e)

def finish (outcome : Outcome) : IO UInt32 := do
  IO.print outcome.output
  IO.eprint outcome.errors
  return if outcome.failed then 1 else 0

end ComponentLoader.Command

open ComponentLoader in
def main (words : List String) : IO UInt32 := do
  match Arguments.read words with
  | .error cause =>
    IO.eprint cause.report
    return 2
  | .ok arguments => Command.finish (Command.run arguments (← Command.readSource arguments))
