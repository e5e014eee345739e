import ComponentLoader.Text.Basic

/-!
Absolute paths, cleaned by what they say and not by what is on the disk, and reading files by them.
-/
namespace ComponentLoader

/-- A cleaned absolute path: the names from the root on. -/
structure Path where
  names : List (List Char)
deriving DecidableEq, Repr

namespace Path

def root : Path := ⟨[]⟩

/-- The names of a path, the last one first, after one more part of it. The parent of the root is
the root. -/
def step (names : List (List Char)) (part : List Char) : List (List Char) :=
  if part = [] ∨ part = ['.'] then names
  else if part = ['.', '.'] then names.drop 1
  else part :: names

def ofText (text : String) : Path :=
  ⟨((Text.splitOn '/' text.toList).foldl step []).reverse⟩

def absolute (directory text : String) : Path :=
  if Text.startsWith ['/'] text.toList then ofText text else ofText (directory ++ "/" ++ text)

def text (p : Path) : String :=
  if p.names = [] then "/" else String.ofList (p.names.flatMap ('/' :: ·))

/-- Whether a path is that of a directory that holds `q`, at any depth. -/
def above (p q : Path) : Bool := p.names.length < q.names.length && p.names.isPrefixOf q.names

end Path

/-- Why a file cannot be read. -/
inductive FileError where
  | missing
  | notDirectory
  | isDirectory
deriving DecidableEq, Repr

def FileError.message : FileError → String
  | missing => "No such file or directory (os error 2)"
  | notDirectory => "Not a directory (os error 20)"
  | isDirectory => "Is a directory (os error 21)"

/-- A directory and the files that can be read from it, by their names in it. -/
structure Folder where
  directory : String
  files : List (String × String)

namespace Folder

def placed (f : Folder) : List (Path × String) :=
  f.files.map fun (name, content) => (.absolute f.directory name, content)

def read (f : Folder) (name : String) : Except FileError String :=
  let path := Path.absolute f.directory name
  match f.placed.find? (·.1 == path) with
  | some (_, content) => .ok content
  | none =>
    if f.placed.any (·.1.above path) then .error .notDirectory
    else if path == .ofText f.directory || path.above (.ofText f.directory) ||
        f.placed.any (path.above ·.1) then
      .error .isDirectory
    else .error .missing

end Folder

end ComponentLoader
