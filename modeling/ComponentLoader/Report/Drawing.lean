import ComponentLoader.Position
import ComponentLoader.Text.Space
import ComponentLoader.Text.Width

/-!
Drawings of a stretch of a source, for people to read: a heading, the lines that the stretch covers,
and a mark on it. A stretch of one line is marked by carets below it, a longer one by a line that
runs down the margin.
-/
namespace ComponentLoader.Drawing

/-- One line of a source, its line end included. -/
structure Line where
  number : Nat
  /-- The offset in bytes at which the line begins. -/
  start : Nat
  text : List Char

/-- The lines of a text. After a line feed at the end there is an empty line. -/
def splitLines : List Char → List (List Char)
  | [] => [[]]
  | c :: cs =>
    if c = '\n' then [c] :: splitLines cs
    else
      match splitLines cs with
      | [] => [[c]]
      | line :: lines => (c :: line) :: lines

/-- Lines with their numbers and offsets. -/
def place (number start : Nat) : List (List Char) → List Line
  | [] => []
  | text :: rest =>
    ⟨number, start, text⟩ :: place (number + 1) (start + Text.utf8Length text) rest

/-- The lines of a source. -/
def linesOf (source : String) : List Line := place 1 0 (splitLines source.toList)

/-- The last line that begins no later than at an offset. -/
def lineAt (lines : List Line) (offset : Nat) : Line :=
  (lines.takeWhile (·.start ≤ offset)).getLast?.getD ⟨1, 0, []⟩

/-- The line without its line end, as it is drawn. -/
def Line.shown (line : Line) : List Char :=
  (line.text.reverse.dropWhile fun c => c == '\n' || c == '\r' || c == '\x00').reverse

/-- A character on a line: the byte at which it begins and the columns it takes. -/
structure Cell where
  char : Char
  byte : Nat
  width : Nat

namespace Cell

/-- The byte after a character. -/
def stop (cell : Cell) : Nat := cell.byte + cell.char.utf8Size

/-- A character `c` once for each column of a cell. -/
def fill (cell : Cell) (c : Char) : List Char := List.replicate cell.width c

/-- The cells of a text that begins at a byte and a column. A tab reaches to the next multiple of
four columns. -/
def ofText (byte column : Nat) : List Char → List Cell
  | [] => []
  | c :: cs =>
    let width := if c = '\t' then 4 - column % 4 else Text.width c
    ⟨c, byte, width⟩ :: ofText (byte + c.utf8Size) (column + width) cs

end Cell

def drawnText (text : List Char) : List Char :=
  (Cell.ofText 0 0 text).flatMap fun cell => if cell.char = '\t' then cell.fill ' ' else [cell.char]

/-- The column of a byte on a line, counted from 1 in whole characters. -/
def columnOf (line : Line) (byte : Nat) : Nat :=
  ((Cell.ofText 0 0 line.text).takeWhile (·.stop ≤ byte)).length + 1

/-- Carets below the characters of a line that the bytes from `start` to `stop` touch, at least one
of which is taken to be touched. The end of the line counts as a character. -/
def carets (text : List Char) (start stop : Nat) : List Char :=
  let stop := max stop (start + 1)
  let cells := Cell.ofText 0 0 text ++ [Cell.mk '\x00' (Text.utf8Length text) 1]
  cells.flatMap fun cell =>
    if start < cell.stop && cell.byte < stop then cell.fill '^'
    else if cell.byte < stop then cell.fill ' '
    else []

/-- A line below the characters that begin before a byte, with a caret at its end. -/
def underline (text : List Char) (stop : Nat) : List Char :=
  ((Cell.ofText 0 0 text).takeWhile (·.byte < stop)).flatMap (·.fill '─') ++ ['^']

/-- A row of a drawing: a label of the given width, right-aligned, then the rest. -/
def row (pad : Nat) (label : String) (rest : List Char) : String :=
  String.ofList (List.replicate (pad - label.length) ' ') ++ label ++ " " ++ String.ofList rest ++
    "\n"

def lineRow (pad : Nat) (margin : List Char) (line : Line) : String :=
  row pad (toString line.number) ('│' :: margin ++ ' ' :: drawnText line.shown)

def shortRows (pad : Nat) (line : Line) (start stop : Nat) : List String :=
  [row pad "" ['│'], lineRow pad [] line,
   row pad "" ('│' :: ' ' :: carets line.shown (start - line.start) (stop - line.start))]

/-- The rows of the line where a longer stretch begins. The mark begins in the margin if nothing but
white space is before the stretch. -/
def openingRows (pad : Nat) (line : Line) (start : Nat) : List String :=
  let byte := start - line.start
  if byte ≤ Text.utf8Length (line.shown.takeWhile Text.isSpace) then
    [lineRow pad [' ', '╭'] line]
  else
    [lineRow pad [' ', ' '] line,
     row pad "" ('│' :: ' ' :: '╭' :: underline line.shown (byte + 1))]

/-- The rows between the ends of a longer stretch. Of more than five lines only the first three and
the last are drawn. -/
def middleRows (pad : Nat) (lines : List Line) : List String :=
  let draw := lineRow pad [' ', '│']
  if lines.length ≤ 5 then lines.map draw
  else
    (lines.take 3).map draw ++ row pad "" ['·', ' ', '│'] ::
      (lines.drop (lines.length - 1)).map draw

/-- The rows of the line where a longer stretch ends. -/
def closingRows (pad : Nat) (line : Line) (stop : Nat) : List String :=
  [lineRow pad [' ', '│'] line,
   row pad "" ('│' :: ' ' :: '╰' :: underline line.shown (stop - line.start))]

end Drawing

/-- The drawing of an error in a source of the given name, followed by an empty line. -/
def drawError (name source message : String) (span : Span) : String :=
  let lines := Drawing.linesOf source
  let start := span.start.offset
  let stop := span.stop.offset
  let first := Drawing.lineAt lines start
  let last := Drawing.lineAt lines stop
  let pad := (toString (max first.number last.number)).length
  let column := Drawing.columnOf first (start - first.start)
  let rows :=
    if first.number = last.number then Drawing.shortRows pad first start stop
    else
      Drawing.row pad "" ['│', ' ', ' '] :: Drawing.openingRows pad first start ++
        Drawing.middleRows pad
          (lines.filter fun l => first.number < l.number && l.number < last.number) ++
        Drawing.closingRows pad last stop
  "error: " ++ message ++ "\n" ++
    Drawing.row pad "" ("┌─ ".toList ++ s!"{name}:{first.number}:{column}".toList) ++
    String.join rows ++ "\n"

end ComponentLoader
