import ComponentLoader.Yaml.Number

/-!
Texts as scalars of a YAML document in block style. A text is plain unless it would be read as
something else; then it is quoted, and one of several lines is written as it is.
-/
namespace ComponentLoader.Yaml

def isBreak (c : Char) : Bool :=
  c == '\n' || c == '\r' || c == '\x85' || c == '\u2028' || c == '\u2029'

/-- A character that can stand in a document without an escape. -/
def isPrintable (c : Char) : Bool :=
  let n := c.toNat
  n == 0xA || (0x20 ≤ n && n ≤ 0x7E) || (0xA0 ≤ n && n != 0xFEFF && n != 0xFFFE && n != 0xFFFF)

/-- Whether a character, or the end of the text, separates words. -/
def endsWord : Option Char → Bool
  | none => true
  | some c => c == ' ' || c == '\t' || c == '\x00' || isBreak c

def indicators : List Char :=
  ['#', ',', '[', ']', '\x7b', '\x7d', '&', '*', '!', '|', '>', '\'', '"', '%', '@', '`']

/-- Whether a plain text would be taken for something else because of a character after its
first. -/
def hasInnerMark (previous : Char) : List Char → Bool
  | [] => false
  | c :: rest =>
    (c == ':' && endsWord rest.head?) || (c == '#' && endsWord (some previous)) ||
      hasInnerMark c rest

/-- Whether a plain text would be taken for something else because of one of its characters. -/
def hasMark : List Char → Bool
  | [] => false
  | c :: rest =>
    indicators.contains c || ((c == '?' || c == ':' || c == '-') && endsWord rest.head?) ||
      hasInnerMark c rest || Text.startsWith ['-', '-', '-'] (c :: rest) ||
      Text.startsWith ['.', '.', '.'] (c :: rest)

/-- Whether a character that satisfies `p` is followed by one that satisfies `q`. -/
def hasPair (p q : Char → Bool) : List Char → Bool
  | c :: d :: rest => (p c && q d) || hasPair p q (d :: rest)
  | _ => false

/-- The words that stand for truth values or for nothing. -/
def reservedWords : List String :=
  ["", "~", "null", "Null", "NULL", "true", "True", "TRUE", "false", "False", "FALSE"]

/-- The ways to write a text. -/
inductive Style where
  | plain
  | singleQuoted
  | doubleQuoted
  | literal
deriving DecidableEq, Repr

/-- Whether a text needs escapes, or loses white space in any other style. -/
def needsEscapes (s : List Char) : Bool :=
  s.any (!isPrintable ·) || hasPair (· == ' ') isBreak s

def hasOuterSpace (s : List Char) : Bool :=
  s.any isBreak || s.head?.any (· == ' ') || s.getLast?.any (· == ' ')

def styleOf (s : String) : Style :=
  let cs := s.toList
  if cs.contains '\n' then
    if needsEscapes cs || cs.getLast?.any (· == ' ') then .doubleQuoted else .literal
  else if needsEscapes cs || hasPair isBreak (· == ' ') cs then .doubleQuoted
  else if reservedWords.contains s || looksNumeric s || hasOuterSpace cs || hasMark cs then
    .singleQuoted
  else .plain

def spaces (n : Nat) : List Char := List.replicate n ' '

/-- The lines of a text, each that is not empty indented. -/
def indentLines (indent : Nat) (atStart : Bool) : List Char → List Char
  | [] => []
  | c :: cs =>
    if isBreak c then c :: indentLines indent true cs
    else (if atStart then spaces indent else []) ++ c :: indentLines indent false cs

/-- A text in single quotes. The quote is doubled, and what follows a line break is indented. -/
def singleQuote (indent : Nat) (s : List Char) : List Char :=
  let closing := if s.getLast?.any isBreak then spaces indent ++ ['\''] else ['\'']
  '\'' :: indentLines indent false (s.flatMap fun c => if c == '\'' then [c, c] else [c]) ++ closing

def hexCode (width n : Nat) : List Char :=
  (List.range width).reverse.map fun k => (Nat.digitChar (n / Nat.pow 16 k % 16)).toUpper

/-- What follows the backslash in the escape of a character. -/
def escapeCode (c : Char) : List Char :=
  match c.toNat with
  | 0x00 => ['0']
  | 0x07 => ['a']
  | 0x08 => ['b']
  | 0x09 => ['t']
  | 0x0A => ['n']
  | 0x0B => ['v']
  | 0x0C => ['f']
  | 0x0D => ['r']
  | 0x1B => ['e']
  | 0x22 => ['"']
  | 0x5C => ['\\']
  | 0x85 => ['N']
  | 0x2028 => ['L']
  | 0x2029 => ['P']
  | n => if n ≤ 0xFF then 'x' :: hexCode 2 n else 'u' :: hexCode 4 n

def doubleQuote (s : List Char) : List Char :=
  let escape (c : Char) :=
    if !isPrintable c || isBreak c || c == '"' || c == '\\' then '\\' :: escapeCode c else [c]
  '"' :: s.flatMap escape ++ ['"']

/-- What follows the bar of a literal text: its indentation if it begins with white space, and what
becomes of the line breaks at its end. -/
def literalHints (s : List Char) : List Char :=
  let indentation := if s.head?.any fun c => c == ' ' || isBreak c then ['2'] else []
  let ending :=
    match s.reverse with
    | [] => ['-']
    | last :: rest =>
      if !isBreak last then ['-'] else if rest.isEmpty || rest.head?.any isBreak then ['+'] else []
  indentation ++ ending

def scalar (indent : Nat) (s : String) : String :=
  let cs := s.toList
  String.ofList <|
    match styleOf s with
    | .plain => cs ++ ['\n']
    | .singleQuoted => singleQuote indent cs ++ ['\n']
    | .doubleQuoted => doubleQuote cs ++ ['\n']
    | .literal =>
      '|' :: literalHints cs ++ '\n' :: indentLines indent true cs ++
        if cs.getLast?.any isBreak then [] else ['\n']

end ComponentLoader.Yaml
