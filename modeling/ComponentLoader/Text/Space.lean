/-!
The two notions of space. Markup is separated by five ASCII characters; values are trimmed of every
character with the property White_Space.
-/
namespace ComponentLoader.Text

/-- The space of markup: space, tab, line feed, form feed and carriage return. -/
def isMarkupSpace (c : Char) : Bool :=
  c == ' ' || c == '\t' || c == '\n' || c == '\x0c' || c == '\r'

/-- A character with the property White_Space. -/
def isSpace (c : Char) : Bool :=
  let n := c.toNat
  (0x9 ≤ n && n ≤ 0xD) || n == 0x20 || n == 0x85 || n == 0xA0 || n == 0x1680 ||
    (0x2000 ≤ n && n ≤ 0x200A) || n == 0x2028 || n == 0x2029 || n == 0x202F || n == 0x205F ||
    n == 0x3000

/-- Whether a text holds nothing but the space of markup. -/
def isBlank (s : String) : Bool := s.toList.all isMarkupSpace

/-- A text without the white space it begins with. -/
def trimStart (s : List Char) : List Char := s.dropWhile isSpace

/-- A text without the white space it ends with. -/
def trimEnd (s : List Char) : List Char := (s.reverse.dropWhile isSpace).reverse

/-- A text without the white space at either end. -/
def trim (s : List Char) : List Char := trimEnd (trimStart s)

end ComponentLoader.Text
