import ComponentLoader.Markup.Fault

/-!
The pieces that markup is read as.
-/
namespace ComponentLoader.Markup

/-- An attribute of a tag. Its span runs from the first character of the name to the end of the
value, the closing quote included. -/
structure Attribute where
  name : String
  value : Option String
  span : Span
deriving DecidableEq, Repr

/-- A start tag. No two of its attributes have one name. -/
structure Tag where
  name : String
  attributes : List Attribute
  selfClosing : Bool
deriving DecidableEq, Repr

/-- The names of the elements that never have an end tag. -/
def voidElements : List String :=
  ["area", "base", "br", "col", "embed", "hr", "img", "input", "link", "meta", "param", "source",
   "track", "wbr"]

/-- Whether an element of this exact name never has an end tag. -/
def isVoidElement (name : String) : Bool := voidElements.contains name

/-- Whether the tag leaves an element open: it is neither self-closing nor that of a void element,
whatever the case of its name. -/
def Tag.opens (tag : Tag) : Bool :=
  !tag.selfClosing && !isVoidElement (tag.name.map Char.toLower)

/-- One piece of markup. An interpolation keeps its delimiters; the text of a comment has lost
them. -/
inductive Token where
  | startTag (tag : Tag)
  | endTag (name : String)
  | text (content : String)
  | comment (content : String)
  | interpolation (content : String)
deriving DecidableEq, Repr

/-- A token, the text it was read from, and the faults met on the way. -/
structure Lexeme where
  token : Token
  span : Span
  faults : List Fault
deriving DecidableEq, Repr

/-- The texts around an interpolation. Nothing is an interpolation where the first is empty. -/
structure Delimiters where
  opening : String := "\x7b\x7b"
  closing : String := "\x7d\x7d"
deriving DecidableEq, Repr

/-- What the content of an element may hold: tags and interpolations, interpolations only, or
text alone. The last two end at the element's own end tag. -/
inductive ContentModel where
  | data
  | replaceable
  | raw
deriving DecidableEq, Repr

/-- What decides how a text is cut into tokens. -/
structure Dialect where
  delimiters : Delimiters
  /-- The content model of the element of a given name. -/
  content : String → ContentModel

/-- Markup in which every element may hold everything. -/
def Dialect.uniform (delimiters : Delimiters) : Dialect :=
  ⟨delimiters, fun _ => .data⟩

def Dialect.template (delimiters : Delimiters) : Dialect :=
  ⟨delimiters, fun name =>
    if name = "script" ∨ name = "style" then .raw
    else if name = "textarea" then .replaceable
    else .data⟩

/-- The markup of component files, where nothing is interpolated. -/
def Dialect.component : Dialect :=
  ⟨⟨"", ""⟩, fun name => if name = "script" ∨ name = "style" then .raw else .data⟩

end ComponentLoader.Markup
