import ComponentLoader.Position

/-!
The blocks of a component file: its template, its script and its styles.
-/
namespace ComponentLoader

/-- The kinds of blocks. -/
inductive BlockKind where
  | template
  | script
  | style
deriving DecidableEq, Repr

namespace BlockKind

def tag : BlockKind → String
  | template => "template"
  | script => "script"
  | style => "style"

def ofTag? (name : String) : Option BlockKind :=
  [template, script, style].find? (·.tag == name)

/-- The language of a block that names none. -/
def defaultLanguage : BlockKind → String
  | template => "html"
  | script => "js"
  | style => "css"

end BlockKind

/-- A set of kinds of blocks. -/
structure BlockKinds where
  template : Bool
  script : Bool
  style : Bool
deriving DecidableEq, Repr

namespace BlockKinds

def all : BlockKinds := ⟨true, true, true⟩

def contains (ks : BlockKinds) : BlockKind → Bool
  | .template => ks.template
  | .script => ks.script
  | .style => ks.style

def ofList (kinds : List BlockKind) : BlockKinds :=
  ⟨kinds.contains .template, kinds.contains .script, kinds.contains .style⟩

/-- The number whose bits, from the lowest, stand for template, script and style. -/
def bits (ks : BlockKinds) : Nat :=
  ks.template.toNat + 2 * ks.script.toNat + 4 * ks.style.toNat

def describe (ks : BlockKinds) : String :=
  let named := [(ks.template, "TEMPLATE"), (ks.script, "SCRIPT"), (ks.style, "STYLE")]
  String.intercalate " | " ((named.filter (·.1)).map (·.2))

end BlockKinds

/-- An attribute of the start tag of a block; a value is missing where there is no equals sign. -/
structure BlockAttribute where
  name : String
  value : Option String
deriving DecidableEq, Repr

/-- A block: where it is, from its start tag to its end tag, and where its content is between the
two. A synthetic one was not written by the author. -/
structure Block where
  kind : BlockKind
  attributes : List BlockAttribute
  span : Span
  content : Span
  synthetic : Bool := false
deriving DecidableEq, Repr

namespace Block

def attribute? (b : Block) (name : String) : Option BlockAttribute :=
  b.attributes.find? (·.name == name)

def value? (b : Block) (name : String) : Option String := (b.attribute? name).bind (·.value)

def hasAttribute (b : Block) (name : String) : Bool := (b.attribute? name).isSome

def declaredLanguage? (b : Block) : Option String := b.value? "lang"

def language (b : Block) : String := b.declaredLanguage?.getD b.kind.defaultLanguage

def source? (b : Block) : Option String := b.value? "src"

def isScoped (b : Block) : Bool := b.hasAttribute "scoped"

/-- The name under which the classes of a style are handed out, `$style` if none is given. -/
def moduleName? (b : Block) : Option String :=
  (b.attribute? "module").map (·.value.getD "$style")

end Block

/-- Picks a block among those of one kind: by its place among them, by its language, or both. -/
structure BlockSelector where
  index : Option Nat := none
  language : Option String := none
deriving DecidableEq, Repr

namespace BlockSelector

def describe : BlockSelector → String
  | ⟨some index, some language⟩ => s!"index {index} and lang `{language}`"
  | ⟨some index, none⟩ => s!"index {index}"
  | ⟨none, some language⟩ => s!"lang `{language}`"
  | ⟨none, none⟩ => "any selector"

def admits (s : BlockSelector) (b : Block) : Bool := s.language.all (b.language == ·)

/-- The block that is picked: the one at the index if it is in the language, or else the first one
in the language. -/
def select (s : BlockSelector) (blocks : List Block) : Option Block :=
  match s.index with
  | some index => blocks[index]?.filter s.admits
  | none => blocks.find? s.admits

end BlockSelector

end ComponentLoader
