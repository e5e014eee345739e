import ComponentLoader.Markup.Token
import ComponentLoader.Text.Space

/-!
The tree that a template is read as. Expressions stay source text: interpolations are split into an
expression and its filters, loops into their parts, and the rest is left to the runtime.
-/
namespace ComponentLoader.Template

/-- A value in a template: literal text, the value of an attribute without one, an expression with
the filters its value passes through, a sequence of such pieces, or code. -/
inductive Expr where
  | string (value : String)
  | bool (value : Bool)
  | interpolation (expr : String) (filters : List String)
  | text (segments : List Expr)
  | raw (code : String)
deriving Inhabited

/-- A property of an element. A merged one joins the value that the parent component passes. -/
structure Property where
  name : String
  expr : Expr
  merged : Bool := false
deriving Inhabited

/-- A handler for an event of an element. -/
structure Event where
  name : String
  expr : Expr
  modifiers : List String := []
deriving Inhabited

/-- What a directive says. Only loops name an item, an index or a key. -/
structure Directive where
  value : Option Expr := none
  item : Option String := none
  index : Option String := none
  trackBy : Option String := none
deriving Inhabited

/-- Puts an entry at its place among entries in ascending order of names, over one of its name. -/
def insertEntry (name : String) (d : Directive) :
    List (String × Directive) → List (String × Directive)
  | [] => [(name, d)]
  | (n, e) :: rest =>
    if name < n then (name, d) :: (n, e) :: rest
    else if name = n then (name, d) :: rest
    else (n, e) :: insertEntry name d rest

theorem mem_insertEntry {name : String} {d : Directive} {entries : List (String × Directive)}
    {x : String × Directive} (h : x ∈ insertEntry name d entries) :
    x = (name, d) ∨ x ∈ entries := by
  induction entries with
  | nil => simpa [insertEntry] using h
  | cons e rest ih =>
    rw [insertEntry] at h
    split at h
    · simpa using h
    · split at h
      · rcases List.mem_cons.1 h with rfl | h
        · exact .inl rfl
        · exact .inr (.tail _ h)
      · rcases List.mem_cons.1 h with rfl | h
        · exact .inr (.head _)
        · exact (ih h).imp id (.tail _)

theorem pairwise_insertEntry (name : String) (d : Directive)
    {entries : List (String × Directive)} (h : entries.Pairwise (·.1 < ·.1)) :
    (insertEntry name d entries).Pairwise (·.1 < ·.1) := by
  induction entries with
  | nil => simp [insertEntry]
  | cons e rest ih =>
    obtain ⟨first, sorted⟩ := List.pairwise_cons.1 h
    rw [insertEntry]
    split
    · next before =>
      refine List.pairwise_cons.2 ⟨fun x hx => ?_, h⟩
      rcases List.mem_cons.1 hx with rfl | hx
      · exact before
      · exact String.lt_trans before (first x hx)
    · next notBefore =>
      split
      · next same =>
        subst same
        exact List.pairwise_cons.2 ⟨first, sorted⟩
      · next different =>
        have after : e.1 < name := String.not_le.1 fun h' =>
          different (String.le_antisymm h' (String.not_lt.1 notBefore))
        refine List.pairwise_cons.2 ⟨fun x hx => ?_, ih sorted⟩
        rcases mem_insertEntry hx with rfl | hx
        · exact after
        · exact first x hx

/-- Directives by name, in ascending order of names. -/
structure Directives where
  entries : List (String × Directive)
  sorted : entries.Pairwise (·.1 < ·.1)

namespace Directives

def empty : Directives := ⟨[], .nil⟩

instance : Inhabited Directives := ⟨empty⟩

def insert (ds : Directives) (name : String) (d : Directive) : Directives :=
  ⟨insertEntry name d ds.entries, pairwise_insertEntry name d ds.sorted⟩

/-- The directives of a list, later ones over earlier ones of the same name. -/
def ofList (entries : List (String × Directive)) : Directives :=
  entries.foldl (fun ds (name, d) => ds.insert name d) empty

def contains (ds : Directives) (name : String) : Bool :=
  ds.entries.any (·.1 == name)

end Directives

/-- A node of a template: a text where it has a text, an element where it has a tag, and a bare
root otherwise. -/
structure Node where
  tag : Option String := none
  text : Option Expr := none
  properties : List Property := []
  events : List Event := []
  directives : Directives := .empty
  children : List Node := []
deriving Inhabited

namespace Node

def isText (n : Node) : Bool := n.text.isSome

/-- Whether the node is a literal text of nothing but space. -/
def isBlankText (n : Node) : Bool :=
  match n.text with
  | some (.string value) => Text.isBlank value
  | _ => false

def property? (n : Node) (name : String) : Option Property :=
  n.properties.find? (·.name == name)

end Node

end ComponentLoader.Template
