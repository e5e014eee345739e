import ComponentLoader.Template.Tree

/-!
The root element of a component, and the properties that let a parent component style it.
-/
namespace ComponentLoader.Template

/-- The properties that every root element has, with the filter each passes through. -/
def rootProperties : List (String × Option String) :=
  [("class", some "_xclass"), ("style", some "_xstyle"), ("id", none)]

/-- Marks the first property of a name as merged, or adds one where there is none. -/
def Node.fillProperty (n : Node) (name : String) (filter : Option String) : Node :=
  match n.properties.findIdx? (·.name == name) with
  | some first =>
    { n with properties := n.properties.modify first fun p => { p with merged := true } }
  | none =>
    { n with properties := n.properties ++ [{ name, expr := .interpolation name filter.toList }] }

def Node.fill (n : Node) : Node :=
  rootProperties.foldl (fun n (name, filter) => n.fillProperty name filter) n

/-- The element that stands for a component: the first node if that is an element and else an empty
one. An element named `template` stands without a name. -/
def Node.componentRoot (root : Node) : Node :=
  let first : Node :=
    match root.children with
    | n :: _ => if n.isText then { tag := some "div" } else n
    | [] => { tag := some "div" }
  if first.tag = some "template" then { first with tag := none } else first

/-- The root element of a component's template. -/
def parseComponent (o : Options) (fill : Bool) (source : String) : Parsed :=
  let parsed := parse o source
  let root := parsed.node.componentRoot
  ⟨if fill then root.fill else root, parsed.faults⟩

/-- The tree of a template without faults; of one with faults, the first. -/
def Parsed.checked (p : Parsed) : Except Markup.Fault Node :=
  match p.faults with
  | [] => .ok p.node
  | fault :: _ => .error fault

end ComponentLoader.Template
