import ComponentLoader.Proofs.Template.Elements
import ComponentLoader.Proofs.Template.Preorder
import Mathlib.Data.List.Induction
import Mathlib.Data.List.Perm.Basic

/-! Where a condition is continued that none began. An element is judged when it ends, by its
siblings so far, and these are what comes before it in the finished tree: nothing is added around an
open element. So what is reported and what the open elements will have reported, taken together,
belongs to the start tags that have been read, whatever ends the elements. -/
namespace ComponentLoader.Template

open Markup (Delimiters Dialect Fault FaultKind Lexeme Tag Token)

namespace Node

/-- The nearest of the nodes so far that is no blank text, with one node more. -/
def follow (previous : Option Node) (n : Node) : Option Node :=
  if n.isBlankText then previous else some n

mutual

/-- The nodes of a tree in the order of their text, without their children, each with the nearest
sibling before it that is no blank text. -/
def placed (previous : Option Node) : Node → List (Option Node × Node)
  | ⟨tag, text, properties, events, directives, children⟩ =>
    (previous, ⟨tag, text, properties, events, directives, []⟩) :: placedAll none children

def placedAll (previous : Option Node) : List Node → List (Option Node × Node)
  | [] => []
  | n :: rest => n.placed previous ++ placedAll (follow previous n) rest

end

/-- The node continues a condition, and the one before it is not there or neither begins nor
continues one. -/
def lacks : Option Node × Node → Bool
  | (previous, n) => n.continuesCondition && !previous.any opensCondition

def elementsOf (nodes : List (Option Node × Node)) : List (Option Node × Node) :=
  nodes.filter (·.2.tag.isSome)

def elements (n : Node) : List (Option Node × Node) := elementsOf (n.placed none)

theorem placed_eq (previous : Option Node) (n : Node) :
    n.placed previous = (previous, { n with children := [] }) :: placedAll none n.children := by
  cases n
  rfl

theorem placedAll_append (previous : Option Node) (as bs : List Node) :
    placedAll previous (as ++ bs) =
      placedAll previous as ++ placedAll (as.foldl follow previous) bs := by
  induction as generalizing previous with
  | nil => rfl
  | cons a as ih =>
    rw [List.cons_append, placedAll, placedAll, ih, List.foldl_cons, List.append_assoc]

theorem placedAll_concat (as : List Node) (n : Node) :
    placedAll none (as ++ [n]) = placedAll none as ++ n.placed (as.foldl follow none) := by
  rw [placedAll_append, placedAll, placedAll, List.append_nil]

/-- The nearest node is found by going back. -/
theorem foldl_follow (as : List Node) :
    as.foldl follow none = as.reverse.find? (!·.isBlankText) := by
  induction as using List.reverseRecOn with
  | nil => rfl
  | append_singleton as a ih =>
    rw [List.foldl_concat, List.reverse_concat, List.find?_cons, ih, follow]
    cases a.isBlankText <;> rfl

theorem elementsOf_append (as bs : List (Option Node × Node)) :
    elementsOf (as ++ bs) = elementsOf as ++ elementsOf bs := List.filter_append ..

/-- A text that has no children is no element and holds none. -/
theorem elementsOf_placed_of_bare {n : Node} (tag : n.tag = none) (children : n.children = [])
    (previous : Option Node) : elementsOf (n.placed previous) = [] := by
  rw [placed_eq, children, placedAll, elementsOf, List.filter_singleton, tag]
  rfl

end Node

open Node (elementsOf follow lacks)

/-- The nodes that a node will come after that is added to the innermost of open elements, or
outside of all. -/
def siblingsOf (roots : List Node) : List OpenElement → List Node
  | [] => roots
  | e :: _ => e.node.children

/-- The nodes of a tree in the making, the open elements after all that stands before them. -/
def placedOpen (roots : List Node) : List OpenElement → List (Option Node × Node)
  | [] => Node.placedAll none roots
  | e :: outer =>
    placedOpen roots outer ++ e.node.placed ((siblingsOf roots outer).foldl follow none)

/-- Where the open elements begin that will be reported as continuing no condition. -/
def waitingOpen (roots : List Node) : List OpenElement → List Position
  | [] => []
  | e :: outer =>
    (if lacks ((siblingsOf roots outer).foldl follow none, e.node) then [e.start] else []) ++
      waitingOpen roots outer

namespace Builder

variable (b : Builder)

/-- The nearest node that one will come after which is added now. -/
def nearest : Option Node := (siblingsOf b.roots b.opened).foldl follow none

def elements : List (Option Node × Node) := elementsOf (placedOpen b.roots b.opened)

def reported : List Position :=
  (b.faults.filter (·.kind == .elseNoAdjacentIf)).map (·.span.start)

/-- Where elements begin that were or will be reported. -/
def due : List Position := b.reported ++ waitingOpen b.roots b.opened

theorem siblings_eq : b.siblings = siblingsOf b.roots b.opened := by
  unfold siblings siblingsOf
  cases b.opened <;> rfl

theorem placed_push (n : Node) :
    placedOpen (b.push n).roots (b.push n).opened =
      placedOpen b.roots b.opened ++ n.placed b.nearest := by
  unfold push nearest
  split
  · next opened =>
    rw [opened]
    exact Node.placedAll_concat b.roots n
  · next e outer opened =>
    rw [opened]
    simp only [placedOpen, siblingsOf, Node.placed_eq _ e.node,
      Node.placed_eq _ { e.node with children := _ }, Node.placedAll_concat, List.append_assoc,
      List.cons_append]

theorem waiting_push (n : Node) :
    waitingOpen (b.push n).roots (b.push n).opened = waitingOpen b.roots b.opened := by
  unfold push
  split
  · next opened => rw [opened]; rfl
  · next e outer opened => rw [opened]; rfl

theorem faults_push (n : Node) : (b.push n).faults = b.faults := by
  unfold push
  split <;> rfl

theorem elements_push (n : Node) :
    (b.push n).elements = b.elements ++ elementsOf (n.placed b.nearest) := by
  rw [elements, placed_push, Node.elementsOf_append]
  rfl

theorem elements_append (n : Node) (span : Span) :
    (b.append n span).elements = b.elements ++ elementsOf (n.placed b.nearest) := by
  unfold append
  dsimp only
  split
  · exact elements_push _ n
  · exact elements_push b n

/-- Faults of other kinds leave what is reported as it is. -/
theorem reported_met {faults : List Fault} (other : ∀ f ∈ faults, f.kind ≠ .elseNoAdjacentIf) :
    reported { b with faults := b.faults ++ faults } = b.reported := by
  have none : faults.filter (·.kind == .elseNoAdjacentIf) = [] :=
    List.filter_eq_nil_iff.mpr fun f mem => by simpa using other f mem
  rw [reported, List.filter_append, none, List.append_nil]
  rfl

theorem reported_push (n : Node) : (b.push n).reported = b.reported := by
  rw [reported, faults_push]
  rfl

/-- A node is reported when it is added, by what it will come after. -/
theorem reported_append (n : Node) (span : Span) :
    (b.append n span).reported =
      b.reported ++ if lacks (b.nearest, n) then [span.start] else [] := by
  unfold append
  dsimp only
  rw [siblings_eq, ← Node.foldl_follow]
  change reported (if lacks (b.nearest, n) then _ else _) = _
  split
  · rw [reported_push, report, reported, List.filter_append, List.map_append]
    rfl
  · rw [reported_push, List.append_nil]

theorem waiting_append (n : Node) (span : Span) :
    waitingOpen (b.append n span).roots (b.append n span).opened =
      waitingOpen b.roots b.opened := by
  unfold append
  dsimp only
  split
  · exact waiting_push _ n
  · exact waiting_push b n

theorem due_append (n : Node) (span : Span) :
    (b.append n span).due.Perm (b.due ++ if lacks (b.nearest, n) then [span.start] else []) := by
  rw [due, due, reported_append, waiting_append, List.append_assoc, List.append_assoc]
  exact List.perm_append_comm.append_left _

/-- No element is added, and the same ones were or will be reported. -/
structure Keeps (b b' : Builder) : Prop where
  elements : b'.elements = b.elements
  due : b'.due.Perm b.due

namespace Keeps

theorem refl (b : Builder) : b.Keeps b := ⟨rfl, .refl _⟩

variable {b b₁ b₂ : Builder}

theorem trans (first : b.Keeps b₁) (last : b₁.Keeps b₂) : b.Keeps b₂ :=
  ⟨last.elements.trans first.elements, last.due.trans first.due⟩

theorem met {faults : List Fault} (other : ∀ f ∈ faults, f.kind ≠ .elseNoAdjacentIf) :
    b.Keeps { b with faults := b.faults ++ faults } := by
  refine ⟨rfl, ?_⟩
  rw [Builder.due, Builder.due, reported_met b other]

theorem report (kind : FaultKind) (other : kind ≠ .elseNoAdjacentIf) (span : Span) :
    b.Keeps (b.report kind span) := by
  refine met fun f mem => ?_
  obtain rfl := List.mem_singleton.mp mem
  exact other

theorem flush (o : Options) : b.Keeps (b.flush o) := by
  have emptied : b.Keeps { b with pending := [] } := ⟨rfl, .refl _⟩
  unfold Builder.flush
  dsimp only
  split
  · exact emptied
  · refine emptied.trans ⟨?_, ?_⟩
    · rw [elements_push, Node.elementsOf_placed_of_bare rfl rfl, List.append_nil]
    · rw [Builder.due, Builder.due, reported_push, waiting_push]

/-- An element that ends is where it was among the nodes, and is reported now where it was to be. -/
theorem closeInnermost (stop : Position) : b.Keeps (b.closeInnermost stop) := by
  unfold Builder.closeInnermost
  split
  · exact refl b
  · next e outer opened =>
    constructor
    · rw [elements_append, Builder.elements, Builder.elements, opened, ← Node.elementsOf_append]
      rfl
    · refine (due_append _ e.node _).trans ?_
      rw [Builder.due, Builder.due, opened, waitingOpen, List.append_assoc]
      exact List.perm_append_comm.append_left _

theorem closeMissing (stop : Position) (n : Nat) : b.Keeps (Builder.closeMissing stop n b) :=
  closeMissing_induction (fun _ span kept => kept.trans (report .missingEndTag nofun span))
    (fun _ stop kept => kept.trans (closeInnermost stop)) stop n (refl b)

theorem closeElement (name : String) (span : Span) : b.Keeps (b.closeElement name span) := by
  unfold Builder.closeElement
  split
  · exact report .invalidEndTag nofun span
  · exact (closeMissing span.stop _).trans (closeInnermost span.stop)

end Keeps

/-- A start tag adds its element, and where that begins if it continues no condition. -/
theorem openElement_adds (o : Options) (tag : Tag) (span : Span) :
    (b.openElement o tag span).elements =
        b.elements ++ [(b.nearest, Node.ofTag o.delimiters tag)] ∧
      (b.openElement o tag span).due.Perm (b.due ++
        if lacks (b.nearest, Node.ofTag o.delimiters tag) then [span.start] else []) := by
  have met : b.Keeps { b with faults := b.faults ++ directiveFaults tag } := by
    refine .met fun f mem => ?_
    rcases kind_of_mem_directiveFaults mem with kind | kind | kind <;> rw [kind] <;> nofun
  have own : elementsOf ((Node.ofTag o.delimiters tag).placed b.nearest) =
      [(b.nearest, Node.ofTag o.delimiters tag)] := by
    rw [Node.placed_eq]
    rfl
  unfold openElement
  dsimp only
  split
  · constructor
    · rw [← own, ← met.elements, elements, elements, placedOpen, Node.elementsOf_append]
      rfl
    · refine .trans ?_ (met.due.append_right _)
      rw [due, due, waitingOpen, List.append_assoc]
      exact List.perm_append_comm.append_left _
  · constructor
    · rw [elements_append, met.elements]
      exact congrArg _ own
    · exact (due_append _ _ span).trans (met.due.append_right _)

end Builder

def startTags (ls : List Lexeme) : List (Tag × Position) :=
  ls.filterMap fun l =>
    match l.token with
    | .startTag tag => some (tag, l.span.start)
    | _ => none

/-- The starts that belong to elements which continue no condition. -/
def lackingStarts (starts : List Position) (elements : List (Option Node × Node)) : List Position :=
  ((starts.zip elements).filter (lacks ·.2)).map (·.1)

theorem lackingStarts_concat {starts : List Position} {elements : List (Option Node × Node)}
    (length : starts.length = elements.length) (start : Position) (e : Option Node × Node) :
    lackingStarts (starts ++ [start]) (elements ++ [e]) =
      lackingStarts starts elements ++ if lacks e then [start] else [] := by
  rw [lackingStarts, List.zip_append length, List.filter_append, List.map_append,
    List.zip_cons_cons, List.zip_nil_left, List.filter_singleton]
  cases lacks e <;> rfl

/-- The elements are those of the start tags, and where those begin that lack a condition was or
will be reported. -/
structure Builder.Accounts (d : Delimiters) (tags : List (Tag × Position)) (b : Builder) :
    Prop where
  nodes : b.elements.map (·.2) = tags.map (Node.ofTag d ·.1)
  due : b.due.Perm (lackingStarts (tags.map (·.2)) b.elements)

namespace Builder.Accounts

variable {d : Delimiters} {o : Options} {tags : List (Tag × Position)} {b b' : Builder}

theorem keeps (h : b.Accounts d tags) (kept : b.Keeps b') : b'.Accounts d tags := by
  refine ⟨kept.elements ▸ h.nodes, ?_⟩
  rw [kept.elements]
  exact kept.due.trans h.due

theorem openElement (h : b.Accounts o.delimiters tags) (tag : Tag) (span : Span) :
    (b.openElement o tag span).Accounts o.delimiters (tags ++ [(tag, span.start)]) := by
  obtain ⟨elements, due⟩ := b.openElement_adds o tag span
  have length : (tags.map (·.2)).length = b.elements.length := by
    have same := congrArg List.length h.nodes
    rw [List.length_map, List.length_map] at same
    rw [List.length_map, same]
  constructor
  · rw [elements, List.map_append, h.nodes, List.map_append]
    rfl
  · rw [elements, List.map_append]
    refine due.trans ?_
    rw [List.map_singleton, lackingStarts_concat length]
    exact h.due.append_right _

theorem step (h : b.Accounts o.delimiters tags) {l : Lexeme}
    (lexical : ∀ f ∈ l.faults, f.kind.isLexical = true) :
    (Builder.step o b l).Accounts o.delimiters (tags ++ startTags [l]) := by
  have met : b.Keeps { b with faults := b.faults ++ l.faults } := by
    refine .met fun f mem same => ?_
    have kind := lexical f mem
    rw [same] at kind
    cases kind
  have start := h.keeps met
  unfold Builder.step startTags
  dsimp only [List.filterMap_cons, List.filterMap_nil]
  cases l.token with
  | startTag tag => exact (start.keeps (.flush o)).openElement tag l.span
  | endTag name =>
    rw [List.append_nil]
    exact start.keeps ((Keeps.flush o).trans (.closeElement name l.span))
  | text t =>
    rw [List.append_nil]
    exact start.keeps ⟨rfl, .refl _⟩
  | interpolation t =>
    rw [List.append_nil]
    exact start.keeps ⟨rfl, .refl _⟩
  | comment s =>
    rw [List.append_nil]
    exact start

theorem run (h : b.Accounts o.delimiters tags) {ls : List Lexeme}
    (lexical : ∀ l ∈ ls, ∀ f ∈ l.faults, f.kind.isLexical = true) :
    (ls.foldl (Builder.step o) b).Accounts o.delimiters (tags ++ startTags ls) := by
  induction ls generalizing b tags with
  | nil => exact (List.append_nil tags).symm ▸ h
  | cons l ls ih =>
    obtain ⟨first, later⟩ := List.forall_mem_cons.mp lexical
    have parts : startTags (l :: ls) = startTags [l] ++ startTags ls :=
      List.filterMap_append (l := [l])
    rw [parts, ← List.append_assoc]
    exact ih (h.step first) later

end Builder.Accounts

/-- All that is built accounts for the start tags, and nothing is still to be reported. -/
theorem accounts_built (o : Options) (source : String) :
    let tags := startTags ((Dialect.template o.delimiters).lexemes source)
    let elements := elementsOf (Node.placedAll none (built o source).roots)
    elements.map (·.2) = tags.map (Node.ofTag o.delimiters ·.1) ∧
      (built o source).reported.Perm (lackingStarts (tags.map (·.2)) elements) := by
  intro tags elements
  have start : ({} : Builder).Accounts o.delimiters [] := ⟨rfl, .refl _⟩
  have read := start.run fun l (listed : l ∈ (Dialect.template o.delimiters).lexemes source) =>
    Markup.lexical_of_mem_lexemes listed
  have done : (built o source).Accounts o.delimiters tags :=
    read.keeps ((Builder.Keeps.flush o).trans (.closeMissing _ _))
  have opened : (built o source).opened = [] := Builder.opened_finish _ o _
  have all : (built o source).elements = elements := by
    rw [Builder.elements, opened]
    rfl
  obtain ⟨nodes, due⟩ := done
  rw [Builder.due, opened, waitingOpen, List.append_nil] at due
  rw [all] at nodes due
  exact ⟨nodes, due⟩

/-- Blank texts are no elements, and what comes after them comes after what is before them. -/
theorem placedAll_blank {ns : List Node} (blank : ∀ n ∈ ns, n.isBlankText = true)
    (bare : ∀ n ∈ ns, n.tag = none ∧ n.children = []) (previous : Option Node) :
    elementsOf (Node.placedAll previous ns) = [] ∧ ns.foldl follow previous = previous := by
  induction ns with
  | nil => exact ⟨rfl, rfl⟩
  | cons n ns ih =>
    obtain ⟨first, later⟩ := List.forall_mem_cons.mp blank
    obtain ⟨⟨tag, children⟩, bare⟩ := List.forall_mem_cons.mp bare
    have same : follow previous n = previous := if_pos first
    rw [Node.placedAll, Node.elementsOf_append, Node.elementsOf_placed_of_bare tag children,
      List.foldl_cons, same]
    exact ih later bare

/-- The elements of the tree are those of all that is built. -/
theorem elements_parse (o : Options) (source : String) :
    (parse o source).node.elements = elementsOf (Node.placedAll none (built o source).roots) := by
  obtain ⟨before, after, parts, blank, bare⟩ := exists_ends o source
  obtain ⟨blank, blank'⟩ := List.forall_mem_append.mp blank
  obtain ⟨bare, bare'⟩ := List.forall_mem_append.mp bare
  obtain ⟨front, same⟩ := placedAll_blank blank bare none
  have rear (previous : Option Node) : elementsOf (Node.placedAll previous after) = [] :=
    (placedAll_blank blank' bare' previous).1
  conv_rhs =>
    rw [parts, Node.placedAll_append, Node.elementsOf_append, rear, Node.placedAll_append,
      Node.elementsOf_append, front, same, List.append_nil, List.nil_append]
  rfl

theorem length_lackingStarts {starts : List Position} {elements : List (Option Node × Node)}
    (length : starts.length = elements.length) :
    (lackingStarts starts elements).length = (elements.filter lacks).length := by
  have all : (starts.zip elements).map (·.2) = elements :=
    List.map_snd_zip (Nat.le_of_eq length.symm)
  conv_rhs => rw [← all, List.filter_map, List.length_map]
  rw [lackingStarts, List.length_map]
  rfl

/-- Whether conditions are continued rightly is judged exactly. The elements of the tree are those
of the start tags in the order of the text. One fault is reported for each element that continues a
condition where the nearest sibling before it that is no blank text is not there or neither begins
nor continues one; and these faults begin where the start tags of these elements begin. -/
theorem else_faults_exact (o : Options) (source : String) :
    let tags := startTags ((Dialect.template o.delimiters).lexemes source)
    let elements := (parse o source).node.elements
    let faults := (parse o source).faults.filter (·.kind == .elseNoAdjacentIf)
    List.Forall₂ (fun tag e => e.2.Tells o.delimiters tag.1) tags elements ∧
      faults.length = (elements.filter lacks).length ∧
      (faults.map (·.span.start)).Perm (lackingStarts (tags.map (·.2)) elements) := by
  intro tags elements faults
  obtain ⟨nodes, reported⟩ := accounts_built o source
  rw [← elements_parse] at nodes reported
  have length : (tags.map (·.2)).length = elements.length := by
    have same := congrArg List.length nodes
    rw [List.length_map, List.length_map] at same
    rw [List.length_map, same]
  refine ⟨?_, ?_, reported⟩
  · have shown : List.Forall₂ (fun tag (n : Node) => n.Tells o.delimiters tag.1) tags
        (elements.map (·.2)) := by
      rw [nodes, List.forall₂_map_right_iff]
      refine List.forall₂_same.mpr fun tag mem => Node.tells_ofTag _ ?_
      obtain ⟨l, listed, start⟩ := List.mem_filterMap.mp mem
      split at start
      · next token =>
        cases start
        exact Markup.proper_of_mem_lexemes listed token
      · cases start
    exact List.forall₂_map_right_iff.mp shown
  · have count := reported.length_eq
    rw [length_lackingStarts length] at count
    exact (List.length_map _).symm.trans count

end ComponentLoader.Template
