import ComponentLoader.Proofs.Template.ElseFaults
import Mathlib.Data.List.Forall2

/-! The elements of the tree, each with all that it holds, are those of the start tags. Children are
added to open elements only, and a self-closing tag or that of a void element opens none. -/
namespace ComponentLoader.Template

open Markup (Delimiters Dialect Lexeme Tag Token isVoidElement)

mutual

/-- A node with its children, and then those in the same way. -/
def Node.subtrees : Node → List Node
  | ⟨tag, text, properties, events, directives, children⟩ =>
    ⟨tag, text, properties, events, directives, children⟩ :: Node.subtreesAll children

def Node.subtreesAll : List Node → List Node
  | [] => []
  | n :: rest => n.subtrees ++ Node.subtreesAll rest

end

/-- The elements among nodes and all that these hold, in the order of the text. -/
def elementsIn (ns : List Node) : List Node := (Node.subtreesAll ns).filter (·.tag.isSome)

/-- The node is the element of the tag. It has no children where the tag is self-closing or that of
a void element, whatever the case of its name. -/
structure Node.Stems (d : Delimiters) (tag : Tag) (n : Node) : Prop where
  own : n = { Node.ofTag d tag with children := n.children }
  childless : tag.selfClosing = true ∨ isVoidElement (tag.name.map Char.toLower) = true →
    n.children = []

theorem opens_eq_false_iff {tag : Tag} : tag.opens = false ↔
    tag.selfClosing = true ∨ isVoidElement (tag.name.map Char.toLower) = true := by
  simp [Tag.opens, Decidable.imp_iff_not_or]

theorem Node.subtrees_eq (n : Node) : n.subtrees = n :: subtreesAll n.children := by
  cases n
  rw [subtrees]

theorem Node.subtreesAll_append (ms ns : List Node) :
    subtreesAll (ms ++ ns) = subtreesAll ms ++ subtreesAll ns := by
  induction ms with
  | nil => rfl
  | cons m ms ih => rw [List.cons_append, subtreesAll, ih, subtreesAll, List.append_assoc]

theorem elementsIn_append (ms ns : List Node) :
    elementsIn (ms ++ ns) = elementsIn ms ++ elementsIn ns := by
  rw [elementsIn, Node.subtreesAll_append, List.filter_append]
  rfl

theorem elementsIn_cons (n : Node) (ns : List Node) :
    elementsIn (n :: ns) =
      (if n.tag.isSome then [n] else []) ++ elementsIn n.children ++ elementsIn ns := by
  rw [elementsIn, Node.subtreesAll, Node.subtrees_eq, List.cons_append, List.filter_cons,
    List.filter_append]
  split <;> rfl

/-- Texts are no elements and hold none. -/
theorem elementsIn_of_bare {ns : List Node} (bare : ∀ n ∈ ns, n.tag = none ∧ n.children = []) :
    elementsIn ns = [] := by
  induction ns with
  | nil => rfl
  | cons n ns ih =>
    obtain ⟨⟨tag, children⟩, bare⟩ := List.forall_mem_cons.mp bare
    rw [elementsIn_cons, tag, children, ih bare]
    rfl

def doneIn (ns : List Node) : List (Bool × Node) := (elementsIn ns).map (false, ·)

/-- The elements of a tree in the making, the open ones marked, in the order of the text. -/
def grownOpen (roots : List Node) : List OpenElement → List (Bool × Node)
  | [] => doneIn roots
  | e :: outer => grownOpen roots outer ++ (true, e.node) :: doneIn e.node.children

def Stands (d : Delimiters) (tag : Tag × Position) : Bool × Node → Prop
  | (waits, n) => n = { Node.ofTag d tag.1 with children := n.children } ∧
      (tag.1.opens = false → waits = false ∧ n.children = [])

/-- The elements so far are those of the tags. -/
def Builder.Grows (d : Delimiters) (tags : List (Tag × Position)) (b : Builder) : Prop :=
  List.Forall₂ (Stands d) tags (grownOpen b.roots b.opened)

variable {d : Delimiters} {o : Options} {tags inner : List (Tag × Position)} {b : Builder}
  {n : Node}

theorem doneIn_append (ms ns : List Node) : doneIn (ms ++ ns) = doneIn ms ++ doneIn ns := by
  rw [doneIn, elementsIn_append, List.map_append]
  rfl

theorem doneIn_element (element : n.tag.isSome = true) :
    doneIn [n] = (false, n) :: doneIn n.children := by
  rw [doneIn, elementsIn_cons, if_pos element]
  exact congrArg (List.map _) (List.append_nil _)

/-- An open element takes children. -/
theorem Stands.withChildren {tag : Tag × Position} (h : Stands d tag (true, n))
    (children : List Node) : Stands d tag (true, { n with children }) := by
  refine ⟨?_, fun alone => absurd (h.2 alone).1 Bool.noConfusion⟩
  rw [h.1]

theorem Stands.ended {tag : Tag × Position} (h : Stands d tag (true, n)) :
    Stands d tag (false, n) :=
  ⟨h.1, fun alone => absurd (h.2 alone).1 Bool.noConfusion⟩

namespace Builder.Grows

variable (h : b.Grows d tags)

include h

theorem push (own : List.Forall₂ (Stands d) inner (doneIn [n])) :
    (b.push n).Grows d (tags ++ inner) := by
  unfold Grows at h
  unfold Grows Builder.push
  split
  · next opened =>
    rw [opened] at h ⊢
    rw [grownOpen, doneIn_append]
    exact List.rel_append h own
  · next e outer opened =>
    rw [opened, grownOpen] at h
    obtain ⟨before, last, rfl, outside, waiting⟩ := exists_forall₂_append h
    cases waiting with
    | cons stands children =>
      rw [grownOpen, doneIn_append, List.append_assoc]
      exact List.rel_append outside (.cons (stands.withChildren _)
        (List.rel_append children own))

theorem append (own : List.Forall₂ (Stands d) inner (doneIn [n])) (span : Span) :
    (b.append n span).Grows d (tags ++ inner) := by
  obtain ⟨faults, added⟩ := b.exists_append n span
  have met : Grows d tags { b with faults } := h
  rw [added]
  exact met.push own

theorem flush (o : Options) : (b.flush o).Grows d tags := by
  have emptied : Grows d tags { b with pending := [] } := h
  unfold Builder.flush
  dsimp only
  split
  · exact emptied
  · rw [← List.append_nil tags]
    exact emptied.push .nil

/-- An element that ends is where it was, and is open no more. -/
theorem closeInnermost (stop : Position) : (b.closeInnermost stop).Grows d tags := by
  unfold Builder.closeInnermost
  split
  · exact h
  · next e outer opened =>
    unfold Grows at h
    rw [opened, grownOpen] at h
    -- The last tags are that of the element and those of all in it, which the element takes along.
    obtain ⟨before, last, rfl, outside, waiting⟩ := exists_forall₂_append h
    have around : Grows d before { b with opened := outer } := outside
    refine around.append ?_ _
    cases waiting with
    | cons stands children =>
      have element : e.node.tag.isSome = true := by rw [stands.1]; rfl
      rw [doneIn_element element]
      exact .cons stands.ended children

theorem closeMissing (stop : Position) (k : Nat) :
    (Builder.closeMissing stop k b).Grows d tags :=
  closeMissing_induction (fun _ _ h => h) (fun _ stop h => h.closeInnermost stop) stop k h

theorem closeElement (name : String) (span : Span) : (b.closeElement name span).Grows d tags := by
  unfold Builder.closeElement
  split
  · exact h
  · exact (h.closeMissing span.stop _).closeInnermost span.stop

omit h in
theorem openElement (h : b.Grows o.delimiters tags) (tag : Tag) (span : Span) :
    (b.openElement o tag span).Grows o.delimiters (tags ++ [(tag, span.start)]) := by
  have met : Grows o.delimiters tags { b with faults := b.faults ++ directiveFaults tag } := h
  unfold Builder.openElement
  dsimp only
  split
  · next opens =>
    refine List.rel_append h (.cons ⟨rfl, fun alone => ?_⟩ .nil)
    rw [opens] at alone
    cases alone
  · exact met.append (.cons ⟨rfl, fun _ => ⟨rfl, rfl⟩⟩ .nil) span

omit h in
theorem step (h : b.Grows o.delimiters tags) (l : Lexeme) :
    (Builder.step o b l).Grows o.delimiters (tags ++ startTags [l]) := by
  have met : Grows o.delimiters tags { b with faults := b.faults ++ l.faults } := h
  unfold Builder.step startTags
  dsimp only [List.filterMap_cons, List.filterMap_nil]
  cases l.token with
  | startTag tag => exact (met.flush o).openElement tag l.span
  | endTag name =>
    rw [List.append_nil]
    exact (met.flush o).closeElement name l.span
  | text t =>
    rw [List.append_nil]
    exact h
  | interpolation t =>
    rw [List.append_nil]
    exact h
  | comment s =>
    rw [List.append_nil]
    exact met

omit h in
theorem run (h : b.Grows o.delimiters tags) (ls : List Lexeme) :
    (ls.foldl (Builder.step o) b).Grows o.delimiters (tags ++ startTags ls) := by
  induction ls generalizing b tags with
  | nil => exact (List.append_nil tags).symm ▸ h
  | cons l ls ih =>
    have parts : startTags (l :: ls) = startTags [l] ++ startTags ls :=
      List.filterMap_append (l := [l])
    rw [parts, ← List.append_assoc]
    exact ih (h.step l)

end Builder.Grows

/-- The elements of all that is built stem from the start tags, one from each. -/
theorem stems_built (o : Options) (source : String) :
    List.Forall₂ (fun tag n => n.Stems o.delimiters tag.1)
      (startTags ((Dialect.template o.delimiters).lexemes source))
      (elementsIn (built o source).roots) := by
  have start : ({} : Builder).Grows o.delimiters [] := .nil
  have read := start.run ((Dialect.template o.delimiters).lexemes source)
  have done : (built o source).Grows o.delimiters _ := (read.flush o).closeMissing _ _
  have opened : (built o source).opened = [] := Builder.opened_finish _ o _
  unfold Builder.Grows at done
  rw [opened, grownOpen, doneIn, List.forall₂_map_right_iff] at done
  exact done.imp fun tag n stands =>
    ⟨stands.1, fun alone => (stands.2 (opens_eq_false_iff.mpr alone)).2⟩

/-- The elements of the tree stem from the start tags, one from each, in the order of the text. -/
theorem stems_parse (o : Options) (source : String) :
    List.Forall₂ (fun tag n => n.Stems o.delimiters tag.1)
      (startTags ((Dialect.template o.delimiters).lexemes source))
      (elementsIn (parse o source).node.children) := by
  obtain ⟨before, after, parts, -, bare⟩ := exists_ends o source
  obtain ⟨front, rear⟩ := List.forall_mem_append.mp bare
  have all := stems_built o source
  rw [parts, elementsIn_append, elementsIn_append, elementsIn_of_bare front,
    elementsIn_of_bare rear, List.nil_append, List.append_nil] at all
  exact all

end ComponentLoader.Template
