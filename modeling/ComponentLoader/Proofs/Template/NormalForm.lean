import ComponentLoader.Proofs.Template.Loops
import ComponentLoader.Proofs.Template.Spacing
import ComponentLoader.Proofs.Template.Subtrees
import ComponentLoader.Proofs.Template.TextEdges

/-! The form of every tree that is read: what a node is, what the expressions in it are, and which
nodes are next to each other. -/
namespace ComponentLoader.Template

open Markup (Delimiters Dialect Tag isVoidElement)

def Expr.isString : Expr → Bool
  | .string _ => true
  | _ => false

/-- Of two expressions next to each other one is no literal text. -/
def Expr.Parted (es : List Expr) : Prop :=
  es.IsChain fun e e' => ¬ (e.isString = true ∧ e'.isString = true)

/-- A sequence has several segments. These are interpolations and literal texts that are not empty,
and no two literal texts are next to each other. -/
def Expr.Normal : Expr → Prop
  | .text es => 2 ≤ es.length ∧ (∀ e ∈ es, e.IsSegment) ∧ Expr.Parted es
  | _ => True

def Node.exprs (n : Node) : List Expr :=
  n.text.toList ++ n.properties.map (·.expr) ++ n.events.map (·.expr) ++
    n.directives.entries.filterMap (·.2.value)

/-- The node is a text and nothing more, or an element with a name. A void element, whatever the
case of its name, has no children. -/
structure Node.Normal (n : Node) : Prop where
  kind : (∃ e, n = { text := some e }) ∨ ∃ name, n.tag = some name ∧ name ≠ "" ∧ n.text = none ∧
    (isVoidElement (name.map Char.toLower) = true → n.children = [])
  exprs : ∀ e ∈ n.exprs, e.Normal

variable {d : Delimiters} {ps : List Piece} {e : Expr} {es : List Expr}

namespace Expr

theorem IsSegment.normal (segment : e.IsSegment) : e.Normal := by
  cases e with
  | text es => cases segment
  | _ => trivial

/-- Literal text that comes before segments joins the first of them if that is literal. -/
theorem parted_segments (d : Delimiters) (ps : List Piece) : Parted (segments d ps) := by
  induction ps with
  | nil => exact .nil
  | cons p ps ih =>
    cases p with
    | interpolation s =>
      obtain ⟨expr, filters, read⟩ := exists_ofInterpolation d s.toList
      rw [segments, read]
      exact List.isChain_cons.mpr ⟨fun _ _ both => Bool.noConfusion both.1, ih⟩
    | literal t =>
      rw [segments]
      split
      · exact ih
      · split
        · next more exprs joined =>
          rw [joined] at ih
          obtain ⟨next, rest⟩ := List.isChain_cons.mp ih
          exact List.isChain_cons.mpr ⟨fun e first both => next e first ⟨rfl, both.2⟩, rest⟩
        · next other =>
          refine List.isChain_cons.mpr ⟨fun e first both => ?_, ih⟩
          obtain ⟨es, whole⟩ := List.head?_eq_some_iff.mp first
          cases e with
          | string v => exact other v es whole
          | _ => cases both.2

theorem normal_ofSegments (segment : ∀ e ∈ es, e.IsSegment) (parted : Parted es) :
    (ofSegments es).Normal := by
  match es with
  | [] => trivial
  | [e] => exact (segment e List.mem_cons_self).normal
  | e :: e' :: es => exact ⟨Nat.le_add_left 2 es.length, segment, parted⟩

theorem normal_ofPieces (d : Delimiters) (ps : List Piece) : (ofPieces d ps).Normal :=
  normal_ofSegments (fun _ => isSegment_of_mem_segments) (parted_segments d ps)

end Expr

theorem Property.normal_read (d : Delimiters) (name : String) (value : Option String) :
    (Property.read d name value).expr.Normal := by
  cases value with
  | none => trivial
  | some v => exact Expr.normal_ofPieces d _

/-- What a directive says is code. -/
theorem Directive.normal_read {name : String} {value : Option String} {directive : Directive}
    (read : Directive.read name value = .ok directive) (said : directive.value = some e) :
    e.Normal := by
  unfold Directive.read at read
  dsimp only at read
  split at read
  · split at read
    · cases read
    · next v _ =>
      cases loop : Directive.ofLoop? v with
      | none =>
        rw [loop] at read
        cases read
      | some directive =>
        rw [loop] at read
        cases read
        obtain ⟨names, source, -, -, rfl⟩ := Loop.ofLoop?_eq_some_iff.mp loop
        cases said
        trivial
  · split at read
    · cases read
    · cases read
      obtain ⟨v, -, rfl⟩ := Option.map_eq_some_iff.mp said
      trivial

namespace Node

theorem normal_ofPieces (d : Delimiters) (ps : List Piece) :
    Normal { text := some (.ofPieces d ps) } where
  kind := .inl ⟨_, rfl⟩
  exprs := List.forall_mem_singleton.mpr (Expr.normal_ofPieces d ps)

/-- Each expression of an element is read from an attribute. -/
theorem normal_of_mem_exprs {tag : Tag} (proper : tag.Proper)
    (mem : e ∈ (Node.ofTag d tag).exprs) : e.Normal := by
  obtain ⟨ps, es, ds, entries, -, -, -, properties, events, directives, same⟩ :=
    (tells_ofTag d proper).attributes
  simp only [exprs, List.mem_append, List.mem_map, List.mem_filterMap] at mem
  rcases mem with ((text | ⟨p, listed, rfl⟩) | ⟨event, listed, rfl⟩) | ⟨entry, listed, said⟩
  · cases text
  · obtain ⟨a, -, rfl, -⟩ := exists_of_mem_right properties listed
    exact Property.normal_read d a.name a.value
  · obtain ⟨a, -, read, -⟩ := exists_of_mem_right events listed
    rw [read]
    trivial
  · obtain ⟨a, -, read, -⟩ := exists_of_mem_right directives (same.mem_iff.mpr listed)
    cases result : Directive.read entry.1 a.value with
    | error kind =>
      rw [read, result] at said
      cases said
    | ok directive =>
      rw [read, result] at said
      exact Directive.normal_read result said

theorem normal_ofTag {tag : Tag} (proper : tag.Proper) {children : List Node}
    (none : isVoidElement (tag.name.map Char.toLower) = true → children = []) :
    Normal { Node.ofTag d tag with children } where
  kind := .inr ⟨tag.name, rfl, proper.named, rfl, none⟩
  exprs := fun _ => normal_of_mem_exprs proper

end Node

/-- The tree of a template is in normal form. Every node but the root is a text and nothing more, or
an element with a name; a sequence of expressions has several segments, none of them an empty text
and no two texts of them next to each other. The elements stem from the start tags, so that those of
self-closing tags and void elements have no children. Unless an end tag is at fault, no two texts
are next to each other. -/
theorem normal_form (o : Options) (source : String) :
    (∀ n ∈ (parse o source).node.children, n.Everywhere Node.Normal) ∧
    List.Forall₂ (fun tag n => n.Stems o.delimiters tag.1)
      (startTags ((Dialect.template o.delimiters).lexemes source))
      (elementsIn (parse o source).node.children) ∧
    ((∀ f ∈ (parse o source).faults, f.kind ≠ .invalidEndTag) → (parse o source).node.Spaced) := by
  refine ⟨fun n mem => ?_, stems_parse o source, spaced_parse o source⟩
  refine everywhere_built o source (Node.normal_ofPieces o.delimiters) ?_ ?_ n
    (mem_of_mem_dropBlankEnds mem)
  · intro tag proper opens children
    refine Node.normal_ofTag proper fun isVoid => ?_
    rw [opens_eq_false_iff.mpr (.inr isVoid)] at opens
    cases opens
  · intro tag proper _
    exact Node.of_withChildren (Node.normal_ofTag proper fun _ => rfl)

/-- A comment and a lone bracket leave one text, and a void element parts two. -/
theorem spaced_around_break :
    (∀ f ∈ (parse {} "<p>a<!-- -->b < c<br>d</p>e").faults, f.kind ≠ .invalidEndTag) ∧
      (parse {} "<p>a<!-- -->b < c<br>d</p>e").node.Spaced := by
  have valid : ∀ f ∈ (parse {} "<p>a<!-- -->b < c<br>d</p>e").faults, f.kind ≠ .invalidEndTag := by
    decide +kernel
  exact ⟨valid, (normal_form {} _).2.2 valid⟩

end ComponentLoader.Template
