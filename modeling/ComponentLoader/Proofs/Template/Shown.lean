import Mathlib
import ComponentLoader.Proofs.Template.Elements
import ComponentLoader.Proofs.Template.Preorder

/-! The tree of a template loses nothing. Every node of the walk over it tells an item of the text,
and only blank texts at the two ends of the template have no node. -/
namespace ComponentLoader.Template

open Markup (Delimiters Dialect Tag Token)

/-- The node tells, without its children, what the item is: a start tag with its attributes, or a
text of which nothing is lost. -/
inductive Item.Shown (d : Delimiters) : Item → Node → Prop
  | element {tag : Tag} {n : Node} (tells : n.Tells d tag) : Shown d (.element tag) n
  | text {run : List Piece} {e : Expr} (conveys : e.Conveys d run) :
    Shown d (.text run) { text := some e }

def Item.Blank : Item → Prop
  | .element _ => False
  | .text run =>
    ∀ p ∈ run, ∃ t, p = .literal t ∧ ∀ c ∈ t.toList, c ∈ [' ', '\t', '\n', '\x0c', '\r']

def Item.node (d : Delimiters) : Item → Node
  | .element tag => Node.ofTag d tag
  | .text run => { text := some (.ofPieces d run) }

/-- An item whose node is a blank text is a blank text. -/
theorem Item.Shown.blank {d : Delimiters} {i : Item} {n : Node} (shown : i.Shown d n)
    (blank : n.isBlankText = true) : i.Blank := by
  unfold Node.isBlankText at blank
  cases shown with
  | element tells =>
    rw [tells.text] at blank
    cases blank
  | @text run e conveys =>
    cases e with
    | string v =>
      refine conveys.chars fun c hc => ?_
      have space : Text.isMarkupSpace c = true := List.all_eq_true.mp blank c hc
      simpa [Text.isMarkupSpace, or_assoc] using space
    | _ => cases blank

end ComponentLoader.Template
