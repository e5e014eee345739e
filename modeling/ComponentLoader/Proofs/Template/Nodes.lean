import ComponentLoader.Proofs.Markup.StartTags
import ComponentLoader.Template.Root

/-! What holds of every node of a template. A node is a text on its own or the element of
a start tag, to which children are added while the element is open. So what holds of
these, whatever the children of an element that is opened, holds of every node in the
tree. -/
namespace ComponentLoader.Template

open Markup (Dialect Lexeme Tag Token)

namespace Node

/-- The nodes of a tree: its root, and the nodes of the trees of its children. -/
inductive Inside : Node → Node → Prop
  | root (n : Node) : Inside n n
  | child {m c n : Node} (here : c ∈ n.children) (within : Inside m c) : Inside m n

theorem Inside.trans {k m n : Node} (first : k.Inside m) (last : m.Inside n) : k.Inside n := by
  induction last with
  | root => exact first
  | child here within ih => exact .child here ih

/-- Whatever holds of a node if it holds of its children holds of every node. -/
theorem induction {motive : Node → Prop} (step : ∀ n, (∀ c ∈ n.children, motive c) → motive n)
    (n : Node) : motive n := by
  refine Node.rec (motive_1 := motive) (motive_2 := fun cs => ∀ c ∈ cs, motive c) ?_ ?_ ?_ n
  · exact fun _ _ _ _ _ _ children => step _ children
  · exact fun _ => nofun
  · intro c cs first rest k hk
    rcases List.mem_cons.mp hk with rfl | hk
    · exact first
    · exact rest k hk

/-- `P` holds of every node of the tree. -/
def Everywhere (P : Node → Prop) (n : Node) : Prop := ∀ m, m.Inside n → P m

variable {P : Node → Prop} {n : Node}

theorem everywhere_iff : n.Everywhere P ↔ P n ∧ ∀ c ∈ n.children, c.Everywhere P := by
  constructor
  · intro h
    exact ⟨h n (.root n), fun c here m within => h m (.child here within)⟩
  · rintro ⟨own, children⟩ m within
    cases within with
    | root => exact own
    | child here within => exact children _ here m within

/-- A node has the children that it has. -/
theorem of_withChildren
    (h : P ⟨n.tag, n.text, n.properties, n.events, n.directives, n.children⟩) : P n := by
  cases n
  exact h

theorem Everywhere.inside {m : Node} (h : n.Everywhere P) (within : m.Inside n) : m.Everywhere P :=
  fun _ deeper => h _ (deeper.trans within)

end Node

variable {P : Node → Prop} {b : Builder} {o : Options} {span : Span} {stop : Position}

/-- What reporting a missing end tag and ending an element leave as it is, ending all the elements
that lack end tags leaves as it is. -/
theorem Builder.closeMissing_induction {Q : Builder → Prop}
    (report : ∀ b span, Q b → Q (b.report .missingEndTag span))
    (close : ∀ b stop, Q b → Q (b.closeInnermost stop)) (stop : Position) (n : Nat)
    {b : Builder} (h : Q b) : Q (closeMissing stop n b) := by
  induction n generalizing b with
  | zero => exact h
  | succ n ih =>
    unfold Builder.closeMissing
    split
    · exact h
    · exact ih (close _ stop (report b _ h))

/-- `P` holds in all nodes that are in their places, and will hold of the open elements, whatever
their children come to be. -/
structure Builder.Holds (P : Node → Prop) (b : Builder) : Prop where
  roots : ∀ n ∈ b.roots, n.Everywhere P
  elements : ∀ e ∈ b.opened, ∀ children, P { e.node with children }
  children : ∀ e ∈ b.opened, ∀ n ∈ e.node.children, n.Everywhere P

namespace Builder.Holds

variable (h : b.Holds P)

include h

theorem push {n : Node} (own : n.Everywhere P) : (b.push n).Holds P := by
  have either {ns : List Node} (all : ∀ m ∈ ns, m.Everywhere P) :
      ∀ m ∈ ns ++ [n], m.Everywhere P := by
    intro m hm
    rcases List.mem_append.mp hm with hm | hm
    · exact all m hm
    · obtain rfl := List.mem_singleton.mp hm
      exact own
  unfold Builder.push
  split
  · exact ⟨either h.roots, h.elements, h.children⟩
  · next e outer opened =>
    have elements := h.elements
    have children := h.children
    rw [opened] at elements children
    refine ⟨h.roots, ?_, ?_⟩
    · intro k hk
      rcases List.mem_cons.mp hk with rfl | hk
      · exact elements e List.mem_cons_self
      · exact elements k (List.mem_cons_of_mem e hk)
    · intro k hk
      rcases List.mem_cons.mp hk with rfl | hk
      · exact either (children e List.mem_cons_self)
      · exact children k (List.mem_cons_of_mem e hk)

theorem append {n : Node} (own : n.Everywhere P) (span : Span) : (b.append n span).Holds P := by
  have reported : (b.report .elseNoAdjacentIf span).Holds P := ⟨h.roots, h.elements, h.children⟩
  unfold Builder.append
  dsimp only
  split
  · exact reported.push own
  · exact h.push own

theorem flush (texts : ∀ ps, P { text := some (.ofPieces o.delimiters ps) }) :
    (b.flush o).Holds P := by
  have emptied : Holds P { b with pending := [] } := ⟨h.roots, h.elements, h.children⟩
  unfold Builder.flush
  dsimp only
  split
  · exact emptied
  · exact emptied.push (Node.everywhere_iff.mpr ⟨texts _, nofun⟩)

theorem closeInnermost (stop : Position) : (b.closeInnermost stop).Holds P := by
  unfold Builder.closeInnermost
  split
  · exact h
  · next e outer opened =>
    have elements := h.elements
    have children := h.children
    rw [opened] at elements children
    have outside : Holds P { b with opened := outer } :=
      ⟨h.roots, fun k hk => elements k (List.mem_cons_of_mem e hk),
        fun k hk => children k (List.mem_cons_of_mem e hk)⟩
    have own : P e.node :=
      Node.of_withChildren (elements e List.mem_cons_self e.node.children)
    exact outside.append (Node.everywhere_iff.mpr ⟨own, children e List.mem_cons_self⟩) _

theorem closeMissing (stop : Position) (n : Nat) : (Builder.closeMissing stop n b).Holds P :=
  closeMissing_induction (fun _ _ h => ⟨h.roots, h.elements, h.children⟩)
    (fun _ stop h => h.closeInnermost stop) stop n h

theorem openElement {tag : Tag}
    (opens : tag.opens = true → ∀ children, P { Node.ofTag o.delimiters tag with children })
    (alone : tag.opens = false → P (Node.ofTag o.delimiters tag)) (span : Span) :
    (b.openElement o tag span).Holds P := by
  have met : Holds P { b with faults := b.faults ++ directiveFaults tag } :=
    ⟨h.roots, h.elements, h.children⟩
  unfold Builder.openElement
  dsimp only
  split
  · next waits =>
    refine ⟨h.roots, ?_, ?_⟩
    · intro k hk
      rcases List.mem_cons.mp hk with rfl | hk
      · exact opens waits
      · exact h.elements k hk
    · intro k hk
      rcases List.mem_cons.mp hk with rfl | hk
      · exact nofun
      · exact h.children k hk
  · next ends => exact met.append (Node.everywhere_iff.mpr ⟨alone (by simpa using ends), nofun⟩) _

theorem closeElement (name : String) (span : Span) : (b.closeElement name span).Holds P := by
  unfold Builder.closeElement
  split
  · exact ⟨h.roots, h.elements, h.children⟩
  · exact (h.closeMissing span.stop _).closeInnermost span.stop

theorem step (texts : ∀ ps, P { text := some (.ofPieces o.delimiters ps) }) {l : Lexeme}
    (opens : ∀ tag, l.token = .startTag tag → tag.opens = true →
      ∀ children, P { Node.ofTag o.delimiters tag with children })
    (alone : ∀ tag, l.token = .startTag tag → tag.opens = false → P (Node.ofTag o.delimiters tag)) :
    (Builder.step o b l).Holds P := by
  have met : Holds P { b with faults := b.faults ++ l.faults } := ⟨h.roots, h.elements, h.children⟩
  unfold Builder.step
  dsimp only
  split
  · next tag token =>
    exact (met.flush texts).openElement (opens tag token) (alone tag token) l.span
  · next name token => exact (met.flush texts).closeElement name l.span
  · exact ⟨h.roots, h.elements, h.children⟩
  · exact ⟨h.roots, h.elements, h.children⟩
  · exact met

theorem run (texts : ∀ ps, P { text := some (.ofPieces o.delimiters ps) }) {ls : List Lexeme}
    (opens : ∀ l ∈ ls, ∀ tag, l.token = .startTag tag → tag.opens = true →
      ∀ children, P { Node.ofTag o.delimiters tag with children })
    (alone : ∀ l ∈ ls, ∀ tag, l.token = .startTag tag → tag.opens = false →
      P (Node.ofTag o.delimiters tag)) : (ls.foldl (Builder.step o) b).Holds P := by
  induction ls generalizing b with
  | nil => exact h
  | cons l ls ih =>
    have first := h.step texts (opens l List.mem_cons_self) (alone l List.mem_cons_self)
    exact ih first (fun k hk => opens k (List.mem_cons_of_mem l hk))
      fun k hk => alone k (List.mem_cons_of_mem l hk)

end Builder.Holds

theorem mem_of_mem_dropBlankEnds {nodes : List Node} {n : Node} (h : n ∈ dropBlankEnds nodes) :
    n ∈ nodes := by
  unfold dropBlankEnds at h
  exact (List.dropWhile_sublist _).subset
    (List.mem_reverse.mp ((List.dropWhile_sublist _).subset (List.mem_reverse.mp h)))

variable (o : Options) (source : String)

def built : Builder :=
  let ls := (Dialect.template o.delimiters).lexemes source
  (ls.foldl (Builder.step o) {}).finish o ((ls.getLast?.map (·.span.stop)).getD .start)

theorem parse_eq : parse o source =
    ⟨{ children := dropBlankEnds (built o source).roots }, (built o source).faults⟩ := rfl

/-- What holds of texts and of the elements of the start tags of a text holds of every node that
is built. -/
theorem everywhere_built (texts : ∀ ps, P { text := some (.ofPieces o.delimiters ps) })
    (opens : ∀ tag : Tag, tag.Proper → tag.opens = true →
      ∀ children, P { Node.ofTag o.delimiters tag with children })
    (alone : ∀ tag : Tag, tag.Proper → tag.opens = false → P (Node.ofTag o.delimiters tag)) :
    ∀ n ∈ (built o source).roots, n.Everywhere P := by
  have start : ({} : Builder).Holds P := ⟨nofun, nofun, nofun⟩
  have read := start.run texts
    (fun l (hl : l ∈ (Dialect.template o.delimiters).lexemes source) tag token =>
      opens tag (Markup.proper_of_mem_lexemes hl token))
    (fun l hl tag token => alone tag (Markup.proper_of_mem_lexemes hl token))
  exact ((read.flush texts).closeMissing _ _).roots

end ComponentLoader.Template
