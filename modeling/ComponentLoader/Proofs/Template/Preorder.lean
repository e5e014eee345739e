import ComponentLoader.Proofs.Template.Balance
import ComponentLoader.Proofs.Template.Trimming
import Mathlib.Data.List.Forall2

/-! The tree of a template in the order of its text. The walk over a tree in the making takes
the finished nodes and then the open elements from the outermost, each before its
children. Ending an element moves it to where the walk already had it, so only a start tag
and the end of a text add to the walk, each the node that it is read as. -/
namespace ComponentLoader.Template

open Markup (Delimiters Dialect Lexeme Tag Token)

mutual

/-- A node without its children, and then those in the same way. -/
def Node.preorder : Node → List Node
  | ⟨tag, text, properties, events, directives, children⟩ =>
    ⟨tag, text, properties, events, directives, []⟩ :: Node.preorderAll children

def Node.preorderAll : List Node → List Node
  | [] => []
  | n :: rest => n.preorder ++ Node.preorderAll rest

end

theorem Node.preorderAll_eq (ns : List Node) : preorderAll ns = ns.flatMap preorder := by
  induction ns with
  | nil => rfl
  | cons n ns ih => rw [preorderAll, ih, List.flatMap_cons]

theorem Node.preorder_eq (n : Node) :
    n.preorder = { n with children := [] } :: n.children.flatMap preorder := by
  cases n
  rw [preorder, preorderAll_eq]

theorem Node.flatMap_preorder {ns : List Node} (childless : ∀ n ∈ ns, n.children = []) :
    ns.flatMap preorder = ns := by
  induction ns with
  | nil => rfl
  | cons n ns ih =>
    have alone : n.preorder = [n] := by
      have none := childless n List.mem_cons_self
      rw [preorder_eq, none, List.flatMap_nil, ← none]
      cases n
      rfl
    rw [List.flatMap_cons, alone, ih fun m hm => childless m (List.mem_cons_of_mem n hm)]
    rfl

/-- What a template says in the order of its text: elements, and texts of pieces. -/
inductive Item where
  | element (tag : Tag)
  | text (run : List Piece)

def Item.ofRun (run : List Piece) : List Item := if run = [] then [] else [.text run]

/-- The items of tokens that come after the given pieces of a text. A text goes on to the next tag,
and comments leave no trace. -/
def items (run : List Piece) : List Token → List Item
  | [] => Item.ofRun run
  | .startTag tag :: rest => Item.ofRun run ++ .element tag :: items [] rest
  | .endTag _ :: rest => Item.ofRun run ++ items [] rest
  | .text t :: rest => items (run ++ [.literal t]) rest
  | .interpolation t :: rest => items (run ++ [.interpolation t]) rest
  | .comment _ :: rest => items run rest

/-- The nodes that an item is read as: of a text none where it is left out. -/
def Item.nodes (t : Trim) (d : Delimiters) : Item → List Node
  | .element tag => [Node.ofTag d tag]
  | .text run => (t.pieces? run).toList.map (.ofPieces d)

namespace Builder

variable (b : Builder) (t : Trim) (d : Delimiters)

def walk : List Node :=
  b.roots.flatMap Node.preorder ++ b.opened.reverse.flatMap (·.node.preorder)

theorem walk_push (n : Node) : (b.push n).walk = b.walk ++ n.preorder := by
  unfold push
  split
  · next opened =>
    unfold walk
    simp only [opened, List.reverse_nil, List.flatMap_nil, List.append_nil, List.flatMap_append,
      List.flatMap_singleton]
  · next e outer opened =>
    unfold walk
    simp only [opened, List.reverse_cons, List.flatMap_append, List.flatMap_singleton,
      Node.preorder_eq e.node, Node.preorder_eq { e.node with children := _ }, List.cons_append,
      List.append_assoc]

theorem walk_append (n : Node) (span : Span) : (b.append n span).walk = b.walk ++ n.preorder := by
  unfold append
  dsimp only
  split
  · exact walk_push _ n
  · exact walk_push b n

/-- The last of the open elements is where the walk ends, and is added there when it ends. -/
theorem walk_closeInnermost (stop : Position) : (b.closeInnermost stop).walk = b.walk := by
  unfold closeInnermost
  split
  · rfl
  · next e outer opened =>
    rw [walk_append]
    unfold walk
    simp only [opened, List.reverse_cons, List.flatMap_append, List.flatMap_singleton,
      List.append_assoc]

theorem walk_closeMissing (stop : Position) (n : Nat) : (closeMissing stop n b).walk = b.walk :=
  closeMissing_induction (Q := fun b' => b'.walk = b.walk) (fun _ _ same => same)
    (fun b' stop same => (walk_closeInnermost b' stop).trans same) stop n rfl

theorem walk_closeElement (name : String) (span : Span) :
    (b.closeElement name span).walk = b.walk := by
  unfold closeElement
  split
  · rfl
  · rw [walk_closeInnermost, walk_closeMissing]

theorem walk_openElement (o : Options) (tag : Tag) (span : Span) :
    (b.openElement o tag span).walk = b.walk ++ [Node.ofTag o.delimiters tag] := by
  have single : (Node.ofTag o.delimiters tag).preorder = [Node.ofTag o.delimiters tag] :=
    Node.preorder_eq _
  unfold openElement
  dsimp only
  split
  · unfold walk
    simp only [List.reverse_cons, List.flatMap_append, List.flatMap_singleton, single,
      List.append_assoc]
  · rw [walk_append, single]
    rfl

theorem walk_foldl_push (ns : List Node) :
    (ns.foldl push b).walk = b.walk ++ ns.flatMap Node.preorder := by
  induction ns generalizing b with
  | nil => exact (List.append_nil _).symm
  | cons n ns ih => rw [List.foldl_cons, ih, walk_push, List.flatMap_cons, List.append_assoc]

theorem walk_flush :
    (b.flush ⟨t, d⟩).walk = b.walk ++ (Item.ofRun b.pending).flatMap (Item.nodes t d) := by
  have childless : ∀ n ∈ (t.pieces? b.pending).toList.map (Node.ofPieces d), n.children = [] := by
    intro n hn
    obtain ⟨run, -, rfl⟩ := List.mem_map.mp hn
    rfl
  have shown : (Item.ofRun b.pending).flatMap (Item.nodes t d) =
      (t.pieces? b.pending).toList.map (.ofPieces d) := by
    cases b.pending with
    | nil => rfl
    | cons p ps => exact List.flatMap_singleton _ _
  rw [flush_eq, walk_foldl_push, Node.flatMap_preorder childless, shown]
  rfl

/-! Only the tokens of a text add to the text that is being read, and only its end empties it. -/

theorem pending_push (n : Node) : (b.push n).pending = b.pending := by
  unfold push
  split <;> rfl

theorem pending_append (n : Node) (span : Span) : (b.append n span).pending = b.pending := by
  unfold append
  dsimp only
  split
  · exact pending_push _ n
  · exact pending_push b n

theorem pending_flush (o : Options) : (b.flush o).pending = [] := by
  unfold flush
  dsimp only
  split
  · rfl
  · exact pending_push _ _

theorem pending_closeInnermost (stop : Position) :
    (b.closeInnermost stop).pending = b.pending := by
  unfold closeInnermost
  split
  · rfl
  · exact pending_append _ _ _

theorem pending_closeMissing (stop : Position) (n : Nat) :
    (closeMissing stop n b).pending = b.pending :=
  closeMissing_induction (Q := fun b' => b'.pending = b.pending) (fun _ _ same => same)
    (fun b' stop same => (pending_closeInnermost b' stop).trans same) stop n rfl

theorem pending_closeElement (name : String) (span : Span) :
    (b.closeElement name span).pending = b.pending := by
  unfold closeElement
  split
  · rfl
  · exact (pending_closeInnermost _ _).trans (pending_closeMissing b _ _)

theorem pending_openElement (o : Options) (tag : Tag) (span : Span) :
    (b.openElement o tag span).pending = b.pending := by
  unfold openElement
  dsimp only
  split
  · rfl
  · exact pending_append _ _ _

/-- What has been walked and the items that are still to come stay the same from step to step. -/
theorem walk_step (l : Lexeme) (rest : List Token) :
    (step ⟨t, d⟩ b l).walk ++ (items (step ⟨t, d⟩ b l).pending rest).flatMap (Item.nodes t d) =
      b.walk ++ (items b.pending (l.token :: rest)).flatMap (Item.nodes t d) := by
  have met : walk { b with faults := b.faults ++ l.faults } = b.walk := rfl
  unfold step
  dsimp only
  cases token : l.token with
  | startTag tag =>
    dsimp only
    rw [walk_openElement, walk_flush, pending_openElement, pending_flush, met, items,
      List.flatMap_append, List.append_assoc, List.append_assoc]
    rfl
  | endTag name =>
    dsimp only
    rw [walk_closeElement, walk_flush, pending_closeElement, pending_flush, met, items,
      List.flatMap_append, List.append_assoc]
  | text t => rfl
  | interpolation t => rfl
  | comment s => rfl

theorem walk_run (ls : List Lexeme) :
    (ls.foldl (step ⟨t, d⟩) b).walk ++
        (Item.ofRun (ls.foldl (step ⟨t, d⟩) b).pending).flatMap (Item.nodes t d) =
      b.walk ++ (items b.pending (ls.map (·.token))).flatMap (Item.nodes t d) := by
  induction ls generalizing b with
  | nil => rfl
  | cons l ls ih => exact (ih _).trans (walk_step b t d l _)

/-- Where the text ends the walk is one over the nodes outside of elements. -/
theorem walk_finish (stop : Position) :
    (b.finish ⟨t, d⟩ stop).roots.flatMap Node.preorder =
      b.walk ++ (Item.ofRun b.pending).flatMap (Item.nodes t d) := by
  have walked := walk_closeMissing (b.flush ⟨t, d⟩) stop (b.flush ⟨t, d⟩).opened.length
  rw [walk_flush] at walked
  rw [← walked]
  show _ = (b.finish ⟨t, d⟩ stop).walk
  rw [walk, opened_finish, List.reverse_nil, List.flatMap_nil, List.append_nil]

end Builder

theorem exists_dropBlankEnds (nodes : List Node) :
    ∃ before after, nodes = before ++ dropBlankEnds nodes ++ after ∧
      ∀ n ∈ before ++ after, n.isBlankText = true := by
  refine ⟨nodes.takeWhile Node.isBlankText,
    ((nodes.dropWhile Node.isBlankText).reverse.takeWhile Node.isBlankText).reverse, ?_, ?_⟩
  · rw [dropBlankEnds, List.append_assoc, ← List.reverse_append, List.takeWhile_append_dropWhile,
      List.reverse_reverse, List.takeWhile_append_dropWhile]
  · intro n hn
    rcases List.mem_append.mp hn with hn | hn
    · exact List.all_eq_true.mp List.all_takeWhile n hn
    · exact List.all_eq_true.mp List.all_takeWhile n (List.mem_reverse.mp hn)

/-- A text that is read has pieces. -/
theorem run_ne_nil_of_mem_items {run whole : List Piece} {tokens : List Token}
    (listed : .text whole ∈ items run tokens) : whole ≠ [] := by
  have filled {run : List Piece} (listed : .text whole ∈ Item.ofRun run) : whole ≠ [] := by
    unfold Item.ofRun at listed
    split at listed
    · cases listed
    · next some =>
      obtain rfl := Item.text.inj (List.mem_singleton.mp listed)
      exact some
  induction tokens generalizing run with
  | nil => exact filled listed
  | cons token tokens ih =>
    cases token with
    | startTag tag =>
      rcases List.mem_append.mp listed with own | _ | ⟨_, listed⟩
      · exact filled own
      · exact ih listed
    | endTag name => exact (List.mem_append.mp listed).elim filled ih
    | text t => exact ih listed
    | interpolation t => exact ih listed
    | comment s => exact ih listed

/-- The walk over all that is built has the nodes of all items. -/
theorem walk_built (t : Trim) (d : Delimiters) (source : String) :
    (built ⟨t, d⟩ source).roots.flatMap Node.preorder =
      (items [] (((Dialect.template d).lexemes source).map (·.token))).flatMap (Item.nodes t d) :=
  (Builder.walk_finish _ t d _).trans (Builder.walk_run {} t d _)

theorem exists_forall₂_append {α β : Type} {R : α → β → Prop} {as : List α} {bs cs : List β}
    (h : List.Forall₂ R as (bs ++ cs)) :
    ∃ as₁ as₂, as = as₁ ++ as₂ ∧ List.Forall₂ R as₁ bs ∧ List.Forall₂ R as₂ cs :=
  ⟨_, _, (List.take_append_drop bs.length as).symm, List.forall₂_take_append _ _ _ h,
    List.forall₂_drop_append _ _ _ h⟩

/-- A blank text is no element and has no children, as no text is one or has any. -/
theorem bare_of_blank (o : Options) (source : String) {n : Node}
    (listed : n ∈ (built o source).roots) (blank : n.isBlankText = true) :
    n.tag = none ∧ n.children = [] := by
  have bare := everywhere_built o source
    (P := fun n => n.isText = true → n.tag = none ∧ n.children = [])
    (fun _ _ => ⟨rfl, rfl⟩) (fun _ _ _ _ => nofun) (fun _ _ _ => nofun)
  refine bare n listed n (.root n) ?_
  unfold Node.isBlankText at blank
  split at blank
  · next text => rw [Node.isText, text, Option.isSome_some]
  · cases blank

/-- All that is built is the children of the root, with blank texts at either end that hold
nothing. -/
theorem exists_ends (o : Options) (source : String) :
    ∃ before after : List Node,
      (built o source).roots = before ++ (parse o source).node.children ++ after ∧
      (∀ n ∈ before ++ after, n.isBlankText = true) ∧
      ∀ n ∈ before ++ after, n.tag = none ∧ n.children = [] := by
  obtain ⟨before, after, parts, blank⟩ := exists_dropBlankEnds (built o source).roots
  refine ⟨before, after, parts, blank, fun n mem => bare_of_blank o source ?_ (blank n mem)⟩
  rw [parts]
  rcases List.mem_append.mp mem with mem | mem
  · exact List.mem_append_left _ (List.mem_append_left _ mem)
  · exact List.mem_append_right _ mem

/-- The walk over all that is built is the walk over the children of the root, with the blank texts
that are dropped at its ends. -/
theorem walk_parse (o : Options) (source : String) :
    ∃ before after : List Node, (∀ n ∈ before ++ after, n.isBlankText = true) ∧
      (built o source).roots.flatMap Node.preorder =
        before ++ Node.preorderAll (parse o source).node.children ++ after := by
  obtain ⟨before, after, parts, blank, bare⟩ := exists_ends o source
  refine ⟨before, after, blank, ?_⟩
  rw [parts, List.flatMap_append, List.flatMap_append,
    Node.flatMap_preorder fun n hn => (bare n (List.mem_append_left _ hn)).2,
    Node.flatMap_preorder fun n hn => (bare n (List.mem_append_right _ hn)).2,
    ← Node.preorderAll_eq]

end ComponentLoader.Template
