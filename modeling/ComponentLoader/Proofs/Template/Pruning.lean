import ComponentLoader.Proofs.Template.Trimming

/-! Leaving out blank texts. A template that is read without them gives the tree that is left where
they are taken out of the whole one, and the same faults: what decides about faults are the names of
the open elements and the siblings that are no blank texts, and of these nothing is taken. -/
namespace ComponentLoader.Template

open Markup (Delimiters Dialect Fault Lexeme Tag)

mutual

/-- The node without the blank texts in it, at any depth. -/
def Node.pruned : Node → Node
  | ⟨tag, text, properties, events, directives, children⟩ =>
    ⟨tag, text, properties, events, directives, Node.prune children⟩

def Node.prune : List Node → List Node
  | [] => []
  | n :: rest => if n.isBlankText then Node.prune rest else n.pruned :: Node.prune rest

end

namespace Node

theorem pruned_eq (n : Node) : n.pruned = { n with children := prune n.children } := by
  cases n
  rw [pruned]

@[simp] theorem isBlankText_pruned (n : Node) : n.pruned.isBlankText = n.isBlankText := by
  rw [pruned_eq]
  rfl

@[simp] theorem continuesCondition_pruned (n : Node) :
    n.pruned.continuesCondition = n.continuesCondition := by
  rw [pruned_eq]
  rfl

@[simp] theorem opensCondition_pruned (n : Node) :
    n.pruned.opensCondition = n.opensCondition := by
  rw [pruned_eq]
  rfl

/-- A node without children stays as it is. -/
theorem pruned_of_children_eq_nil {n : Node} (h : n.children = []) : n.pruned = n := by
  rw [pruned_eq, h, prune]
  cases n
  exact congrArg (Node.mk _ _ _ _ _) h.symm

theorem prune_eq (ns : List Node) : prune ns = (ns.filter (!·.isBlankText)).map pruned := by
  induction ns with
  | nil => rfl
  | cons n ns ih =>
    rw [prune, ih]
    cases blank : n.isBlankText <;> simp [blank]

theorem prune_append (ns ms : List Node) : prune (ns ++ ms) = prune ns ++ prune ms := by
  simp only [prune_eq, List.filter_append, List.map_append]

theorem prune_blank {n : Node} (h : n.isBlankText = true) : prune [n] = [] := by
  rw [prune, if_pos h, prune]

theorem prune_shown {n : Node} (h : n.isBlankText = false) : prune [n] = [n.pruned] := by
  rw [prune, h, prune]
  rfl

/-- The nearest sibling before that is no blank text stays the nearest. -/
theorem find?_prune (ns : List Node) :
    (prune ns).reverse.find? (!·.isBlankText) =
      (ns.reverse.find? (!·.isBlankText)).map pruned := by
  rw [prune_eq, ← List.map_reverse, ← List.filter_reverse, List.find?_map, List.find?_filter]
  congr 2
  funext n
  simp

/-- Of what is left nothing is blank, so the ends of the whole nodes play no part. -/
theorem prune_dropBlankEnds (ns : List Node) : prune (dropBlankEnds ns) = prune ns := by
  have front (ns : List Node) : prune (ns.dropWhile isBlankText) = prune ns := by
    induction ns with
    | nil => rfl
    | cons n ns ih =>
      cases blank : n.isBlankText with
      | true => rw [List.dropWhile_cons_of_pos blank, ih, prune, if_pos blank]
      | false => rw [List.dropWhile_cons_of_neg (by simp [blank])]
  have reversed (ns : List Node) : prune ns.reverse = (prune ns).reverse := by
    simp only [prune_eq, List.filter_reverse, List.map_reverse]
  rw [dropBlankEnds, reversed, front, reversed, List.reverse_reverse, front]

theorem dropBlankEnds_prune (ns : List Node) : dropBlankEnds (prune ns) = prune ns := by
  have shown : ∀ n ∈ prune ns, n.isBlankText = false := by
    intro n mem
    rw [prune_eq] at mem
    obtain ⟨m, kept, rfl⟩ := List.mem_map.mp mem
    simpa using (List.mem_filter.mp kept).2
  have whole {ms : List Node} (h : ∀ n ∈ ms, n.isBlankText = false) :
      ms.dropWhile isBlankText = ms := by
    cases ms with
    | nil => rfl
    | cons m ms => exact List.dropWhile_cons_of_neg (by simp [h m List.mem_cons_self])
  have back : ∀ n ∈ (prune ns).reverse, n.isBlankText = false :=
    fun n mem => shown n (List.mem_reverse.mp mem)
  rw [dropBlankEnds, whole shown, whole back, List.reverse_reverse]

end Node

variable {d : Delimiters}

theorem segments_of_blank {run : List Piece} (h : run.all Builder.isBlankPiece = true) :
    segments d run = [] ∨ ∃ v, segments d run = [.string v] ∧ Text.isBlank v = true := by
  induction run with
  | nil => exact .inl rfl
  | cons p run ih =>
    rw [List.all_cons, Bool.and_eq_true] at h
    obtain ⟨blank, rest⟩ := h
    cases p with
    | interpolation s => cases blank
    | literal s =>
      have blank : Text.isBlank s = true := blank
      rw [segments]
      split
      · exact ih rest
      · rcases ih rest with none | ⟨v, one, blank'⟩
        · rw [none]
          exact .inr ⟨s, rfl, blank⟩
        · rw [one]
          refine .inr ⟨s ++ v, rfl, ?_⟩
          unfold Text.isBlank at blank blank' ⊢
          rw [String.toList_append, List.all_append, blank, blank']
          rfl

/-- A text is blank where all its pieces are, and only there. -/
theorem isBlankText_ofPieces (run : List Piece) :
    (Node.ofPieces d run).isBlankText = run.all Builder.isBlankPiece := by
  cases blank : run.all Builder.isBlankPiece with
  | true =>
    unfold Node.isBlankText Node.ofPieces Expr.ofPieces
    rcases segments_of_blank (d := d) blank with none | ⟨v, one, blank⟩
    · rw [none]
      rfl
    · rw [one]
      exact blank
  | false =>
    apply Bool.eq_false_iff.mpr
    intro text
    rw [blank_of_ofPieces text] at blank
    cases blank

def OpenElement.pruned (e : OpenElement) : OpenElement := { e with node := e.node.pruned }

namespace Builder

def pruned (b : Builder) : Builder :=
  { b with opened := b.opened.map OpenElement.pruned, roots := Node.prune b.roots }

theorem siblings_pruned (b : Builder) : b.pruned.siblings = Node.prune b.siblings := by
  obtain ⟨opened, roots, run, faults⟩ := b
  cases opened with
  | nil => rfl
  | cons e outer =>
    change e.node.pruned.children = Node.prune e.node.children
    rw [Node.pruned_eq]

theorem push_pruned (b : Builder) (n : Node) :
    (b.push n).pruned = (Node.prune [n]).foldl push b.pruned := by
  obtain ⟨opened, roots, run, faults⟩ := b
  rw [foldl_push]
  cases opened with
  | nil => simp [push, pruned, Node.prune_append]
  | cons e outer => simp [push, pruned, OpenElement.pruned, Node.pruned_eq, Node.prune_append]

theorem append_pruned (b : Builder) {n : Node} (shown : n.isBlankText = false) (span : Span) :
    (b.append n span).pruned = b.pruned.append n.pruned span := by
  have previous : ((b.pruned.siblings.reverse.find? (!·.isBlankText)).any Node.opensCondition) =
      (b.siblings.reverse.find? (!·.isBlankText)).any Node.opensCondition := by
    rw [siblings_pruned, Node.find?_prune, Option.any_map]
    simp only [Node.opensCondition_pruned]
  unfold append
  dsimp only
  rw [previous, Node.continuesCondition_pruned]
  split
  · rw [push_pruned, Node.prune_shown shown]
    rfl
  · rw [push_pruned, Node.prune_shown shown]
    rfl

theorem flush_pruned (b : Builder) : b.pruned.flush ⟨.blank, d⟩ = (b.flush ⟨.keep, d⟩).pruned := by
  cases run : b.pending with
  | nil =>
    unfold flush
    rw [run, show b.pruned.pending = [] from run]
    rfl
  | cons p ps =>
    have kept : b.flush ⟨.keep, d⟩ =
        ({ b with pending := [] } : Builder).push (.ofPieces d b.pending) := by
      unfold flush
      rw [run]
      rfl
    have shown : b.pruned.flush ⟨.blank, d⟩ =
        if b.pending.all isBlankPiece then { b.pruned with pending := [] }
        else ({ b.pruned with pending := [] } : Builder).push (.ofPieces d b.pending) := by
      unfold flush
      rw [show b.pruned.pending = b.pending from rfl, run]
      rfl
    rw [shown, kept, push_pruned]
    split
    · next blank =>
      rw [← isBlankText_ofPieces (d := d)] at blank
      rw [Node.prune_blank blank]
      rfl
    · next text =>
      rw [← isBlankText_ofPieces (d := d), Bool.not_eq_true] at text
      rw [Node.prune_shown text, Node.pruned_of_children_eq_nil rfl]
      rfl

theorem openElement_pruned (b : Builder) (tag : Tag) (span : Span) :
    b.pruned.openElement ⟨.blank, d⟩ tag span = (b.openElement ⟨.keep, d⟩ tag span).pruned := by
  have alone : (Node.ofTag d tag).pruned = Node.ofTag d tag :=
    Node.pruned_of_children_eq_nil rfl
  unfold openElement
  dsimp only
  split
  · simp [pruned, OpenElement.pruned, alone]
  · rw [append_pruned _ (Node.not_isBlankText rfl), alone]
    rfl

/-- Two trees in the making, the second without the blank texts of the first. -/
structure Prunes (d : Delimiters) (b b' : Builder) : Prop extends Trims .blank d b b' where
  same : b' = b.pruned

namespace Prunes

variable {b b' : Builder} (h : b.Prunes d b')

include h

theorem met (faults : List Fault) :
    Prunes d { b with faults := b.faults ++ faults } { b' with faults := b'.faults ++ faults } := by
  refine ⟨h.withFaults _ _, ?_⟩
  rw [h.same]
  rfl

theorem read (p : Piece) :
    Prunes d { b with pending := b.pending ++ [p] } { b' with pending := b'.pending ++ [p] } := by
  refine ⟨⟨h.opened, h.roots, ?_⟩, ?_⟩
  · rw [h.pending]
  · rw [h.same]
    rfl

theorem closeInnermost (stop : Position) :
    (b.closeInnermost stop).Prunes d (b'.closeInnermost stop) := by
  refine ⟨h.toTrims.closeInnermost stop, ?_⟩
  have opens := h.opened
  rw [h.same]
  obtain ⟨opened, roots, run, faults⟩ := b
  cases opened with
  | nil => rfl
  | cons e outer =>
    obtain ⟨e', outer', first, -, -⟩ := List.forall₂_cons_left_iff.mp opens
    exact (append_pruned ⟨outer, roots, run, faults⟩ (Node.not_isBlankText first.element) _).symm

theorem closeMissing (stop : Position) (n : Nat) :
    (Builder.closeMissing stop n b).Prunes d (Builder.closeMissing stop n b') := by
  induction n generalizing b b' with
  | zero => exact h
  | succ n ih =>
    have next (span : Span) := ih ((h.met [{ kind := .missingEndTag, span }]).closeInnermost stop)
    obtain ⟨opened, roots, run, faults⟩ := b
    obtain rfl := h.same
    cases opened with
    | nil => exact h
    | cons e outer => exact next ⟨e.start, stop⟩

theorem closeElement (name : String) (span : Span) :
    (b.closeElement name span).Prunes d (b'.closeElement name span) := by
  have found : b'.opened.findIdx? (Text.sameIgnoringCase ·.name name) =
      b.opened.findIdx? (Text.sameIgnoringCase ·.name name) := by
    rw [h.same]
    exact List.findIdx?_map
  unfold Builder.closeElement
  rw [found]
  split
  · exact h.met [{ kind := .invalidEndTag, span }]
  · exact (h.closeMissing span.stop _).closeInnermost span.stop

theorem flush : (b.flush ⟨.keep, d⟩).Prunes d (b'.flush ⟨.blank, d⟩) := by
  refine ⟨h.toTrims.flush, ?_⟩
  rw [h.same]
  exact flush_pruned b

theorem openElement (tag : Tag) (span : Span) :
    (b.openElement ⟨.keep, d⟩ tag span).Prunes d (b'.openElement ⟨.blank, d⟩ tag span) := by
  refine ⟨h.toTrims.openElement tag span, ?_⟩
  rw [h.same]
  exact openElement_pruned b tag span

/-- One lexeme is read in the same way, whether blank texts are kept or not. -/
theorem step (l : Lexeme) :
    (Builder.step ⟨.keep, d⟩ b l).Prunes d (Builder.step ⟨.blank, d⟩ b' l) := by
  have met := h.met l.faults
  unfold Builder.step
  cases l.token with
  | startTag tag => exact met.flush.openElement tag l.span
  | endTag name => exact met.flush.closeElement name l.span
  | text s => exact met.read (.literal s)
  | interpolation s => exact met.read (.interpolation s)
  | comment s => exact met

theorem run (ls : List Lexeme) :
    (ls.foldl (Builder.step ⟨.keep, d⟩) b).Prunes d
      (ls.foldl (Builder.step ⟨.blank, d⟩) b') := by
  induction ls generalizing b b' with
  | nil => exact h
  | cons l ls ih => exact ih (h.step l)

theorem finish (stop : Position) :
    (b.finish ⟨.keep, d⟩ stop).Prunes d (b'.finish ⟨.blank, d⟩ stop) := by
  have flushed := h.flush
  unfold Builder.finish
  dsimp only
  rw [← flushed.opened.length_eq]
  exact flushed.closeMissing stop _

end Prunes

end Builder

/-- What is read without blank texts is what is read with them, but for these. -/
theorem built_pruned (d : Delimiters) (source : String) :
    built ⟨.blank, d⟩ source = (built ⟨.keep, d⟩ source).pruned := by
  have start : ({} : Builder).Prunes d {} := ⟨⟨.nil, .nil, rfl⟩, rfl⟩
  exact ((start.run _).finish _).same

/-- The tree that is read without blank texts is the whole tree with every blank text taken out of
it, and its faults are those of the whole tree. -/
theorem blank_trim_prunes (d : Delimiters) (source : String) :
    (parse ⟨.blank, d⟩ source).node = (parse ⟨.keep, d⟩ source).node.pruned ∧
      (parse ⟨.blank, d⟩ source).faults = (parse ⟨.keep, d⟩ source).faults := by
  rw [parse_eq, parse_eq, built_pruned]
  constructor
  · rw [Node.pruned_eq]
    change ({ children := dropBlankEnds (Node.prune _) } : Node) =
      { children := Node.prune (dropBlankEnds _) }
    rw [Node.dropBlankEnds_prune, Node.prune_dropBlankEnds]
  · rfl

end ComponentLoader.Template
