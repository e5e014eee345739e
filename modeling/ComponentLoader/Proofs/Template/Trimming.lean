import ComponentLoader.Proofs.Template.Nodes
import Mathlib.Data.List.Forall2

/-! What trimming does to a tree. With and without it a template is read in the same steps, which
build trees that differ in their texts alone. Each text has the same pieces in both, of which
trimming takes the white space at the ends, or which it leaves out. -/
namespace ComponentLoader.Template

open Markup (Delimiters Dialect Fault Lexeme Tag)

def Node.ofPieces (d : Delimiters) (run : List Piece) : Node := { text := some (.ofPieces d run) }

/-- The pieces of the text that pieces are read as, if there is one. -/
def Trim.pieces? (t : Trim) (run : List Piece) : Option (List Piece) :=
  if run.isEmpty || (t ≠ .keep && run.all Builder.isBlankPiece) then none
  else some (if t = .all then Builder.trimEnds run else run)

theorem Trim.pieces?_keep {run : List Piece} (filled : run ≠ []) :
    Trim.pieces? .keep run = some run := by
  simp [pieces?, filled]

/-- The second nodes are the first with the texts in them trimmed. -/
inductive Trimmed (t : Trim) (d : Delimiters) : List Node → List Node → Prop
  | nil : Trimmed t d [] []
  | text {run : List Piece} {ns ms : List Node} (filled : run ≠ []) (rest : Trimmed t d ns ms) :
      Trimmed t d (.ofPieces d run :: ns) ((t.pieces? run).toList.map (.ofPieces d) ++ ms)
  | element {n : Node} {cs ns ms : List Node} (element : n.isText = false)
      (inner : Trimmed t d n.children cs) (rest : Trimmed t d ns ms) :
      Trimmed t d (n :: ns) ({ n with children := cs } :: ms)

variable {t : Trim} {d : Delimiters}

namespace Trimmed

variable {ns ns' ms ms' : List Node}

theorem append (first : Trimmed t d ns ms) (last : Trimmed t d ns' ms') :
    Trimmed t d (ns ++ ns') (ms ++ ms') := by
  induction first with
  | nil => exact last
  | text filled rest ih =>
    rw [List.append_assoc]
    exact .text filled ih
  | element element inner rest _ ih => exact .element element inner ih

/-- Where all space is kept nothing changes. -/
theorem eq_of_keep (h : Trimmed .keep d ns ms) : ms = ns := by
  induction h with
  | nil => rfl
  | @text run ns ms filled rest ih =>
    rw [Trim.pieces?_keep filled, ih]
    rfl
  | @element n cs ns ms element inner rest first ih =>
    rw [first, ih]
    cases n
    rfl

end Trimmed

/-- An element that is open in two trees, with its children trimmed in the second. -/
structure OpenElement.Trims (t : Trim) (d : Delimiters) (e e' : OpenElement) : Prop where
  name : e'.name = e.name
  start : e'.start = e.start
  element : e.node.isText = false
  node : ∃ cs, e'.node = { e.node with children := cs } ∧ Trimmed t d e.node.children cs

theorem OpenElement.map_name {es es' : List OpenElement}
    (h : List.Forall₂ (OpenElement.Trims t d) es es') : es'.map (·.name) = es.map (·.name) := by
  induction h with
  | nil => rfl
  | cons same rest ih => rw [List.map_cons, List.map_cons, same.name, ih]

namespace Builder

/-- Two trees in the making, the second with its texts trimmed. The faults may differ. -/
structure Trims (t : Trim) (d : Delimiters) (b b' : Builder) : Prop where
  opened : List.Forall₂ (OpenElement.Trims t d) b.opened b'.opened
  roots : Trimmed t d b.roots b'.roots
  pending : b'.pending = b.pending

/-- Several nodes are added to the same siblings. -/
theorem foldl_push (ms : List Node) (b : Builder) :
    ms.foldl push b = { b with
      roots := if b.opened = [] then b.roots ++ ms else b.roots
      opened := b.opened.modifyHead fun e =>
        { e with node := { e.node with children := e.node.children ++ ms } } } := by
  induction ms generalizing b with
  | nil =>
    obtain ⟨opened, roots, run, faults⟩ := b
    cases opened with
    | nil => simp
    | cons e outer =>
      obtain ⟨name, node, start⟩ := e
      cases node
      simp
  | cons m ms ih =>
    obtain ⟨opened, roots, run, faults⟩ := b
    rw [List.foldl_cons, ih]
    cases opened <;> simp [push]

/-- A text that has been read is added as the text of its pieces, if any are left. -/
theorem flush_eq (b : Builder) (t : Trim) (d : Delimiters) :
    b.flush ⟨t, d⟩ =
      ((t.pieces? b.pending).toList.map (.ofPieces d)).foldl push { b with pending := [] } := by
  unfold flush Trim.pieces?
  dsimp only
  split <;> rfl

theorem exists_append (b : Builder) (n : Node) (span : Span) :
    ∃ faults, b.append n span = ({ b with faults } : Builder).push n := by
  unfold append
  dsimp only
  split
  · exact ⟨_, rfl⟩
  · exact ⟨_, rfl⟩

namespace Trims

variable {b b' : Builder} (h : b.Trims t d b')

include h

theorem withFaults (faults faults' : List Fault) :
    Trims t d { b with faults } { b' with faults := faults' } :=
  ⟨h.opened, h.roots, h.pending⟩

/-- A node is added on one side, and what it is trimmed to on the other. -/
theorem push {n : Node} {ms : List Node} (node : Trimmed t d [n] ms) :
    (b.push n).Trims t d (ms.foldl Builder.push b') := by
  obtain ⟨opened, roots, run, faults⟩ := b
  obtain ⟨opened', roots', run', faults'⟩ := b'
  rw [foldl_push]
  cases h.opened with
  | nil => exact ⟨.nil, h.roots.append node, h.pending⟩
  | cons same outer =>
    obtain ⟨cs, whole, inner⟩ := same.node
    refine ⟨.cons ?_ outer, h.roots, h.pending⟩
    refine ⟨same.name, same.start, same.element, cs ++ ms, ?_, inner.append node⟩
    dsimp only
    rw [whole]

theorem append {n m : Node} (node : Trimmed t d [n] [m]) (span span' : Span) :
    (b.append n span).Trims t d (b'.append m span') := by
  obtain ⟨faults, added⟩ := exists_append b n span
  obtain ⟨faults', added'⟩ := exists_append b' m span'
  rw [added, added']
  exact (h.withFaults faults faults').push node

/-- The text that has been read is added in trimmed form. -/
theorem flush : (b.flush ⟨.keep, d⟩).Trims t d (b'.flush ⟨t, d⟩) := by
  have emptied : Trims t d { b with pending := [] } { b' with pending := [] } :=
    ⟨h.opened, h.roots, rfl⟩
  rw [flush_eq b' t d, h.pending]
  cases run : b.pending with
  | nil =>
    unfold Builder.flush
    rw [run]
    exact emptied
  | cons p ps =>
    have text : Trimmed t d [.ofPieces d (p :: ps)] _ := .text (List.cons_ne_nil p ps) .nil
    rw [List.append_nil] at text
    unfold Builder.flush
    rw [run]
    exact emptied.push text

theorem closeInnermost (stop : Position) :
    (b.closeInnermost stop).Trims t d (b'.closeInnermost stop) := by
  obtain ⟨opened, roots, run, faults⟩ := b
  obtain ⟨opened', roots', run', faults'⟩ := b'
  cases h.opened with
  | nil => exact h
  | @cons e e' outer outer' same rest =>
    obtain ⟨cs, whole, inner⟩ := same.node
    have outside : Trims t d ⟨outer, roots, run, faults⟩ ⟨outer', roots', run', faults'⟩ :=
      ⟨rest, h.roots, h.pending⟩
    have node : Trimmed t d [e.node] [e'.node] := by
      rw [whole]
      exact .element same.element inner .nil
    exact outside.append node ⟨e.start, stop⟩ ⟨e'.start, stop⟩

theorem closeMissing (stop : Position) (n : Nat) :
    (Builder.closeMissing stop n b).Trims t d (Builder.closeMissing stop n b') := by
  induction n generalizing b b' with
  | zero => exact h
  | succ n ih =>
    obtain ⟨opened, roots, run, faults⟩ := b
    obtain ⟨opened', roots', run', faults'⟩ := b'
    have opens := h.opened
    cases opens with
    | nil => exact h
    | cons same rest => exact ih ((h.withFaults _ _).closeInnermost stop)

theorem openElement (tag : Tag) (span : Span) :
    (b.openElement ⟨.keep, d⟩ tag span).Trims t d (b'.openElement ⟨t, d⟩ tag span) := by
  have alone : Trimmed t d [Node.ofTag d tag] [Node.ofTag d tag] := .element rfl .nil .nil
  have met := h.withFaults (b.faults ++ directiveFaults tag) (b'.faults ++ directiveFaults tag)
  unfold Builder.openElement
  dsimp only
  split
  · exact ⟨.cons ⟨rfl, rfl, rfl, [], rfl, .nil⟩ h.opened, h.roots, h.pending⟩
  · exact met.append alone span span

/-- An end tag finds the same element on both sides, as the names of the open elements are the
same. -/
theorem closeElement (name : String) (span : Span) :
    (b.closeElement name span).Trims t d (b'.closeElement name span) := by
  have names := OpenElement.map_name h.opened
  have found : b'.opened.findIdx? (Text.sameIgnoringCase ·.name name) =
      b.opened.findIdx? (Text.sameIgnoringCase ·.name name) := by
    have both := congrArg (List.findIdx? (Text.sameIgnoringCase · name)) names
    rwa [List.findIdx?_map, List.findIdx?_map] at both
  unfold Builder.closeElement
  rw [found]
  split
  · exact h.withFaults _ _
  · exact (h.closeMissing span.stop _).closeInnermost span.stop

/-- One lexeme is read in the same way on both sides. -/
theorem step (l : Lexeme) :
    (Builder.step ⟨.keep, d⟩ b l).Trims t d (Builder.step ⟨t, d⟩ b' l) := by
  have met := h.withFaults (b.faults ++ l.faults) (b'.faults ++ l.faults)
  have longer (p : Piece) : b'.pending ++ [p] = b.pending ++ [p] := by rw [h.pending]
  unfold Builder.step
  cases l.token with
  | startTag tag => exact met.flush.openElement tag l.span
  | endTag name => exact met.flush.closeElement name l.span
  | text s => exact ⟨h.opened, h.roots, longer (.literal s)⟩
  | interpolation s => exact ⟨h.opened, h.roots, longer (.interpolation s)⟩
  | comment s => exact met

theorem run (ls : List Lexeme) :
    (ls.foldl (Builder.step ⟨.keep, d⟩) b).Trims t d (ls.foldl (Builder.step ⟨t, d⟩) b') := by
  induction ls generalizing b b' with
  | nil => exact h
  | cons l ls ih => exact ih (h.step l)

theorem finish (stop : Position) :
    (b.finish ⟨.keep, d⟩ stop).Trims t d (b'.finish ⟨t, d⟩ stop) := by
  have flushed : (b.flush ⟨.keep, d⟩).Trims t d (b'.flush ⟨t, d⟩) := h.flush
  unfold Builder.finish
  dsimp only
  rw [← flushed.opened.length_eq]
  exact flushed.closeMissing stop _

end Trims

end Builder

/-- Trimming takes the white space off the texts of a tree and leaves the rest as it is. -/
theorem trimmed_built (t : Trim) (d : Delimiters) (source : String) :
    Trimmed t d (built ⟨.keep, d⟩ source).roots (built ⟨t, d⟩ source).roots := by
  have start : ({} : Builder).Trims t d {} := ⟨.nil, .nil, rfl⟩
  exact ((start.run _).finish _).roots

/-! Where a blank text is left out at the beginning of a template, so is what it is trimmed to. -/

/-- Pieces that make no more than one text, which is blank, are blank themselves. -/
theorem blank_of_segments {run : List Piece}
    (h : segments d run = [] ∨ ∃ v, segments d run = [.string v] ∧ Text.isBlank v = true) :
    run.all Builder.isBlankPiece = true := by
  induction run with
  | nil => rfl
  | cons p run ih =>
    rw [List.all_cons, Bool.and_eq_true]
    cases p with
    | interpolation s =>
      rcases h with none | ⟨v, one, -⟩
      · cases none
      · obtain ⟨interpolation, -⟩ := List.cons.inj one
        unfold Expr.ofInterpolation at interpolation
        split at interpolation <;> cases interpolation
    | literal s =>
      rw [segments] at h
      split at h
      · next empty =>
        subst empty
        exact ⟨rfl, ih h⟩
      · split at h
        · next more exprs joined =>
          rcases h with none | ⟨v, one, blank⟩
          · cases none
          · obtain ⟨same, rfl⟩ := List.cons.inj one
            obtain rfl := Expr.string.inj same
            rw [Text.isBlank, String.toList_append, List.all_append, Bool.and_eq_true] at blank
            exact ⟨blank.1, ih (.inr ⟨more, joined, blank.2⟩)⟩
        · next alone =>
          rcases h with none | ⟨v, one, blank⟩
          · cases none
          · obtain ⟨same, rest⟩ := List.cons.inj one
            obtain rfl := Expr.string.inj same
            exact ⟨blank, ih (.inl rest)⟩

theorem blank_of_ofPieces {run : List Piece} (h : (Node.ofPieces d run).isBlankText = true) :
    run.all Builder.isBlankPiece = true := by
  apply blank_of_segments (d := d)
  unfold Node.isBlankText Node.ofPieces Expr.ofPieces at h
  match parts : segments d run with
  | [] => exact .inl rfl
  | [.string v] =>
    rw [parts] at h
    exact .inr ⟨v, rfl, h⟩
  | [.bool _] | [.interpolation _ _] | [.text _] | [.raw _] | _ :: _ :: _ =>
    rw [parts] at h
    cases h

theorem Node.not_isBlankText {n : Node} (element : n.isText = false) : n.isBlankText = false := by
  unfold isText at element
  unfold isBlankText
  split
  · next text =>
    rw [text] at element
    cases element
  · rfl

/-- The first node that is not left out stays the first one. -/
theorem head?_dropBlankEnds (ns : List Node) :
    (dropBlankEnds ns).head? = (ns.dropWhile Node.isBlankText).head? := by
  have first := List.head?_dropWhile_not Node.isBlankText ns
  unfold dropBlankEnds
  cases rest : ns.dropWhile Node.isBlankText with
  | nil => rfl
  | cons n ns =>
    rw [rest] at first
    have stays : n.isBlankText = false := by simpa using first
    rw [List.reverse_cons, List.dropWhile_append]
    split <;> simp [stays]

/-- The first element of a template is still the first one where the texts are trimmed. -/
theorem Trimmed.head {ns ms : List Node} (h : Trimmed t d ns ms) {n : Node}
    (first : (dropBlankEnds ns).head? = some n) (element : n.isText = false) :
    ∃ m, (dropBlankEnds ms).head? = some m ∧ m.isText = false ∧ Trimmed t d [n] [m] := by
  rw [head?_dropBlankEnds] at first
  simp only [head?_dropBlankEnds]
  induction h with
  | nil => cases first
  | @text run ns ms filled rest ih =>
    cases blank : (Node.ofPieces d run).isBlankText with
    | false =>
      rw [List.dropWhile_cons_of_neg (by simp [blank])] at first
      obtain rfl := Option.some.inj first
      cases element
    | true =>
      rw [List.dropWhile_cons_of_pos blank] at first
      obtain ⟨m, found, node⟩ := ih first
      refine ⟨m, ?_, node⟩
      rw [← found]
      have all := blank_of_ofPieces blank
      by_cases keep : t = .keep
      · subst keep
        rw [Trim.pieces?_keep filled]
        exact congrArg List.head? (List.dropWhile_cons_of_pos blank)
      · have dropped : t.pieces? run = none := by simp [Trim.pieces?, keep, all]
        rw [dropped]
        rfl
  | @element k cs ns ms own inner rest ih =>
    have stays : ¬ k.isBlankText = true := by simp [Node.not_isBlankText own]
    have stays' : ¬ Node.isBlankText { k with children := cs } = true := stays
    rw [List.dropWhile_cons_of_neg stays] at first
    obtain rfl := Option.some.inj first
    exact ⟨{ k with children := cs }, congrArg List.head? (List.dropWhile_cons_of_neg stays'),
      own, .element own inner .nil⟩

/-- The root element of a trimmed template is the first node of the template as it stands, with the
texts in it trimmed. -/
theorem trimmed_parse (t : Trim) (d : Delimiters) {source : String} {first : Node}
    (here : (parse ⟨.keep, d⟩ source).node.children.head? = some first)
    (element : first.isText = false) :
    ∃ first', (parse ⟨t, d⟩ source).node.children.head? = some first' ∧
      first'.isText = false ∧ Trimmed t d [first] [first'] :=
  (trimmed_built t d source).head here element

end ComponentLoader.Template
