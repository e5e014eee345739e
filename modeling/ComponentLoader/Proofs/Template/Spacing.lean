import ComponentLoader.Proofs.Template.Preorder
import Mathlib.Data.List.Chain

/-! Texts stand apart unless an end tag is at fault. Every tag ends the text before it. A tag that
opens an element leaves this one without children, and a tag that ends elements leaves one of them
as the last child of what is around them. So the next text has no text before it. Only an end tag
that ends nothing parts a text in two. -/
namespace ComponentLoader.Template

open Markup (Dialect Lexeme Tag Token)

namespace Node

def Apart (ns : List Node) : Prop := ns.IsChain fun m n => ¬ (m.isText = true ∧ n.isText = true)

def Spaced (n : Node) : Prop := n.Everywhere fun m => Apart m.children

variable {n c : Node}

theorem spaced_iff : n.Spaced ↔ Apart n.children ∧ ∀ c ∈ n.children, c.Spaced := everywhere_iff

theorem spaced_of_children (none : n.children = []) : n.Spaced := by
  rw [spaced_iff, none]
  exact ⟨.nil, nofun⟩

theorem Spaced.add (h : n.Spaced) (own : c.Spaced)
    (room : c.isText = true → ∀ m ∈ n.children.getLast?, m.isText = false) :
    Spaced { n with children := n.children ++ [c] } := by
  obtain ⟨apart, children⟩ := spaced_iff.mp h
  refine spaced_iff.mpr ⟨List.IsChain.append apart (.singleton c) ?_, ?_⟩
  · rintro m last _ ⟨⟩ ⟨before, text⟩
    rw [room text m last] at before
    cases before
  · exact List.forall_mem_append.mpr ⟨children, List.forall_mem_singleton.mpr own⟩

end Node

/-- No two texts are next to each other so far, and the open elements are no texts. -/
structure Builder.Spaced (b : Builder) : Prop where
  roots : Node.Spaced { children := b.roots }
  opened : ∀ e ∈ b.opened, e.node.Spaced ∧ e.node.isText = false

/-- There is room for a text, as there is none right before it. -/
def Builder.Ready (b : Builder) : Prop := ∀ n ∈ b.siblings.getLast?, n.isText = false

variable {b : Builder} {n : Node} {span : Span} {stop : Position}

theorem Builder.siblings_push (b : Builder) (n : Node) :
    (b.push n).siblings = b.siblings ++ [n] := by
  unfold push siblings
  cases b.opened <;> rfl

theorem Builder.ready_append (b : Builder) (element : n.isText = false) (span : Span) :
    (b.append n span).Ready := by
  obtain ⟨faults, added⟩ := b.exists_append n span
  rw [Ready, added, siblings_push, List.getLast?_append_of_ne_nil _ (List.cons_ne_nil n [])]
  rintro _ ⟨⟩
  exact element

namespace Builder.Spaced

variable (h : b.Spaced)

include h

theorem push (own : n.Spaced) (room : n.isText = true → b.Ready) : (b.push n).Spaced := by
  unfold Ready siblings at room
  unfold Builder.push
  split
  · next opened =>
    rw [opened] at room
    exact ⟨h.roots.add own room, h.opened⟩
  · next e outer opened =>
    rw [opened] at room
    obtain ⟨⟨spaced, element⟩, outside⟩ := List.forall_mem_cons.mp (opened ▸ h.opened)
    exact ⟨h.roots, List.forall_mem_cons.mpr ⟨⟨spaced.add own room, element⟩, outside⟩⟩

theorem append (own : n.Spaced) (element : n.isText = false) (span : Span) :
    (b.append n span).Spaced := by
  obtain ⟨faults, added⟩ := b.exists_append n span
  have met : Spaced { b with faults } := ⟨h.roots, h.opened⟩
  rw [added]
  refine met.push own fun text => ?_
  rw [element] at text
  cases text

theorem flush (room : b.Ready) (o : Options) : (b.flush o).Spaced := by
  have emptied : Spaced { b with pending := [] } := ⟨h.roots, h.opened⟩
  unfold Builder.flush
  dsimp only
  split
  · exact emptied
  · exact emptied.push (Node.spaced_of_children rfl) fun _ => room

theorem closeInnermost (stop : Position) : (b.closeInnermost stop).Spaced := by
  unfold Builder.closeInnermost
  split
  · exact h
  · next e outer opened =>
    obtain ⟨⟨spaced, element⟩, outside⟩ := List.forall_mem_cons.mp (opened ▸ h.opened)
    have around : Spaced { b with opened := outer } := ⟨h.roots, outside⟩
    exact around.append spaced element _

theorem ready_closeInnermost (some : b.opened ≠ []) (stop : Position) :
    (b.closeInnermost stop).Ready := by
  unfold Builder.closeInnermost
  split
  · next none => exact absurd none some
  · next e outer opened =>
    exact ready_append _ (h.opened e (opened ▸ List.mem_cons_self)).2 _

theorem closeMissing (stop : Position) (k : Nat) : (Builder.closeMissing stop k b).Spaced :=
  closeMissing_induction (fun _ _ h => ⟨h.roots, h.opened⟩)
    (fun _ stop h => h.closeInnermost stop) stop k h

theorem openElement (o : Options) (tag : Tag) (span : Span) :
    (b.openElement o tag span).Spaced ∧ (b.openElement o tag span).Ready := by
  have met : Spaced { b with faults := b.faults ++ directiveFaults tag } := ⟨h.roots, h.opened⟩
  have own : (Node.ofTag o.delimiters tag).Spaced := Node.spaced_of_children rfl
  unfold Builder.openElement
  dsimp only
  split
  · exact ⟨⟨h.roots, List.forall_mem_cons.mpr ⟨⟨own, rfl⟩, h.opened⟩⟩, nofun⟩
  · exact ⟨met.append own rfl span, ready_append _ rfl span⟩

/-- An end tag that is not at fault ends an element. -/
theorem closeElement (name : String) (span : Span)
    (valid : (b.closeElement name span).tally.invalid = 0) :
    (b.closeElement name span).Spaced ∧ (b.closeElement name span).Ready := by
  unfold Builder.closeElement at valid ⊢
  cases found : b.opened.findIdx? (Text.sameIgnoringCase ·.name name) with
  | none =>
    rw [found] at valid
    dsimp only at valid
    rw [tally_report_invalid] at valid
    exact absurd valid (Nat.succ_ne_zero _)
  | some inner =>
    obtain ⟨inside, -⟩ := List.findIdx?_eq_some_iff_getElem.mp found
    have closed := h.closeMissing span.stop inner
    have left : (Builder.closeMissing span.stop inner b).opened ≠ [] := by
      have opened := congrArg Tally.opened (b.tally_closeMissing span.stop inner)
      intro none
      have length := congrArg List.length opened
      simp only [Builder.tally, none, List.map_nil, List.length_nil, List.length_drop,
        List.length_map] at length
      omega
    exact ⟨closed.closeInnermost span.stop, closed.ready_closeInnermost left span.stop⟩

/-- Between tags there is room for a text. -/
theorem step (room : b.Ready) (o : Options) {l : Lexeme}
    (valid : (Builder.step o b l).tally.invalid = 0) :
    (Builder.step o b l).Spaced ∧ (Builder.step o b l).Ready := by
  have met : Spaced { b with faults := b.faults ++ l.faults } := ⟨h.roots, h.opened⟩
  have ended := met.flush room o
  unfold Builder.step at valid ⊢
  dsimp only at valid ⊢
  cases token : l.token with
  | startTag tag => exact ended.openElement o tag l.span
  | endTag name =>
    rw [token] at valid
    exact ended.closeElement name l.span valid
  | text t => exact ⟨⟨h.roots, h.opened⟩, room⟩
  | interpolation t => exact ⟨⟨h.roots, h.opened⟩, room⟩
  | comment s => exact ⟨met, room⟩

end Builder.Spaced

/-- What is reported of end tags stays reported. -/
theorem Tally.invalid_le_step (t : Tally) (l : Lexeme) : t.invalid ≤ (t.step l).invalid := by
  unfold Tally.step
  split
  · split <;> exact Nat.le_refl _
  · unfold Tally.close
    split
    · exact Nat.le_succ _
    · exact Nat.le_refl _
  · exact Nat.le_refl _

theorem Tally.invalid_le_run (t : Tally) (ls : List Lexeme) :
    t.invalid ≤ (ls.foldl Tally.step t).invalid := by
  induction ls generalizing t with
  | nil => exact Nat.le_refl _
  | cons l ls ih => exact (t.invalid_le_step l).trans (ih _)

theorem Builder.Spaced.run (h : b.Spaced) (room : b.Ready) (o : Options) {ls : List Lexeme}
    (lexical : ∀ l ∈ ls, ∀ f ∈ l.faults, f.kind.isLexical = true)
    (valid : (ls.foldl (Builder.step o) b).tally.invalid = 0) :
    (ls.foldl (Builder.step o) b).Spaced ∧ (ls.foldl (Builder.step o) b).Ready := by
  induction ls generalizing b with
  | nil => exact ⟨h, room⟩
  | cons l ls ih =>
    have later := (List.forall_mem_cons.mp lexical).2
    have first : (Builder.step o b l).tally.invalid = 0 := by
      rw [List.foldl_cons, Builder.tally_run _ o later] at valid
      exact Nat.le_zero.mp (valid ▸ Tally.invalid_le_run _ ls)
    obtain ⟨spaced, ready⟩ := h.step room o first
    exact ih spaced ready later valid

theorem spaced_built (o : Options) (source : String)
    (valid : ∀ f ∈ (built o source).faults, f.kind ≠ .invalidEndTag) :
    Node.Spaced { children := (built o source).roots } := by
  have start : ({} : Builder).Spaced := ⟨Node.spaced_of_children rfl, nofun⟩
  have none : (built o source).tally.invalid = 0 := by
    refine List.length_eq_zero_iff.mpr (List.filter_eq_nil_iff.mpr fun f mem => ?_)
    simpa using valid f mem
  unfold built at none ⊢
  dsimp only at none ⊢
  rw [Builder.tally_finish] at none
  obtain ⟨spaced, ready⟩ := start.run nofun o
    (fun l (listed : l ∈ (Dialect.template o.delimiters).lexemes source) =>
      Markup.lexical_of_mem_lexemes listed) none
  exact ((spaced.flush ready o).closeMissing _ _).roots

/-- Where no end tag is at fault, no two texts are next to each other. -/
theorem spaced_parse (o : Options) (source : String)
    (valid : ∀ f ∈ (parse o source).faults, f.kind ≠ .invalidEndTag) :
    (parse o source).node.Spaced := by
  obtain ⟨before, after, parts, -⟩ := exists_dropBlankEnds (built o source).roots
  obtain ⟨apart, children⟩ := Node.spaced_iff.mp (spaced_built o source valid)
  have within : Node.Apart (dropBlankEnds (built o source).roots) :=
    List.IsChain.infix apart ⟨before, after, parts.symm⟩
  exact Node.spaced_iff.mpr ⟨within, fun c hc => children c (mem_of_mem_dropBlankEnds hc)⟩

end ComponentLoader.Template
