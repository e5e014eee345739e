import ComponentLoader.Proofs.Markup.RawText
import ComponentLoader.Template.Root

/-! Where the faults of a template are. Whatever is reported while the tree is built is
reported at a lexeme, at an attribute, or from the beginning of an open element to the
place that reading has come to; all of these are stretches of the text. -/
namespace ComponentLoader

open Markup (Attribute Cursor Dialect Fault FaultKind Head Lexeme Tag Token)

structure Span.Within (source : String) (s : Span) : Prop where
  ends : s.In source
  order : s.start.offset ≤ s.stop.offset

namespace Markup

theorem Cursor.Passes.offset_ge {c c' : Cursor} {p : Position} (passed : c.Passes c' p) :
    c.position.offset ≤ p.offset := by
  obtain ⟨a, b, -, rfl⟩ := passed
  rw [Position.offset_advance]
  exact Nat.le_add_right _ _

/-- No attribute ends before it begins. -/
theorem Cursor.ordered_readAttribute (c : Cursor) :
    c.readAttribute.1.span.start.offset ≤ c.readAttribute.1.span.stop.offset := by
  have start : c.readAttribute.1.span.start = c.position := by
    unfold readAttribute
    dsimp only
    split
    · rfl
    · split
      · rfl
      · split <;> rfl
  rw [start]
  exact ((reaches_readAttribute c).2 _ (List.mem_singleton_self _)).2.offset_ge

theorem Cursor.ordered_readAttributes (c : Cursor) (kept : List Attribute)
    (ordered : ∀ a ∈ kept, a.span.start.offset ≤ a.span.stop.offset) :
    ∀ a ∈ (c.readAttributes kept).1, a.span.start.offset ≤ a.span.stop.offset := by
  fun_induction readAttributes c kept with
  | case1 c kept h => exact ordered
  | case2 c kept h c' hs ih => exact ih ordered
  | case3 c kept h hs next hd ih => exact ih ordered
  | case4 c kept h hs next hd ih =>
    refine ih ?_
    intro a ha
    rcases List.mem_append.mp ha with listed | own
    · exact ordered a listed
    · rw [List.mem_singleton.mp own]
      exact ordered_readAttribute c.skipSpace

theorem Cursor.ordered_readTag (c : Cursor) :
    ∀ a ∈ c.readTag.1.attributes, a.span.start.offset ≤ a.span.stop.offset := by
  have ordered := ordered_readAttributes (c.takeWhile isNameChar).2 [] (by simp)
  unfold readTag
  dsimp only
  split <;> exact ordered

structure Lexeme.Within (source : String) (l : Lexeme) : Prop where
  faithful : l.Faithful source
  attributes : ∀ tag, l.token = .startTag tag → ∀ a ∈ tag.attributes, a.span.Within source

theorem within_lexemes {d : Dialect} {source : String} {l : Lexeme}
    (listed : l ∈ d.lexemes source) : l.Within source := by
  have faithful := faithful_of_mem_lexemes listed
  refine ⟨faithful, fun tag token a ha => ⟨faithful.attributes tag token a ha, ?_⟩⟩
  obtain ⟨before, rest, cut⟩ := List.mem_iff_append.mp listed
  obtain ⟨h, -, -, rfl, -⟩ := exists_head cut
  obtain ⟨⟨-, -, read⟩, -⟩ := Cursor.follows_read d h.cursor h.mode tag token
  refine Cursor.ordered_readTag (h.cursor.skip 1) a ?_
  rw [read]
  exact ha

end Markup

namespace Template

variable {source : String} {o : Options} {p stop : Position} {b : Builder} {n : Node} {s : Span}

/-- A tree in the making whose faults are in the text, and whose elements begin before `p`. -/
structure Builder.Within (source : String) (p : Position) (b : Builder) : Prop where
  faults : ∀ f ∈ b.faults, f.span.Within source
  opened : ∀ q ∈ b.opened.map (·.start), q.In source ∧ q.offset ≤ p.offset

namespace Builder.Within

variable (h : b.Within source p)

include h

theorem mono (later : p.offset ≤ stop.offset) : b.Within source stop := by
  refine ⟨h.faults, fun q hq => ?_⟩
  obtain ⟨place, before⟩ := h.opened q hq
  exact ⟨place, Nat.le_trans before later⟩

theorem met {faults : List Fault} (placed : ∀ f ∈ faults, f.span.Within source) :
    Within source p { b with faults := b.faults ++ faults } := by
  refine ⟨fun f hf => ?_, h.opened⟩
  exact (List.mem_append.mp hf).elim (h.faults f) (placed f)

theorem report (kind : FaultKind) (placed : s.Within source) :
    (b.report kind s).Within source p := by
  have single : ∀ f ∈ [({ kind, span := s } : Fault)], f.span.Within source := by
    intro f hf
    obtain rfl := List.mem_singleton.mp hf
    exact placed
  exact h.met single

theorem push (n : Node) : (b.push n).Within source p := by
  unfold Builder.push
  split
  · exact ⟨h.faults, h.opened⟩
  · next e outer opened =>
    refine ⟨h.faults, ?_⟩
    have same := h.opened
    rw [opened] at same
    exact same

theorem append (n : Node) (placed : s.Within source) : (b.append n s).Within source p := by
  unfold Builder.append
  dsimp only
  split
  · exact (h.report .elseNoAdjacentIf placed).push n
  · exact h.push n

theorem flush (o : Options) : (b.flush o).Within source p := by
  have emptied : Within source p { b with pending := [] } := ⟨h.faults, h.opened⟩
  unfold Builder.flush
  dsimp only
  split
  · exact emptied
  · exact emptied.push _

theorem openElement (tag : Tag) (attributes : ∀ a ∈ tag.attributes, a.span.Within source)
    (placed : s.Within source) (here : s.start.offset ≤ p.offset) :
    (b.openElement o tag s).Within source p := by
  have directives : ∀ f ∈ directiveFaults tag, f.span.Within source := by
    intro f hf
    obtain ⟨a, ha, found⟩ := List.mem_filterMap.mp hf
    split at found
    · split at found
      · cases found
        exact attributes a ha
      · cases found
    · cases found
  unfold Builder.openElement
  dsimp only
  split
  · refine ⟨(h.met directives).faults, fun q hq => ?_⟩
    rcases List.mem_cons.mp hq with rfl | hq
    · exact ⟨placed.ends.1, here⟩
    · exact h.opened q hq
  · exact (h.met directives).append _ placed

section Ending

variable (place : stop.In source) (later : p.offset ≤ stop.offset)

include place later

theorem closeInnermost : (b.closeInnermost stop).Within source p := by
  unfold Builder.closeInnermost
  split
  · exact h
  · next e outer opened =>
    have starts := h.opened
    rw [opened, List.map_cons] at starts
    obtain ⟨start, before⟩ := starts _ List.mem_cons_self
    have rest : Within source p { b with opened := outer } :=
      ⟨h.faults, fun q hq => starts q (List.mem_cons_of_mem _ hq)⟩
    exact rest.append e.node ⟨⟨start, place⟩, Nat.le_trans before later⟩

theorem closeMissing (n : Nat) : (Builder.closeMissing stop n b).Within source p := by
  induction n generalizing b with
  | zero => exact h
  | succ n ih =>
    unfold Builder.closeMissing
    split
    · exact h
    · next e outer opened =>
      have starts := h.opened
      rw [opened, List.map_cons] at starts
      obtain ⟨start, before⟩ := starts _ List.mem_cons_self
      have placed : (Span.mk e.start stop).Within source :=
        ⟨⟨start, place⟩, Nat.le_trans before later⟩
      exact ih ((h.report .missingEndTag placed).closeInnermost place later)

theorem finish (o : Options) : (b.finish o stop).Within source p :=
  (h.flush o).closeMissing place later _

end Ending

theorem closeElement (name : String) (placed : s.Within source) (later : p.offset ≤ s.stop.offset) :
    (b.closeElement name s).Within source p := by
  unfold Builder.closeElement
  split
  · exact h.report .invalidEndTag placed
  · exact (h.closeMissing placed.ends.2 later _).closeInnermost placed.ends.2 later

/-- What one lexeme adds is in the text as well. -/
theorem step (o : Options) {l : Lexeme} (lexeme : l.Within source) (here : l.span.start = p)
    (order : l.span.start.offset ≤ l.span.stop.offset) :
    (Builder.step o b l).Within source l.span.stop := by
  have later : p.offset ≤ l.span.stop.offset := here ▸ order
  have placed : l.span.Within source := ⟨lexeme.faithful.ends, order⟩
  have faults : ∀ f ∈ l.faults, f.span.Within source := by
    intro f hf
    obtain ⟨ends, -, order, -⟩ := lexeme.faithful.faults f hf
    exact ⟨ends, order⟩
  have met := h.met faults
  refine Within.mono (p := p) ?_ later
  unfold Builder.step
  dsimp only
  split
  · next tag token =>
    exact (met.flush o).openElement tag (lexeme.attributes tag token) placed
      (Nat.le_of_eq (congrArg Position.offset here))
  · next name token => exact (met.flush o).closeElement name placed later
  · exact ⟨met.faults, met.opened⟩
  · exact ⟨met.faults, met.opened⟩
  · exact met

/-- Reading the lexemes of a stretch of the text keeps the tree in it. -/
theorem run (o : Options) {ls : List Lexeme} {q : Position}
    (tiles : Span.Tiles p (ls.map (·.span)) q) (lexemes : ∀ l ∈ ls, l.Within source) :
    (ls.foldl (Builder.step o) b).Within source q := by
  induction ls generalizing p b with
  | nil =>
    obtain rfl : p = q := tiles
    exact h
  | cons l ls ih =>
    obtain ⟨here, positive, rest⟩ := tiles
    exact ih (h.step o (lexemes l List.mem_cons_self) here (Nat.le_of_lt positive)) rest
      fun k hk => lexemes k (List.mem_cons_of_mem l hk)

end Builder.Within

/-- Reading comes to where the last lexeme ends. -/
theorem stop_of_tiles {ls : List Lexeme} {p q : Position} (h : Span.Tiles p (ls.map (·.span)) q) :
    (ls.getLast?.map (·.span.stop)).getD p = q := by
  induction ls generalizing p with
  | nil => exact h
  | cons l ls ih =>
    have rest := ih h.2.2
    cases ls with
    | nil => exact rest
    | cons k ls =>
      rw [List.getLast?_cons_cons]
      obtain ⟨m, last⟩ : ∃ m, (k :: ls).getLast? = some m :=
        Option.isSome_iff_exists.mp (by simp)
      rw [last] at rest ⊢
      exact rest

/-- The faults of a template are stretches of its text. -/
theorem faults_within (o : Options) (source : String) :
    ∀ f ∈ (parse o source).faults, f.span.Within source := by
  have tiles := Markup.tiles_lexemes (.template o.delimiters) source
  have start : ({} : Builder).Within source .start := by
    refine ⟨?_, ?_⟩ <;> simp
  have read := start.run o tiles fun l hl => Markup.within_lexemes hl
  have whole : (Position.start.advance source.toList).In source :=
    ⟨source.toList, [], (List.append_nil _).symm, rfl⟩
  have finished := read.finish whole (Nat.le_refl _) o
  rw [parse, ofLexemes, stop_of_tiles tiles]
  exact finished.faults

end Template

end ComponentLoader
