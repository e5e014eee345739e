import ComponentLoader.Markup.Cursor

/-! Reading as a relation between cursors. A reader moves over some text, adds
faults at places on its way, and never asks for more text than there is. The
relation is transitive, so a reader is treated move by move. -/
namespace ComponentLoader.Markup

/-- Whether a fault is one of reading; the others are those of nesting elements and of
directives. -/
def FaultKind.isLexical : FaultKind → Bool
  | invalidEndTag
  | missingEndTag
  | ifNoExpression
  | elseNoAdjacentIf
  | forNoExpression
  | forMalformedExpression => false
  | _ => true

namespace Cursor

/-- A place on the way from `c` to `c'`: between two characters that are moved
over, or at either end. -/
def Passes (c c' : Cursor) (p : Position) : Prop :=
  ∃ before after, c.rest = before ++ after ++ c'.rest ∧ p = c.position.advance before

/-- Reading on from `c` can come to `c'`. Every new fault is at one place on
the way. -/
structure Reaches (c c' : Cursor) : Prop where
  text : ∃ s, c.rest = s ++ c'.rest ∧ c'.position = c.position.advance s
  faults : ∃ met, c'.faults = c.faults ++ met ∧
    ∀ f ∈ met, ∃ p, c.Passes c' p ∧ f.span = .point p
  overrun : c'.overrun = c.overrun
  kinds : ∀ f ∈ c'.faults, f ∈ c.faults ∨ f.kind.isLexical = true

theorem Reaches.passes_start {c c' : Cursor} (h : c.Reaches c') : c.Passes c' c.position := by
  obtain ⟨s, hs, -⟩ := h.text
  exact ⟨[], s, hs, rfl⟩

theorem Reaches.passes_stop {c c' : Cursor} (h : c.Reaches c') : c.Passes c' c'.position := by
  obtain ⟨s, hs, hp⟩ := h.text
  exact ⟨s, [], by simp [hs], hp⟩

/-- A place that is passed stays passed when reading goes on. -/
theorem Passes.extend {c c' c'' : Cursor} {p : Position} (h : c.Passes c' p)
    (next : c'.Reaches c'') : c.Passes c'' p := by
  obtain ⟨before, after, hs, rfl⟩ := h
  obtain ⟨s, hs', -⟩ := next.text
  exact ⟨before, after ++ s, by simp [hs, hs'], rfl⟩

/-- A place that is passed later is passed from earlier on. -/
theorem Passes.precede {c c' c'' : Cursor} {p : Position} (h : c'.Passes c'' p)
    (first : c.Reaches c') : c.Passes c'' p := by
  obtain ⟨before, after, hs, rfl⟩ := h
  obtain ⟨s, hs', hp⟩ := first.text
  exact ⟨s ++ before, after, by simp [hs, hs'], by simp [hp]⟩

theorem Reaches.refl (c : Cursor) : c.Reaches c :=
  ⟨⟨[], rfl, rfl⟩, ⟨[], by simp, by simp⟩, rfl, fun _ => .inl⟩

theorem Reaches.trans {c c' c'' : Cursor} (first : c.Reaches c') (next : c'.Reaches c'') :
    c.Reaches c'' := by
  obtain ⟨s, hs, hp⟩ := first.text
  obtain ⟨t, ht, hq⟩ := next.text
  obtain ⟨met, hm, at₁⟩ := first.faults
  obtain ⟨more, hn, at₂⟩ := next.faults
  refine ⟨⟨s ++ t, by simp [hs, ht], by simp [hq, hp]⟩, ⟨met ++ more, by simp [hn, hm], ?_⟩,
    next.overrun.trans first.overrun, ?_⟩
  · intro f hf
    rcases List.mem_append.mp hf with hf | hf
    · obtain ⟨p, passed, same⟩ := at₁ f hf
      exact ⟨p, passed.extend next, same⟩
    · obtain ⟨p, passed, same⟩ := at₂ f hf
      exact ⟨p, passed.precede first, same⟩
  · intro f hf
    exact (next.kinds f hf).elim (first.kinds f) .inr

instance : Trans Reaches Reaches Reaches := ⟨Reaches.trans⟩

/-- A move within the text that is left. -/
theorem reaches_skip {c : Cursor} {n : Nat} (h : n ≤ c.rest.length) : c.Reaches (c.skip n) := by
  refine ⟨⟨c.rest.take n, by simp, rfl⟩, ⟨[], by simp [skip], by simp⟩, ?_, fun _ => .inl⟩
  simp [skip, h]

theorem reaches_skipNext (c : Cursor) : c.Reaches c.skipNext :=
  reaches_skip (List.length_take_le' 1 c.rest)

theorem reaches_report (c : Cursor) (kind : FaultKind) (lexical : kind.isLexical = true) :
    c.Reaches (c.report kind) := by
  refine ⟨⟨[], rfl, rfl⟩, ⟨_, rfl, ?_⟩, rfl, ?_⟩
  · intro f hf
    obtain rfl := List.mem_singleton.mp hf
    exact ⟨c.position, ⟨[], [], rfl, rfl⟩, rfl⟩
  · intro f hf
    refine (List.mem_append.mp hf).imp id fun own => ?_
    obtain rfl := List.mem_singleton.mp own
    exact lexical

theorem reaches_reportIf (c : Cursor) (condition : Bool) (kind : FaultKind)
    (lexical : kind.isLexical = true) : c.Reaches (c.reportIf condition kind) := by
  unfold reportIf
  split
  · exact reaches_report c kind lexical
  · exact .refl c

theorem reaches_takeWhile (c : Cursor) (p : Char → Bool) : c.Reaches (c.takeWhile p).2 :=
  reaches_skip (List.takeWhile_sublist p).length_le

theorem reaches_skipSpace (c : Cursor) : c.Reaches c.skipSpace :=
  reaches_takeWhile c Text.isMarkupSpace

end Cursor

end ComponentLoader.Markup
