import ComponentLoader.Component.Layout

/-! The successful readings of a top level, piece by piece, and what the search
for the end of a block or an element returns: one of the lexemes searched, and
all that follows it. -/
namespace ComponentLoader.Layout

open Markup (Lexeme Tag Token)

/-- A block is ended by one of the lexemes after its start tag. -/
theorem exists_of_blockEnd {name : String} {depth : Nat} {ls rest : List Lexeme} {span : Span}
    (h : blockEnd? name depth ls = some (span, rest)) :
    ∃ inside l, ls = inside ++ l :: rest ∧ l.span = span := by
  induction ls generalizing depth with
  | nil => simp [blockEnd?] at h
  | cons l ls ih =>
    have further {d : Nat} (h : blockEnd? name d ls = some (span, rest)) :
        ∃ inside m, l :: ls = inside ++ m :: rest ∧ m.span = span := by
      obtain ⟨inside, m, rfl, same⟩ := ih h
      exact ⟨l :: inside, m, rfl, same⟩
    unfold blockEnd? at h
    split at h
    · split at h <;> exact further h
    · split at h
      · split at h
        · cases h
          exact ⟨[], l, rfl, rfl⟩
        · exact further h
      · exact further h
    · exact further h

/-- An element is ended by one of the lexemes after its start tag. -/
theorem exists_of_elementEnd {opened : List String} {ls rest : List Lexeme} {stop : Position}
    (h : elementEnd? opened ls = some (stop, rest)) :
    ∃ inside l, ls = inside ++ l :: rest ∧ l.span.stop = stop := by
  induction ls generalizing opened with
  | nil => simp [elementEnd?] at h
  | cons l ls ih =>
    have further {o : List String} (h : elementEnd? o ls = some (stop, rest)) :
        ∃ inside m, l :: ls = inside ++ m :: rest ∧ m.span.stop = stop := by
      obtain ⟨inside, m, rfl, same⟩ := ih h
      exact ⟨l :: inside, m, rfl, same⟩
    rw [elementEnd?] at h
    split at h
    · exact further h
    · split at h
      · exact further h
      · dsimp only at h
        split at h
        · cases h
          exact ⟨[], l, rfl, rfl⟩
        · exact further h
    · exact further h

/-- A block that is read is self-closing and takes its start tag alone, or it
goes on to a later lexeme. -/
theorem readBlock_cases {kind : BlockKind} {tag : Tag} {l : Lexeme} {b : Block}
    {rest after : List Lexeme} (h : readBlock kind tag l rest = .ok (b, after)) :
    (b.span = l.span ∧ b.content = .point l.span.stop ∧ after = rest) ∨
      ∃ inside m, rest = inside ++ m :: after ∧ b.span = ⟨l.span.start, m.span.stop⟩ ∧
        b.content = ⟨l.span.stop, m.span.start⟩ := by
  unfold readBlock at h
  dsimp only at h
  split at h
  · cases h
  · split at h
    · cases h
      exact .inl ⟨rfl, rfl, rfl⟩
    · split at h
      · next ended =>
        obtain ⟨inside, m, rfl, rfl⟩ := exists_of_blockEnd ended
        cases h
        exact .inr ⟨inside, m, rfl, rfl, rfl⟩
      · cases h

/-- A top level is read piece by piece: blocks, elements with all that is in
them, tags that stand alone, comments and texts. -/
inductive Laid (kinds : BlockKinds) (awaited : List Nat) : Nat → List Lexeme → Layout → Prop
  | done (index : Nat) : Laid kinds awaited index [] {}
  | block {index : Nat} {l : Lexeme} {rest after : List Lexeme} {tag : Tag} {kind : BlockKind}
      {b : Block} {inner : Layout} (token : l.token = .startTag tag)
      (found : blockKind? kinds tag = some kind)
      (read : readBlock kind tag l rest = .ok (b, after))
      (more : Laid kinds awaited (index + 1) after inner) :
      Laid kinds awaited index (l :: rest) ⟨b :: inner.blocks, .block index :: inner.nodes⟩
  | element {index : Nat} {l : Lexeme} {rest after : List Lexeme} {tag : Tag} {stop : Position}
      {inner : Layout} (token : l.token = .startTag tag) (plain : blockKind? kinds tag = none)
      (waits : (tag.opens && awaited.contains l.span.start.offset) = true)
      (ended : elementEnd? [tag.name] rest = some (stop, after))
      (more : Laid kinds awaited index after inner) :
      Laid kinds awaited index (l :: rest)
        (inner.cons (.element tag.name ⟨l.span.start, stop⟩))
  | tag {index : Nat} {l : Lexeme} {rest : List Lexeme} {tag : Tag} {inner : Layout}
      (token : l.token = .startTag tag) (plain : blockKind? kinds tag = none)
      (alone : (tag.opens && awaited.contains l.span.start.offset) = false)
      (more : Laid kinds awaited index rest inner) :
      Laid kinds awaited index (l :: rest) (inner.cons (.element tag.name l.span))
  | comment {index : Nat} {l : Lexeme} {rest : List Lexeme} {content : String} {inner : Layout}
      (token : l.token = .comment content) (more : Laid kinds awaited index rest inner) :
      Laid kinds awaited index (l :: rest) (inner.cons (.comment l.span))
  | text {index : Nat} {l : Lexeme} {rest : List Lexeme} {inner : Layout}
      (noTag : ∀ tag, l.token ≠ .startTag tag) (noComment : ∀ content, l.token ≠ .comment content)
      (more : Laid kinds awaited index rest inner) :
      Laid kinds awaited index (l :: rest) (inner.cons (.text l.span))

private theorem map_ok {m : Except ε α} {f : α → β} {b : β} (h : m.map f = .ok b) :
    ∃ a, m = .ok a ∧ f a = b := by
  cases m with
  | error e => cases h
  | ok a => exact ⟨a, rfl, Except.ok.inj h⟩

theorem laid_of_scan {kinds : BlockKinds} {awaited : List Nat} {index : Nat} {ls : List Lexeme}
    {layout : Layout} (h : scan kinds awaited index ls = .ok layout) :
    Laid kinds awaited index ls layout := by
  fun_induction scan kinds awaited index ls generalizing layout with
  | case1 index =>
    cases h
    exact .done index
  | case2 index l rest tag token kind found cause failed => cases h
  | case3 index l rest tag token kind found b after read ih =>
    obtain ⟨inner, more, rfl⟩ := map_ok h
    exact .block token found read (ih more)
  | case4 index l rest tag token plain waits open? => cases h
  | case5 index l rest tag token plain waits stop after ended ih =>
    obtain ⟨inner, more, rfl⟩ := map_ok h
    exact .element token plain waits ended (ih more)
  | case6 index l rest tag token plain alone ih =>
    obtain ⟨inner, more, rfl⟩ := map_ok h
    exact .tag token plain (by simpa using alone) (ih more)
  | case7 index l rest content token ih =>
    obtain ⟨inner, more, rfl⟩ := map_ok h
    exact .comment token (ih more)
  | case8 index l rest noTag noComment ih =>
    obtain ⟨inner, more, rfl⟩ := map_ok h
    exact .text noTag noComment (ih more)

/-- Whatever is not waited for in the end, the layout is that of one reading. -/
theorem scan_of_rescan {kinds : BlockKinds} {ls : List Lexeme} {awaited : List Nat}
    {layout : Layout} (h : rescan kinds ls awaited = .ok layout) :
    ∃ final, scan kinds final 0 ls = .ok layout := by
  fun_induction rescan kinds ls awaited with
  | case1 awaited found scanned =>
    cases h
    exact ⟨awaited, scanned⟩
  | case2 awaited cause failed => cases h
  | case3 awaited offset failed listed ih => exact ih h
  | case4 awaited offset failed unlisted => cases h

theorem laid_of_read {kinds : BlockKinds} {source : String} {layout : Layout}
    (h : read kinds source = .ok layout) :
    ∃ awaited, Laid kinds awaited 0 (Markup.Dialect.component.lexemes source) layout := by
  obtain ⟨awaited, scanned⟩ := scan_of_rescan h
  exact ⟨awaited, laid_of_scan scanned⟩

end ComponentLoader.Layout
