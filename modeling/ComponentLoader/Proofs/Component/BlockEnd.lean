import ComponentLoader.Proofs.Component.Laid

/-! The end tag of a block. It is the first end tag of the block's name at which as
many elements of that name have been ended as begun since the start tag of the
block; without one the block has no end. -/
namespace ComponentLoader

namespace Markup.Lexeme

def begins (name : String) (l : Lexeme) : Bool :=
  match l.token with
  | .startTag tag => !tag.selfClosing && Text.sameIgnoringCase tag.name name
  | _ => false

def ends (name : String) (l : Lexeme) : Bool :=
  match l.token with
  | .endTag n => Text.sameIgnoringCase n name
  | _ => false

theorem begins_of_ends {name : String} {l : Lexeme} (h : l.ends name = true) :
    l.begins name = false := by
  unfold ends at h
  unfold begins
  split at h
  · next token => rw [token]
  · cases h

theorem exists_of_ends {name : String} {l : Lexeme} (h : l.ends name = true) :
    ∃ n, l.token = .endTag n ∧ Text.sameIgnoringCase n name = true := by
  unfold ends at h
  split at h
  · next n token => exact ⟨n, token, h⟩
  · cases h

end Markup.Lexeme

namespace Layout

open Markup (Lexeme Tag Token)

/-- After `depth` elements of the name, and those begun and ended inside, the end
tag `m` ends what was begun before them all, and no end tag inside does. -/
structure Closes (name : String) (depth : Nat) (inside : List Lexeme) (m : Lexeme) : Prop where
  ends : m.ends name = true
  balanced : inside.countP (·.begins name) + depth = inside.countP (·.ends name)
  first : ∀ x k y, inside = x ++ k :: y → k.ends name = true →
    x.countP (·.begins name) + depth ≠ x.countP (·.ends name)

variable {name : String} {depth : Nat} {l m : Lexeme} {inside ls after : List Lexeme} {span : Span}

theorem blockEnd_of_ends (h : l.ends name = true) (depth : Nat) (rest : List Lexeme) :
    blockEnd? name (depth + 1) (l :: rest) = blockEnd? name depth rest := by
  obtain ⟨n, token, same⟩ := Lexeme.exists_of_ends h
  simp only [blockEnd?, token, same, if_true]

theorem blockEnd_here (h : l.ends name = true) (rest : List Lexeme) :
    blockEnd? name 0 (l :: rest) = some (l.span, rest) := by
  obtain ⟨n, token, same⟩ := Lexeme.exists_of_ends h
  simp only [blockEnd?, token, same, if_true]

theorem blockEnd_of_not_ends (h : l.ends name = false) (depth : Nat) (rest : List Lexeme) :
    blockEnd? name depth (l :: rest) =
      blockEnd? name (depth + [l].countP (·.begins name)) rest := by
  unfold Lexeme.ends at h
  cases token : l.token with
  | startTag tag =>
    cases opens : !tag.selfClosing && Text.sameIgnoringCase tag.name name with
    | false => simp [blockEnd?, Lexeme.begins, token, opens]
    | true => simp [blockEnd?, Lexeme.begins, token, opens]
  | endTag n =>
    rw [token] at h
    simp [blockEnd?, Lexeme.begins, token, h]
  | text content => simp [blockEnd?, Lexeme.begins, token]
  | comment content => simp [blockEnd?, Lexeme.begins, token]
  | interpolation content => simp [blockEnd?, Lexeme.begins, token]

theorem Closes.after_end (h : Closes name depth inside m) (ending : l.ends name = true) :
    Closes name (depth + 1) (l :: inside) m := by
  have quiet := Lexeme.begins_of_ends ending
  refine ⟨h.ends, ?_, ?_⟩
  · have balanced := h.balanced
    simp only [List.countP_cons, quiet, ending, if_true]
    simp
    omega
  · intro x k y parts closing
    cases x with
    | nil => simp
    | cons l' x =>
      obtain ⟨rfl, tail⟩ := List.cons.inj parts
      have unequal := h.first x k y tail closing
      simp only [List.countP_cons, quiet, ending, if_true]
      simp
      omega

theorem Closes.after_other (h : Closes name (depth + [l].countP (·.begins name)) inside m)
    (other : l.ends name = false) : Closes name depth (l :: inside) m := by
  have count (x : List Lexeme) : (l :: x).countP (·.begins name) + depth =
      x.countP (·.begins name) + (depth + [l].countP (·.begins name)) := by
    simp only [List.countP_cons, List.countP_nil]
    omega
  have same (x : List Lexeme) : (l :: x).countP (·.ends name) = x.countP (·.ends name) := by
    simp [other]
  refine ⟨h.ends, ?_, ?_⟩
  · rw [count, same]
    exact h.balanced
  · intro x k y parts closing
    cases x with
    | nil =>
      obtain ⟨rfl, -⟩ := List.cons.inj parts
      rw [other] at closing
      cases closing
    | cons l' x =>
      obtain ⟨rfl, tail⟩ := List.cons.inj parts
      rw [count, same]
      exact h.first x k y tail closing

/-- What is returned as the end of a block closes it. -/
theorem closes_of_blockEnd (h : blockEnd? name depth ls = some (span, after)) :
    ∃ inside m, ls = inside ++ m :: after ∧ m.span = span ∧ Closes name depth inside m := by
  induction ls generalizing depth with
  | nil => cases h
  | cons l ls ih =>
    cases ending : l.ends name with
    | true =>
      cases depth with
      | zero =>
        rw [blockEnd_here ending] at h
        cases h
        exact ⟨[], l, rfl, rfl, ending, rfl, by simp⟩
      | succ depth =>
        rw [blockEnd_of_ends ending] at h
        obtain ⟨inside, m, rfl, same, closes⟩ := ih h
        exact ⟨l :: inside, m, rfl, same, closes.after_end ending⟩
    | false =>
      rw [blockEnd_of_not_ends ending] at h
      obtain ⟨inside, m, rfl, same, closes⟩ := ih h
      exact ⟨l :: inside, m, rfl, same, closes.after_other ending⟩

theorem readBlock_of_selfClosing {kind : BlockKind} {tag : Tag} {l : Lexeme} {rest : List Lexeme}
    (faultless : l.faults.find? (·.kind.isTagSyntax) = none) (closes : tag.selfClosing = true) :
    readBlock kind tag l rest =
      .ok (⟨kind, tag.attributes.map fun a => ⟨a.name, a.value⟩, l.span, .point l.span.stop,
        false⟩, rest) := by
  rw [readBlock]
  simp only [faultless, closes, if_true]

theorem readBlock_of_opens {kind : BlockKind} {tag : Tag} {l : Lexeme} {rest : List Lexeme}
    (faultless : l.faults.find? (·.kind.isTagSyntax) = none) (opens : tag.selfClosing = false) :
    readBlock kind tag l rest =
      match blockEnd? tag.name 0 rest with
      | some (stop, after) =>
        .ok (⟨kind, tag.attributes.map fun a => ⟨a.name, a.value⟩, ⟨l.span.start, stop.stop⟩,
          ⟨l.span.stop, stop.start⟩, false⟩, after)
      | none => .error (.unclosedBlock tag.name l.span) := by
  rw [readBlock]
  cases blockEnd? tag.name 0 rest <;> simp only [faultless, opens, Bool.false_eq_true, if_false]

/-- A block that is read has no fault in its start tag; it is self-closing, or closed by an end tag
of its name. -/
theorem readBlock_inversion {kind : BlockKind} {tag : Tag} {b : Block} {rest : List Lexeme}
    (h : readBlock kind tag l rest = .ok (b, after)) :
    l.faults.find? (·.kind.isTagSyntax) = none ∧ b.kind = kind ∧
      b.attributes = tag.attributes.map (fun a => ⟨a.name, a.value⟩) ∧ b.synthetic = false ∧
      ((tag.selfClosing = true ∧ b.span = l.span ∧ b.content = .point l.span.stop ∧ after = rest) ∨
        (tag.selfClosing = false ∧ ∃ inside m, rest = inside ++ m :: after ∧
          Closes tag.name 0 inside m ∧ b.span = ⟨l.span.start, m.span.stop⟩ ∧
          b.content = ⟨l.span.stop, m.span.start⟩)) := by
  unfold readBlock at h
  dsimp only at h
  cases fault : l.faults.find? (·.kind.isTagSyntax) with
  | some f =>
    rw [fault] at h
    cases h
  | none =>
    rw [fault] at h
    cases closing : tag.selfClosing with
    | true =>
      rw [closing, if_pos rfl] at h
      cases h
      exact ⟨rfl, rfl, rfl, rfl, .inl ⟨rfl, rfl, rfl, rfl⟩⟩
    | false =>
      rw [closing, if_neg (by decide)] at h
      cases ended : blockEnd? tag.name 0 rest with
      | none =>
        rw [ended] at h
        cases h
      | some found =>
        obtain ⟨span, after'⟩ := found
        rw [ended] at h
        cases h
        obtain ⟨inside, m, parts, rfl, closes⟩ := closes_of_blockEnd ended
        exact ⟨rfl, rfl, rfl, rfl, .inr ⟨rfl, inside, m, parts, closes, rfl, rfl⟩⟩

/-- A block begins with its start tag, and its content after it. -/
theorem start_of_readBlock {kind : BlockKind} {tag : Tag} {b : Block} {rest : List Lexeme}
    (h : readBlock kind tag l rest = .ok (b, after)) :
    b.span.start = l.span.start ∧ b.content.start = l.span.stop := by
  obtain ⟨-, -, -, -, ⟨-, span, content, -⟩ | ⟨-, inside, m, -, -, span, content⟩⟩ :=
    readBlock_inversion h
  · rw [span, content]
    exact ⟨rfl, rfl⟩
  · rw [span, content]
    exact ⟨rfl, rfl⟩

/-- A block is refused for a fault in its start tag, or for want of an end tag. -/
theorem cause_of_readBlock {kind : BlockKind} {tag : Tag} {rest : List Lexeme}
    {cause : ComponentError} (h : readBlock kind tag l rest = .error cause) :
    (∃ f ∈ l.faults, cause = .malformedTag tag.name f) ∨
      cause = .unclosedBlock tag.name l.span := by
  cases fault : l.faults.find? (·.kind.isTagSyntax) with
  | some f =>
    rw [readBlock, fault] at h
    cases h
    exact .inl ⟨f, List.mem_of_find?_eq_some fault, rfl⟩
  | none =>
    cases closing : tag.selfClosing with
    | true =>
      rw [readBlock_of_selfClosing fault closing] at h
      cases h
    | false =>
      rw [readBlock_of_opens fault closing] at h
      cases ended : blockEnd? tag.name 0 rest with
      | none =>
        rw [ended] at h
        cases h
        exact .inr rfl
      | some found =>
        rw [ended] at h
        cases h

end Layout

end ComponentLoader
