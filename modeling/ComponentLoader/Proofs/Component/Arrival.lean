import ComponentLoader.Proofs.Component.OnePass

/-! The way along a top level. Reading passes blocks, elements with all that is in
them, tags that stand alone, and whatever is no start tag; it fails only where it
arrives at the start tag of a block that cannot be read. -/
namespace ComponentLoader.Layout

open Markup (Dialect Lexeme Tag Token)

theorem name_of_blockKind {kinds : BlockKinds} {tag : Tag} {kind : BlockKind}
    (h : blockKind? kinds tag = some kind) : tag.name = kind.tag := by
  obtain ⟨found, -⟩ := Option.filter_eq_some_iff.mp h
  have same := List.find?_some found
  exact (beq_iff_eq.mp same).symm

/-- Reading the top level from the one list of lexemes passes the blocks and comes to the other. -/
inductive Arrives (kinds : BlockKinds) : List Lexeme → List Block → List Lexeme → Prop
  | here (ls : List Lexeme) : Arrives kinds ls [] ls
  | block {l : Lexeme} {rest after ls : List Lexeme} {tag : Tag} {kind : BlockKind} {b : Block}
      {bs : List Block} (token : l.token = .startTag tag)
      (found : blockKind? kinds tag = some kind) (read : readBlock kind tag l rest = .ok (b, after))
      (more : Arrives kinds after bs ls) : Arrives kinds (l :: rest) (b :: bs) ls
  | element {l last : Lexeme} {rest after ls : List Lexeme} {tag : Tag} {bs : List Block}
      (token : l.token = .startTag tag) (plain : blockKind? kinds tag = none)
      (opens : tag.opens = true) (closed : emptying? [tag.name] rest = some (last, after))
      (more : Arrives kinds after bs ls) : Arrives kinds (l :: rest) bs ls
  | alone {l : Lexeme} {rest ls : List Lexeme} {tag : Tag} {bs : List Block}
      (token : l.token = .startTag tag) (plain : blockKind? kinds tag = none)
      (alone : tag.opens = true → emptying? [tag.name] rest = none)
      (more : Arrives kinds rest bs ls) : Arrives kinds (l :: rest) bs ls
  | other {l : Lexeme} {rest ls : List Lexeme} {bs : List Block}
      (noTag : ∀ tag, l.token ≠ .startTag tag) (more : Arrives kinds rest bs ls) :
      Arrives kinds (l :: rest) bs ls

namespace Arrives

variable {kinds : BlockKinds} {ls ls' ls'' : List Lexeme} {bs bs' : List Block}

theorem trans (first : Arrives kinds ls bs ls') (next : Arrives kinds ls' bs' ls'') :
    Arrives kinds ls (bs ++ bs') ls'' := by
  induction first with
  | here ls => exact next
  | block token found read more ih => exact .block token found read (ih next)
  | element token plain opens closed more ih => exact .element token plain opens closed (ih next)
  | alone token plain alone more ih => exact .alone token plain alone (ih next)
  | other noTag more ih => exact .other noTag (ih next)

theorem suffix (h : Arrives kinds ls bs ls') : ls' <:+ ls := by
  induction h with
  | here ls => exact List.suffix_refl ls
  | block token found read more ih =>
    exact (ih.trans (readBlock_suffix read)).trans (List.suffix_cons _ _)
  | element token plain opens closed more ih =>
    exact (ih.trans (emptying_suffix closed)).trans (List.suffix_cons _ _)
  | alone token plain alone more ih => exact ih.trans (List.suffix_cons _ _)
  | other noTag more ih => exact ih.trans (List.suffix_cons _ _)

/-- What is read from where reading arrives, and what is passed before it, is what is read. -/
theorem onePass_eq (h : Arrives kinds ls bs ls') (index : Nat) :
    ∃ nodes, onePass kinds index ls =
      (onePass kinds (index + bs.length) ls').map fun layout =>
        ⟨bs ++ layout.blocks, nodes ++ layout.nodes⟩ := by
  have through {once : Except ComponentError Layout} {f g : Layout → Layout} :
      (once.map f).map g = once.map (g ∘ f) := by
    cases once <;> rfl
  induction h generalizing index with
  | here ls =>
    refine ⟨[], ?_⟩
    cases onePass kinds index ls <;> rfl
  | block token found read more ih =>
    obtain ⟨nodes, same⟩ := ih (index + 1)
    refine ⟨.block index :: nodes, ?_⟩
    rw [onePass_block token found read, same, through, List.length_cons, Nat.add_assoc,
      Nat.add_comm 1]
    rfl
  | @element l last rest after ls tag bs token plain opens closed more ih =>
    obtain ⟨nodes, same⟩ := ih index
    refine ⟨.element tag.name ⟨l.span.start, last.span.stop⟩ :: nodes, ?_⟩
    rw [onePass_element token plain opens closed, same, through]
    rfl
  | @alone l rest ls tag bs token plain alone more ih =>
    obtain ⟨nodes, same⟩ := ih index
    refine ⟨.element tag.name l.span :: nodes, ?_⟩
    rw [onePass_alone token plain alone, same, through]
    rfl
  | @other l rest ls bs noTag more ih =>
    obtain ⟨nodes, same⟩ := ih index
    by_cases comment : ∃ content, l.token = .comment content
    · obtain ⟨content, token⟩ := comment
      refine ⟨.comment l.span :: nodes, ?_⟩
      rw [onePass_comment token, same, through]
      rfl
    · refine ⟨.text l.span :: nodes, ?_⟩
      rw [onePass_text noTag (fun content token => comment ⟨content, token⟩), same, through]
      rfl

/-- A block that is passed is read from a start tag at which reading arrives. -/
theorem at_block {b : Block} (h : Arrives kinds ls (bs ++ b :: bs') ls') :
    ∃ l rest after tag kind, Arrives kinds ls bs (l :: rest) ∧ l.token = .startTag tag ∧
      blockKind? kinds tag = some kind ∧ readBlock kind tag l rest = .ok (b, after) ∧
      Arrives kinds after bs' ls' := by
  generalize whole : bs ++ b :: bs' = all at h
  induction h generalizing bs with
  | here ls =>
    cases bs <;> cases whole
  | @block l rest after ls tag kind b' all token found read more ih =>
    cases bs with
    | nil =>
      obtain ⟨rfl, rfl⟩ := List.cons.inj whole
      exact ⟨l, rest, after, tag, kind, .here _, token, found, read, more⟩
    | cons b'' bs =>
      obtain ⟨rfl, further⟩ := List.cons.inj whole
      obtain ⟨l', rest', after', tag', kind', arrives, others⟩ := ih further
      exact ⟨l', rest', after', tag', kind', .block token found read arrives, others⟩
  | element token plain opens closed more ih =>
    obtain ⟨l', rest', after', tag', kind', arrives, others⟩ := ih whole
    exact ⟨l', rest', after', tag', kind', .element token plain opens closed arrives, others⟩
  | alone token plain alone more ih =>
    obtain ⟨l', rest', after', tag', kind', arrives, others⟩ := ih whole
    exact ⟨l', rest', after', tag', kind', .alone token plain alone arrives, others⟩
  | other noTag more ih =>
    obtain ⟨l', rest', after', tag', kind', arrives, others⟩ := ih whole
    exact ⟨l', rest', after', tag', kind', .other noTag arrives, others⟩

end Arrives

variable {kinds : BlockKinds} {index : Nat} {ls : List Lexeme}

/-- The start tag of a block that cannot be read comes next. -/
def Stuck (kinds : BlockKinds) (cause : ComponentError) (ls : List Lexeme) : Prop :=
  ∃ l rest tag kind, ls = l :: rest ∧ l.token = .startTag tag ∧ blockKind? kinds tag = some kind ∧
    readBlock kind tag l rest = .error cause

/-- Reading passes everything or gets stuck. -/
theorem exists_arrival (kinds : BlockKinds) (ls : List Lexeme) :
    ∃ bs ls', Arrives kinds ls bs ls' ∧ (ls' = [] ∨ ∃ cause, Stuck kinds cause ls') := by
  fun_induction onePass kinds 0 ls with
  | case1 index => exact ⟨[], [], .here [], .inl rfl⟩
  | case2 index l rest tag token kind found cause failed =>
    exact ⟨[], _, .here _, .inr ⟨cause, l, rest, tag, kind, rfl, token, found, failed⟩⟩
  | case3 index l rest tag token kind found b after read ih =>
    obtain ⟨bs, ls', arrives, last⟩ := ih
    exact ⟨b :: bs, ls', .block token found read arrives, last⟩
  | case4 index l rest tag token plain last after closed ih =>
    obtain ⟨bs, ls', arrives, done⟩ := ih
    split at closed
    · next opens => exact ⟨bs, ls', .element token plain opens closed arrives, done⟩
    · cases closed
  | case5 index l rest tag token plain alone ih =>
    obtain ⟨bs, ls', arrives, done⟩ := ih
    refine ⟨bs, ls', .alone token plain ?_ arrives, done⟩
    intro opens
    rwa [dif_pos opens] at alone
  | case6 index l rest content token ih =>
    obtain ⟨bs, ls', arrives, done⟩ := ih
    refine ⟨bs, ls', .other ?_ arrives, done⟩
    intro tag other
    rw [token] at other
    cases other
  | case7 index l rest noTag noComment ih =>
    obtain ⟨bs, ls', arrives, done⟩ := ih
    exact ⟨bs, ls', .other noTag arrives, done⟩

theorem onePass_of_arrives_nil {bs : List Block} (index : Nat) (h : Arrives kinds ls bs []) :
    ∃ nodes, onePass kinds index ls = .ok ⟨bs, nodes⟩ := by
  obtain ⟨nodes, same⟩ := h.onePass_eq index
  refine ⟨nodes, ?_⟩
  rw [same, onePass]
  simp only [Except.map, List.append_nil]

theorem onePass_of_stuck {bs : List Block} {ls' : List Lexeme} {cause : ComponentError}
    (h : Arrives kinds ls bs ls') (stuck : Stuck kinds cause ls') :
    onePass kinds index ls = .error cause := by
  obtain ⟨l, rest, tag, kind, rfl, token, found, failed⟩ := stuck
  obtain ⟨nodes, same⟩ := h.onePass_eq index
  rw [same, onePass_refused token found failed]
  rfl

theorem arrives_of_ok {layout : Layout} (h : onePass kinds index ls = .ok layout) :
    Arrives kinds ls layout.blocks [] := by
  obtain ⟨bs, ls', arrives, rfl | ⟨cause, stuck⟩⟩ := exists_arrival kinds ls
  · obtain ⟨nodes, same⟩ := onePass_of_arrives_nil index arrives
    rw [h] at same
    cases same
    exact arrives
  · rw [onePass_of_stuck arrives stuck] at h
    cases h

/-- Reading fails only where it gets stuck. -/
theorem arrives_of_error {cause : ComponentError} (h : onePass kinds index ls = .error cause) :
    ∃ bs ls', Arrives kinds ls bs ls' ∧ Stuck kinds cause ls' := by
  obtain ⟨bs, ls', arrives, rfl | ⟨cause', stuck⟩⟩ := exists_arrival kinds ls
  · obtain ⟨nodes, same⟩ := onePass_of_arrives_nil index arrives
    rw [h] at same
    cases same
  · rw [onePass_of_stuck arrives stuck] at h
    cases h
    exact ⟨bs, ls', arrives, stuck⟩

/-- A text is refused at the start tag of a block. -/
theorem exists_refused {text : String} {cause : ComponentError}
    (failed : read kinds text = .error cause) :
    ∃ bs l rest tag kind, Arrives kinds (Dialect.component.lexemes text) bs (l :: rest) ∧
      l.token = .startTag tag ∧ blockKind? kinds tag = some kind ∧
      readBlock kind tag l rest = .error cause := by
  obtain ⟨bs, ls, arrives, l, rest, tag, kind, rfl, token, found, refused⟩ :=
    arrives_of_error ((read_eq_onePass kinds text).symm.trans failed)
  exact ⟨bs, l, rest, tag, kind, arrives, token, found, refused⟩

end ComponentLoader.Layout
