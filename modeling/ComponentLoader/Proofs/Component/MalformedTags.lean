import ComponentLoader.Proofs.Component.SharedFaults

/-! Malformed tags. A file is refused for a fault in a tag only where reading arrives at the start
tag of a block, and only for a fault of this very tag. The faults of everything else, of elements
and end tags, of comments and texts, and of all that blocks hold, come to nothing. -/
namespace ComponentLoader

open Markup (Dialect Fault Lexeme Tag Token)

namespace Layout

section Relabelled

/-! The faults of a lexeme matter only where reading arrives at it as at the start tag of a
block. -/

variable {g : Lexeme → Lexeme} (same : ∀ l, (g l).token = l.token ∧ (g l).span = l.span)

include same

theorem blockEnd_map (name : String) (depth : Nat) (ls : List Lexeme) :
    blockEnd? name depth (ls.map g) =
      (blockEnd? name depth ls).map fun (span, after) => (span, after.map g) := by
  have ends (l : Lexeme) : (g l).ends name = l.ends name := by
    simp only [Lexeme.ends, (same l).1]
  have begins (l : Lexeme) : (g l).begins name = l.begins name := by
    simp only [Lexeme.begins, (same l).1]
  induction ls generalizing depth with
  | nil => rfl
  | cons l ls ih =>
    rw [List.map_cons]
    cases ending : l.ends name with
    | true =>
      have ending' := (ends l).trans ending
      cases depth with
      | zero =>
        rw [blockEnd_here ending, blockEnd_here ending', (same l).2]
        rfl
      | succ depth => rw [blockEnd_of_ends ending, blockEnd_of_ends ending', ih]
    | false =>
      rw [blockEnd_of_not_ends ending, blockEnd_of_not_ends ((ends l).trans ending), ih]
      simp only [List.countP_singleton, begins]

theorem emptying_map (opened : List String) (ls : List Lexeme) :
    emptying? opened (ls.map g) =
      (emptying? opened ls).map fun (last, after) => (g last, after.map g) := by
  induction ls generalizing opened with
  | nil => rfl
  | cons l ls ih =>
    rw [List.map_cons, emptying_cons, emptying_cons, (same l).1, ih]
    split <;> rfl

theorem readBlock_map {l : Lexeme}
    (own : (g l).faults.find? (·.kind.isTagSyntax) = l.faults.find? (·.kind.isTagSyntax))
    (kind : BlockKind) (tag : Tag) (rest : List Lexeme) :
    readBlock kind tag (g l) (rest.map g) =
      (readBlock kind tag l rest).map fun (b, after) => (b, after.map g) := by
  simp only [readBlock, own, (same l).2, blockEnd_map same]
  split
  · rfl
  · split
    · rfl
    · cases blockEnd? tag.name 0 rest <;> rfl

/-- A file is laid out as with other faults, as long as each start tag of a block at which reading
arrives keeps its first fault in tags. -/
theorem onePass_map {kinds : BlockKinds} {ls : List Lexeme} (index : Nat)
    (own : ∀ bs l rest tag kind, Arrives kinds ls bs (l :: rest) → l.token = .startTag tag →
      blockKind? kinds tag = some kind →
      (g l).faults.find? (·.kind.isTagSyntax) = l.faults.find? (·.kind.isTagSyntax)) :
    onePass kinds index (ls.map g) = onePass kinds index ls := by
  fun_induction onePass kinds index ls with
  | case1 index => rw [List.map_nil, onePass]
  | case2 index l rest tag token kind found cause failed =>
    have mapped := readBlock_map same (own [] l rest tag kind (.here _) token found) kind tag rest
    rw [failed] at mapped
    exact onePass_refused ((same l).1.trans token) found mapped
  | case3 index l rest tag token kind found b after read ih =>
    have mapped := readBlock_map same (own [] l rest tag kind (.here _) token found) kind tag rest
    rw [read] at mapped
    rw [List.map_cons, onePass_block ((same l).1.trans token) found mapped, ih]
    intro bs k rest' tag' kind' arrives
    exact own (b :: bs) k rest' tag' kind' (.block token found read arrives)
  | case4 index l rest tag token plain last after closed ih =>
    split at closed
    · next opens =>
      have mapped := emptying_map same [tag.name] rest
      rw [closed] at mapped
      rw [List.map_cons, onePass_element ((same l).1.trans token) plain opens mapped, ih,
        (same l).2, (same last).2]
      intro bs k rest' tag' kind' arrives
      exact own bs k rest' tag' kind' (.element token plain opens closed arrives)
    · cases closed
  | case5 index l rest tag token plain endless ih =>
    have alone (opens : tag.opens = true) : emptying? [tag.name] rest = none := by
      rwa [dif_pos opens] at endless
    rw [List.map_cons, onePass_alone ((same l).1.trans token) plain, ih, (same l).2]
    · intro bs k rest' tag' kind' arrives
      exact own bs k rest' tag' kind' (.alone token plain alone arrives)
    · intro opens
      rw [emptying_map same, alone opens]
      rfl
  | case6 index l rest content token ih =>
    rw [List.map_cons, onePass_comment ((same l).1.trans token), ih, (same l).2]
    intro bs k rest' tag' kind' arrives
    refine own bs k rest' tag' kind' (.other ?_ arrives)
    intro tag other
    rw [token] at other
    cases other
  | case7 index l rest noTag noComment ih =>
    rw [List.map_cons, onePass_text, ih, (same l).2]
    · intro bs k rest' tag' kind' arrives
      exact own bs k rest' tag' kind' (.other noTag arrives)
    · intro tag
      rw [(same l).1]
      exact noTag tag
    · intro content
      rw [(same l).1]
      exact noComment content

end Relabelled

/-- A block is refused as malformed for the first fault in its tag. -/
theorem fault_of_readBlock {kind : BlockKind} {tag : Tag} {l : Lexeme} {rest : List Lexeme}
    {name : String} {fault : Fault}
    (h : readBlock kind tag l rest = .error (.malformedTag name fault)) :
    tag.name = name ∧ l.faults.find? (·.kind.isTagSyntax) = some fault := by
  cases first : l.faults.find? (·.kind.isTagSyntax) with
  | some met =>
    rw [readBlock, first] at h
    cases h
    exact ⟨rfl, rfl⟩
  | none =>
    rw [readBlock, first] at h
    dsimp only at h
    split at h
    · cases h
    · split at h <;> cases h

end Layout

namespace Component

variable {o : ComponentOptions} {source : String} {cause : ComponentError}

/-- A file that cannot be read has a text that cannot be laid out, or its script is not found. -/
theorem exists_scanned (failed : read o source = .error cause) :
    cause = .scriptNotRecognized ∨
      ∃ text, Scanned o source text ∧ Layout.read o.kinds text = .error cause := by
  rcases error_cases failed with refused | ⟨written, first, asked, refused | rfl⟩
  · exact .inr ⟨source, .inl rfl, refused⟩
  · exact .inr ⟨_, .inr ⟨written, first, asked, rfl⟩, refused⟩
  · exact .inl rfl

/-- Only the start tag of a block can be malformed. Whether the faults are put into one list, of
which each such tag takes those that lie in it, or stay with their lexemes is the same. A file
is refused for a malformed tag where reading its text, or the text with a script put in,
arrives at the start tag of a block that has a fault in it of those in tags, and for the first of
these. Whatever faults the other lexemes have, no layout and no error comes of them. -/
theorem malformed_block_tag (o : ComponentOptions) (source : String) :
    (∀ text, Layout.readShared o.kinds text = Layout.read o.kinds text) ∧
    (∀ name fault, read o source = .error (.malformedTag name fault) ↔
      ∃ text bs l rest tag kind, Scanned o source text ∧
        Layout.Arrives o.kinds (Dialect.component.lexemes text) bs (l :: rest) ∧
        l.token = .startTag tag ∧ Layout.blockKind? o.kinds tag = some kind ∧ tag.name = name ∧
        l.faults.find? (·.kind.isTagSyntax) = some fault) ∧
    ∀ text (g : Lexeme → Lexeme), (∀ l, (g l).token = l.token ∧ (g l).span = l.span) →
      (∀ bs l rest tag kind,
        Layout.Arrives o.kinds (Dialect.component.lexemes text) bs (l :: rest) →
        l.token = .startTag tag → Layout.blockKind? o.kinds tag = some kind →
        (g l).faults.find? (·.kind.isTagSyntax) = l.faults.find? (·.kind.isTagSyntax)) →
      let ls := (Dialect.component.lexemes text).map g
      Layout.rescan o.kinds ls (ls.map (·.span.start.offset)) = Layout.read o.kinds text := by
  refine ⟨Layout.readShared_eq o.kinds, ?_, ?_⟩
  · intro name fault
    constructor
    · intro failed
      rcases exists_scanned failed with other | ⟨text, scanned, refused⟩
      · cases other
      obtain ⟨bs, l, rest, tag, kind, arrives, token, found, malformed⟩ :=
        Layout.exists_refused refused
      refine ⟨text, bs, l, rest, tag, kind, scanned, arrives, token, found, ?_⟩
      exact Layout.fault_of_readBlock malformed
    · rintro ⟨text, bs, l, rest, tag, kind, scanned, arrives, token, found, rfl, first⟩
      refine read_of_scanned scanned ?_
      have malformed :
          Layout.readBlock kind tag l rest = .error (.malformedTag tag.name fault) := by
        rw [Layout.readBlock, first]
      rw [Layout.read_eq_onePass]
      exact Layout.onePass_of_stuck arrives ⟨l, rest, tag, kind, rfl, token, found, malformed⟩
  · intro text g same own ls
    have ordered : Layout.Ordered ls := by
      refine List.pairwise_map.mpr ?_
      simp only [(same _).2]
      exact Layout.ordered_lexemes text
    rw [Layout.rescan_all_eq_onePass ordered, Layout.read_eq_onePass]
    exact Layout.onePass_map same 0 own

/-- The attribute that the element repeats is passed over, the one that the block repeats is not. -/
example : (match read {} "<i a a></i><template b b></template>" with
    | .error cause => some cause
    | .ok _ => none) =
    some (.malformedTag "template" ⟨.duplicateAttribute, .point ⟨24, 1, 25⟩, ""⟩) := by
  decide +kernel

end Component

end ComponentLoader
