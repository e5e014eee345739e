import ComponentLoader.Proofs.Markup.Tails

/-! How far a comment goes. It ends at its nearest closer if that is `--!>`, or if no `--!>` follows
at all. Otherwise it goes on over the nearest closer, and over all that comes after it, to the first
`--!>`. -/
namespace ComponentLoader.Markup

/-- The closer that ends a comment only where there is no other. -/
def weakCloser : List Char := ['-', '-', '>']

def commentOpening : List Char := ['<', '!', '-', '-']

/-- A closer in the text of a comment, which begins with the opening bracket. It may share hyphens
with the opening. -/
structure Closer (s before closer after : List Char) : Prop where
  parts : s = before ++ closer ++ after
  kind : closer = weakCloser ∨ closer = strongCloser
  late : 2 ≤ before.length

/-- The closer of a comment with the least text before it. -/
structure NearestCloser (s before closer after : List Char) : Prop
    extends Closer s before closer after where
  nearest : ∀ before' closer' after', Closer s before' closer' after' →
    before.length ≤ before'.length

/-- The comment at the front of a text takes a part of it, says what stands in it, and leaves the
rest. -/
inductive CommentExtent (s : List Char) : (taken body rest : List Char) → Prop
  | unclosed (none : ∀ before closer after, ¬ Closer s before closer after) :
      CommentExtent s s (s.drop 4) []
  | nearest {before closer rest : List Char} (here : NearestCloser s before closer rest)
      (last : closer = weakCloser → ¬ strongCloser <:+: rest) :
      CommentExtent s (before ++ closer) (before.drop 4) rest
  | beyond {before after more rest : List Char} (here : NearestCloser s before weakCloser after)
      (later : Text.First strongCloser after more rest) :
      CommentExtent s (before ++ weakCloser ++ more ++ strongCloser)
        ((before ++ weakCloser ++ more).drop 4) rest

section Closers

variable {s before closer after b c a : List Char}

theorem Closer.length (h : Closer s before closer after) :
    3 ≤ closer.length ∧ closer.length ≤ 4 := by
  rcases h.kind with rfl | rfl
  · exact ⟨Nat.le_refl 3, by decide⟩
  · exact ⟨by decide, Nat.le_refl 4⟩

theorem NearestCloser.unique (h : NearestCloser s before closer after)
    (h' : NearestCloser s b c a) : before = b ∧ closer = c ∧ after = a := by
  have length : before.length = b.length :=
    Nat.le_antisymm (h.nearest _ _ _ h'.toCloser) (h'.nearest _ _ _ h.toCloser)
  have parts := h.parts.symm.trans h'.parts
  rw [List.append_assoc, List.append_assoc] at parts
  obtain ⟨rfl, same⟩ := List.append_inj parts length
  refine ⟨rfl, ?_⟩
  rcases h.kind with rfl | rfl <;> rcases h'.kind with rfl | rfl
  · exact ⟨rfl, List.append_cancel_left same⟩
  · cases same
  · cases same
  · exact ⟨rfl, List.append_cancel_left same⟩

/-- What is the nearest closer does not depend on what follows it. -/
theorem NearestCloser.before_any (h : NearestCloser s before closer after) (t : List Char) :
    NearestCloser (before ++ closer ++ t) before closer t := by
  refine ⟨⟨rfl, h.kind, h.late⟩, fun b c a other => ?_⟩
  apply Nat.le_of_not_lt
  intro early
  have lengths := other.length
  have long := h.toCloser.length
  have start : b ++ c <+: before ++ closer ++ t := by
    rw [other.parts]
    exact List.prefix_append _ _
  have short : (b ++ c).length ≤ (before ++ closer).length := by
    rw [List.length_append, List.length_append]
    omega
  obtain ⟨r, within⟩ := List.prefix_of_prefix_length_le start (List.prefix_append _ _) short
  have earlier : Closer s b c (r ++ after) :=
    ⟨by rw [h.parts, ← within, List.append_assoc _ r after], other.kind, other.late⟩
  exact Nat.not_lt.mpr (h.nearest _ _ _ earlier) early

/-- The comment ends at its nearest closer exactly if that is not followed by a stronger one. -/
theorem NearestCloser.commentExtent_iff (h : NearestCloser s before closer after) :
    CommentExtent s (before ++ closer) (before.drop 4) after ↔
      (closer = weakCloser → ¬ strongCloser <:+: after) := by
  constructor
  · intro ends
    generalize takes : before ++ closer = taken at ends
    generalize before.drop 4 = body at ends
    cases ends with
    | unclosed none => exact absurd h.toCloser (none _ _ _)
    | nearest here last =>
      obtain ⟨-, rfl, -⟩ := h.unique here
      exact last
    | beyond here later =>
      obtain ⟨rfl, rfl, -⟩ := h.unique here
      have lengths := congrArg List.length takes
      simp only [List.length_append] at lengths
      have strong : strongCloser.length = 4 := rfl
      omega
  · intro last
    exact .nearest h last

variable (opened : commentOpening <+: s)

include opened

/-- A closer cannot begin with the bracket of the opening, nor right after it. -/
theorem closer_of_parts (parts : s = before ++ closer ++ after)
    (kind : closer = weakCloser ∨ closer = strongCloser) : Closer s before closer after := by
  refine ⟨parts, kind, ?_⟩
  obtain ⟨t, rfl⟩ := opened
  match before with
  | [] | [_] => rcases kind with rfl | rfl <;> cases parts
  | _ :: _ :: _ => exact Nat.le_add_left _ _

/-- The closer with less text before it than any of the other kind is the nearest. -/
theorem nearest_of_first (h : Text.First closer s before after)
    (kind : closer = weakCloser ∨ closer = strongCloser)
    (others : ∀ closer' b a, closer' = weakCloser ∨ closer' = strongCloser →
      Text.First closer' s b a → before.length ≤ b.length) :
    NearestCloser s before closer after := by
  refine ⟨closer_of_parts opened h.parts kind, fun b c a other => ?_⟩
  have occurs : c <:+: s := ⟨b, a, other.parts.symm⟩
  obtain ⟨first, last, found⟩ := Text.exists_first occurs
  exact Nat.le_trans (others c first last other.kind found) (found.first _ _ other.parts)

omit opened in
/-- The stronger closer does not begin within the other. So where it is first found no earlier, it is
first found in what follows the other. -/
theorem first_after_weak {more rest : List Char} (weak : Text.First weakCloser s before after)
    (strong : Text.First strongCloser s more rest) (earlier : before.length ≤ more.length) :
    ∃ middle, more = before ++ weakCloser ++ middle ∧
      Text.First strongCloser after middle rest := by
  have parts := weak.parts.symm.trans strong.parts
  rw [List.append_assoc, List.append_assoc] at parts
  obtain ⟨y, rfl, further⟩ := (List.append_eq_append_iff.mp parts).resolve_right (by
    rintro ⟨y, rfl, further⟩
    rw [List.length_append] at earlier
    obtain rfl : y = [] := List.eq_nil_of_length_eq_zero (by omega)
    cases further)
  obtain ⟨middle, rfl⟩ : ∃ middle, y = weakCloser ++ middle := by
    match y with
    | [] | [_] | [_, _] => cases further
    | x :: y :: z :: middle =>
      simp only [weakCloser, List.cons_append, List.nil_append, List.cons.injEq] at further
      obtain ⟨rfl, rfl, rfl, -⟩ := further
      exact ⟨middle, rfl⟩
  refine ⟨middle, (List.append_assoc _ _ _).symm, ?_, fun x y occurs => ?_⟩
  · rw [List.append_assoc] at further
    rw [List.append_assoc]
    exact List.append_cancel_left further
  · have whole : s = before ++ weakCloser ++ x ++ strongCloser ++ y := by
      rw [weak.parts, occurs]
      simp only [List.append_assoc]
    have least := strong.first _ _ whole
    simp only [List.length_append] at least ⊢
    omega

theorem commentExtent_of_strong (strong : Text.First strongCloser s before after) :
    CommentExtent s (before ++ strongCloser) (before.drop 4) after := by
  cases found : Text.splitOnce weakCloser s with
  | none =>
    refine .nearest (nearest_of_first opened strong (.inr rfl) ?_) nofun
    rintro _ b a (rfl | rfl) other
    · rw [Text.splitOnce_eq_some_iff.mpr other] at found
      cases found
    · exact Nat.le_of_eq (congrArg List.length (strong.unique other).1)
  | some parts =>
    obtain ⟨b, a⟩ := parts
    have weak := Text.first_of_splitOnce found
    rcases Nat.le_total b.length before.length with earlier | later
    · obtain ⟨middle, rfl, further⟩ := first_after_weak weak strong earlier
      refine .beyond (nearest_of_first opened weak (.inl rfl) ?_) further
      rintro _ b' a' (rfl | rfl) other
      · exact Nat.le_of_eq (congrArg List.length (weak.unique other).1)
      · rw [← (strong.unique other).1]
        exact earlier
    · refine .nearest (nearest_of_first opened strong (.inr rfl) ?_) nofun
      rintro _ b' a' (rfl | rfl) other
      · rw [← (weak.unique other).1]
        exact later
      · exact Nat.le_of_eq (congrArg List.length (strong.unique other).1)

theorem commentExtent_of_weak (weak : Text.First weakCloser s before after)
    (none : ¬ strongCloser <:+: s) :
    CommentExtent s (before ++ weakCloser) (before.drop 4) after := by
  refine .nearest (nearest_of_first opened weak (.inl rfl) ?_) ?_
  · rintro _ b a (rfl | rfl) other
    · exact Nat.le_of_eq (congrArg List.length (weak.unique other).1)
    · exact absurd ⟨b, a, other.parts.symm⟩ none
  · intro _ later
    rw [weak.parts] at none
    exact none (later.trans (List.suffix_append _ _).isInfix)

end Closers

namespace Cursor

/-- What a comment takes, says and leaves where it is read. -/
theorem readComment_extent {c : Cursor} (opened : commentOpening <+: c.rest) :
    ∃ taken body, CommentExtent c.rest taken body c.readComment.2.rest ∧
      c.rest = taken ++ c.readComment.2.rest ∧
      c.readComment.1 = .comment (String.ofList body) := by
  have left := rest_readComment c
  cases found : closer? c.rest with
  | none =>
    rw [found] at left
    obtain ⟨strong, weak⟩ := Option.or_eq_none_iff.mp found
    rw [Text.splitOnce_eq_none_iff] at strong weak
    refine ⟨c.rest, c.rest.drop 4, ?_, ?_, ?_⟩
    · rw [left]
      refine .unclosed fun before closer after closes => ?_
      rcases closes.kind with rfl | rfl
      · exact weak ⟨before, after, closes.parts.symm⟩
      · exact strong ⟨before, after, closes.parts.symm⟩
    · rw [left]
      exact (List.append_nil _).symm
    · have open? : beforeCloser? c.rest = none := Option.map_eq_none_iff.mpr found
      simp only [readComment, open?]
  | some parts =>
    obtain ⟨before, after⟩ := parts
    rw [found] at left
    have token : c.readComment.1 = .comment (String.ofList (before.drop 4)) := by
      have closed : beforeCloser? c.rest = some before :=
        Option.map_eq_some_iff.mpr ⟨_, found, rfl⟩
      simp only [readComment, closed]
      split
      · next short => rw [List.drop_eq_nil_of_le (Nat.le_of_lt short)]
      · rfl
    rw [left]
    rcases Option.or_eq_some_iff.mp found with strong | ⟨none, weak⟩
    · have first := Text.first_of_splitOnce strong
      exact ⟨_, _, commentExtent_of_strong opened first, first.parts, token⟩
    · have first := Text.first_of_splitOnce weak
      rw [Text.splitOnce_eq_none_iff] at none
      exact ⟨_, _, commentExtent_of_weak opened first none, first.parts, token⟩

/-- Where a comment is opened, it is what is read next. -/
theorem readData_comment {c : Cursor} {d : Dialect} (opened : commentOpening <+: c.rest)
    (noText : d.delimiters.openAt c.rest = false) :
    c.readData d = (c.readComment.1, .data, c.readComment.2) := by
  obtain ⟨t, front⟩ := opened
  have front : c.rest = '<' :: '!' :: '-' :: '-' :: t := front.symm
  have plain : (c.rest.takeWhile (!d.delimiters.stopsText ·)).length = 0 := by
    simp [front, Delimiters.stopsText]
  have bracket : c.rest.head? = some '<' := by rw [front]; rfl
  have declared : c.readDeclaration = c.readComment := by
    unfold readDeclaration
    rw [front]
    exact if_pos rfl
  simp only [readData, plain, noText, bracket, Nat.lt_irrefl, Bool.false_eq_true, if_true,
    if_false]
  rw [readMarkup_declaration front, declared]

end Cursor

/-- A comment that is read wherever everything may stand: how far it goes, and what it says. Where
it has a nearest closer it ends there, whatever comes after, exactly if that is `--!>` or is not
followed by one. -/
theorem comment_extent (d : Dialect) (p : Position) {s : List Char}
    (opened : commentOpening <+: s) (noText : d.delimiters.openAt s = false) :
    (∃ taken body rest faults, CommentExtent s taken body rest ∧ s = taken ++ rest ∧
      d.lexemesFrom .data p s =
        ⟨.comment (String.ofList body), ⟨p, p.advance taken⟩, faults⟩ ::
          d.lexemesFrom .data (p.advance taken) rest) ∧
    ∀ before closer after, NearestCloser s before closer after → ∀ t,
      CommentExtent (before ++ closer ++ t) (before ++ closer) (before.drop 4) t ↔
        (closer = weakCloser → ¬ strongCloser <:+: t) := by
  constructor
  · obtain ⟨c, here⟩ : ∃ c, c = Cursor.mk s p [] false := ⟨_, rfl⟩
    obtain rfl : c.rest = s := congrArg Cursor.rest here
    obtain ⟨taken, body, extent, parts, token⟩ := Cursor.readComment_extent opened
    have length : commentOpening.length ≤ c.rest.length := opened.length_le
    obtain ⟨moved, parts', stop⟩ := (Cursor.reaches_readComment length).text
    obtain rfl : taken = moved := List.append_cancel_right (parts.symm.trans parts')
    refine ⟨taken, body, _, c.readComment.2.faults, extent, parts, ?_⟩
    have more : 0 < c.rest.length := Nat.lt_of_lt_of_le (by decide) length
    rw [Dialect.lexemesFrom, dif_pos more, ← here]
    simp only [Cursor.read, Cursor.readData_comment opened noText]
    rw [token, stop, show c.position = p from congrArg Cursor.position here]
  · intro before closer after closes t
    exact (closes.before_any t).commentExtent_iff

/-- An element and all the text after a comment that a stronger closer swallows. -/
theorem comment_extent_past_nearest :
    let s := "<!--a--><b>--!>".toList
    let d := Dialect.component
    commentOpening <+: s ∧ d.delimiters.openAt s = false ∧
      (d.lexemesFrom .data .start s).map (·.token) = [.comment "a--><b>"] ∧
      NearestCloser s "<!--a".toList weakCloser "<b>--!>".toList ∧
      CommentExtent s s "a--><b>".toList [] ∧
      ¬ CommentExtent s "<!--a-->".toList "a".toList "<b>--!>".toList := by
  intro s d
  have opened : commentOpening <+: s := ⟨"a--><b>--!>".toList, by decide⟩
  have noText : d.delimiters.openAt s = false := by decide
  have tokens : (d.lexemesFrom .data .start s).map (·.token) = [.comment "a--><b>"] := by
    decide +kernel
  have weak : Text.First weakCloser s "<!--a".toList "<b>--!>".toList :=
    Text.first_of_splitOnce (by decide)
  have strong : Text.First strongCloser s "<!--a--><b>".toList [] :=
    Text.first_of_splitOnce (by decide)
  have near : NearestCloser s "<!--a".toList weakCloser "<b>--!>".toList := by
    refine nearest_of_first opened weak (.inl rfl) ?_
    rintro _ b a (rfl | rfl) other
    · exact Nat.le_of_eq (congrArg List.length (weak.unique other).1)
    · rw [← (strong.unique other).1]
      decide
  have later : Text.First strongCloser "<b>--!>".toList "<b>".toList [] :=
    Text.first_of_splitOnce (by decide)
  obtain ⟨-, ends⟩ := comment_extent d .start opened noText
  refine ⟨opened, noText, tokens, near, .beyond near later, fun short => ?_⟩
  exact (ends _ _ _ near _).mp short rfl ⟨"<b>".toList, [], by decide⟩

end ComponentLoader.Markup
