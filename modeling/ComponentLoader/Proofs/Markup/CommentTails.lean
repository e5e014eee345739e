import ComponentLoader.Proofs.Markup.CommentReaches
import ComponentLoader.Proofs.Markup.TagTails
import ComponentLoader.Proofs.Text.Leftmost

/-! Comments before different tails. Where a comment ends depends on all that is left
of the text, but only for the closer `--!>`, which ends a comment wherever it is.
As long as the other tail brings in no such closer, a comment that ends before the
tail does so in both texts. -/
namespace ComponentLoader

namespace Text

/-- What a text begins with is seen before the next bracket. -/
theorem startsWith_append {p a : List Char} (plain : '>' ∉ p) (bracket : '>' ∈ a) (s : List Char) :
    startsWith p (a ++ s) = startsWith p a := by
  induction p generalizing a with
  | nil => rfl
  | cons ch p ih =>
    cases a with
    | nil => cases bracket
    | cons c a =>
      simp only [startsWith, List.cons_append, stripStart] at ih ⊢
      split
      · next same =>
        subst same
        refine ih (fun h => plain (List.mem_cons_of_mem _ h)) ?_
        rcases List.mem_cons.mp bracket with rfl | later
        · exact absurd List.mem_cons_self plain
        · exact later
      · rfl

end Text

namespace Markup

def strongCloser : List Char := ['-', '-', '!', '>']

/-- Putting the tail `v` in the place of `u` brings in no closer that could end a comment. -/
def NoCloserComes (u v : List Char) : Prop :=
  ∀ a, ¬ strongCloser <:+: a ++ u → ¬ strongCloser <:+: a ++ v

namespace Cursor

theorem tagFaults_report (c : Cursor) {kind : FaultKind} (h : kind.isTagSyntax = false) :
    (c.report kind).tagFaults = c.tagFaults := by
  simp [tagFaults, report, h]

theorem tagFaults_reportIf (c : Cursor) (b : Bool) {kind : FaultKind}
    (h : kind.isTagSyntax = false) : (c.reportIf b kind).tagFaults = c.tagFaults := by
  unfold reportIf
  split
  · exact tagFaults_report c h
  · rfl

theorem tagFaults_skipCommentBody (c : Cursor) (body : List Char) :
    (c.skipCommentBody body).tagFaults = c.tagFaults := by
  fun_induction skipCommentBody c body with
  | case1 c body none => rfl
  | case2 c body before inner found next ih =>
    rw [ih, tagFaults_reportIf _ _ rfl]
    rfl

theorem tagFaults_skipCommentCloser (c : Cursor) :
    c.skipCommentCloser.tagFaults = c.tagFaults := by
  unfold skipCommentCloser
  split
  · exact tagFaults_report c rfl
  · exact tagFaults_report c rfl
  · rfl

theorem tagFaults_readComment (c : Cursor) : c.readComment.2.tagFaults = c.tagFaults := by
  unfold readComment
  split
  · exact (tagFaults_skipCommentCloser _).trans (tagFaults_skipCommentBody _ _)
  · split
    · exact (tagFaults_skipCommentCloser _).trans (tagFaults_report c rfl)
    · exact (tagFaults_skipCommentCloser _).trans (tagFaults_skipCommentBody _ _)

/-- The first closer of a text that counts, with the text before it and the text after it. -/
def closer? (s : List Char) : Option (List Char × List Char) :=
  (Text.splitOnce strongCloser s).or (Text.splitOnce ['-', '-', '>'] s)

theorem rest_skipCommentCloser {c : Cursor} {before after s : List Char}
    (found : closer? s = some (before, after)) (parts : s = before ++ c.rest) :
    c.skipCommentCloser.rest = after := by
  rcases Option.or_eq_some_iff.mp found with strong | ⟨-, weak⟩
  · have whole := parts.symm.trans (Text.eq_of_splitOnce strong)
    rw [List.append_assoc] at whole
    have hr : c.rest = '-' :: '-' :: '!' :: '>' :: after := List.append_cancel_left whole
    simp [skipCommentCloser, hr]
  · have whole := parts.symm.trans (Text.eq_of_splitOnce weak)
    rw [List.append_assoc] at whole
    have hr : c.rest = '-' :: '-' :: '>' :: after := List.append_cancel_left whole
    simp [skipCommentCloser, hr]

/-- What is left after a comment is what follows its closer. -/
theorem rest_readComment (c : Cursor) :
    c.readComment.2.rest = ((closer? c.rest).map (·.2)).getD [] := by
  cases found : closer? c.rest with
  | none =>
    have open? : beforeCloser? c.rest = none := Option.map_eq_none_iff.mpr found
    have whole : (c.skip 4).rest = c.rest.drop 4 ++ [] := (List.append_nil _).symm
    obtain ⟨-, left⟩ := reaches_skipCommentBody whole
    simp only [readComment, open?]
    unfold skipCommentCloser
    rw [left]
    exact left
  | some parts =>
    obtain ⟨before, after⟩ := parts
    have closed : beforeCloser? c.rest = some before := by
      rw [beforeCloser?]
      exact Option.map_eq_some_iff.mpr ⟨_, found, rfl⟩
    obtain ⟨closing, whole, -⟩ := eq_of_beforeCloser closed
    simp only [readComment, closed, Option.map_some, Option.getD_some]
    split
    · refine rest_skipCommentCloser found ?_
      rw [rest_skip, rest_report, whole, List.drop_left]
    · next short =>
      have body : (c.skip 4).rest = before.drop 4 ++ closing := by
        rw [rest_skip, whole, List.drop_append_of_le_length (Nat.le_of_not_lt short)]
      obtain ⟨-, left⟩ := reaches_skipCommentBody body
      refine rest_skipCommentCloser found ?_
      rw [left, whole]

variable {u v : List Char} {c c' : Cursor}

/-- A comment that ends before the tail `u` ends there before the tail `v` as well. -/
theorem closer_append {a b before : List Char} (found : closer? (a ++ u) = some (before, b ++ u))
    (quiet : NoCloserComes u v) : closer? (a ++ v) = some (before, b ++ v) ∧ '>' ∈ a := by
  have moved {sep : List Char} (bracket : '>' ∈ sep)
      (found : Text.splitOnce sep (a ++ u) = some (before, b ++ u)) :
      Text.splitOnce sep (a ++ v) = some (before, b ++ v) ∧ '>' ∈ a := by
    have parts := Text.eq_of_splitOnce found
    rw [← List.append_assoc] at parts
    obtain rfl := List.append_cancel_right parts
    refine ⟨?_, by simp [bracket]⟩
    simp only [List.append_assoc] at found ⊢
    exact Text.splitOnce_before found _
  rcases Option.or_eq_some_iff.mp found with strong | ⟨none, weak⟩
  · obtain ⟨found', bracket⟩ := moved (by decide) strong
    exact ⟨Option.or_eq_some_iff.mpr (.inl found'), bracket⟩
  · obtain ⟨found', bracket⟩ := moved (by decide) weak
    refine ⟨Option.or_eq_some_iff.mpr (.inr ⟨?_, found'⟩), bracket⟩
    rw [Text.splitOnce_eq_none_iff] at none ⊢
    exact quiet a none

/-- A comment has come to an end before the tail `u`, and nothing in the tail `v` ends it
earlier. -/
def Shuts (u v : List Char) (c : Cursor) : Prop :=
  ∃ b, c.rest = b ++ u ∧ (u = [] ∧ v = [] ∨ b ++ u ≠ [] ∧ NoCloserComes u v)

theorem Beside.readComment (h : Beside u v c c') (shuts : Shuts u v c.readComment.2) :
    Ahead u v c.rest ∧ Beside u v c.readComment.2 c'.readComment.2 := by
  have faults : c.readComment.2.tagFaults = c'.readComment.2.tagFaults := by
    rw [tagFaults_readComment, tagFaults_readComment]
    exact h.faults
  obtain ⟨a, ha, ha'⟩ := h.rest
  obtain ⟨b, left, ⟨rfl, rfl⟩ | ⟨more, quiet⟩⟩ := shuts
  · have same : c.readComment.2.rest = c'.readComment.2.rest := by
      rw [rest_readComment, rest_readComment, ha, ha']
    exact ⟨⟨a, ha, .inl ⟨rfl, rfl⟩⟩, ⟨b, left, same ▸ left⟩, faults⟩
  · cases found : closer? c.rest with
    | none =>
      rw [rest_readComment, found] at left
      exact absurd left.symm more
    | some parts =>
      obtain ⟨before, after⟩ := parts
      rw [rest_readComment, found] at left
      have left : after = b ++ u := left
      rw [ha, left] at found
      obtain ⟨found', bracket⟩ := closer_append found quiet
      refine ⟨⟨a, ha, .inr bracket⟩, ⟨b, ?_, ?_⟩, faults⟩
      · rw [rest_readComment, ha, found]
        rfl
      · rw [rest_readComment, ha', found']
        rfl

theorem skipNext_of_cons {c : Cursor} {ch : Char} {r : List Char} (h : c.rest = ch :: r) :
    c.skipNext = c.skip 1 := by
  rw [skipNext, h]
  rfl

theorem Twin.skipNext_beside {b : List Char} (h : Twin u v c c')
    (left : c.skipNext.rest = b ++ u) : Beside u v c.skipNext c'.skipNext := by
  have head := h.head
  cases hr : c.rest with
  | nil =>
    obtain ⟨a, ha, ha', -⟩ := h.rest
    rw [hr] at head
    have hr' : c'.rest = [] := List.head?_eq_none_iff.mp head.symm
    have empty := List.append_eq_nil_iff.mp (ha.symm.trans hr)
    have empty' := List.append_eq_nil_iff.mp (ha'.symm.trans hr')
    refine ⟨⟨[], ?_, ?_⟩, h.faults⟩
    · rw [rest_skipNext, hr, empty.2]
      rfl
    · rw [rest_skipNext, hr', empty'.2]
      rfl
  | cons ch r =>
    rw [rest_skipNext, hr] at left
    have parts : c.rest = [ch] ++ (b ++ u) := by
      rw [hr, ← left]
      rfl
    obtain ⟨parts', beside⟩ := h.beside.skip parts
    rw [skipNext_of_cons parts, skipNext_of_cons parts']
    exact beside

theorem rest_readBogusComment (c : Cursor) (n : Nat) :
    (c.readBogusComment n).2.rest = ((c.rest.drop n).dropWhile (· != '>')).drop 1 := by
  simp [readBogusComment]

theorem Beside.readBogusComment (h : Beside u v c c') {n : Nat} (length : n ≤ c.rest.length)
    (shuts : Shuts u v (c.readBogusComment n).2) :
    Ahead u v c.rest ∧ Beside u v (c.readBogusComment n).2 (c'.readBogusComment n).2 := by
  obtain ⟨b, left, settled⟩ := shuts
  have content : Ahead u v ((c.skip n).takeWhile (· != '>')).2.rest := by
    rcases settled with ⟨rfl, rfl⟩ | ⟨more, -⟩
    · exact ⟨_, (List.append_nil _).symm, .inl ⟨rfl, rfl⟩⟩
    · rw [rest_readBogusComment] at left
      have bracket := List.head?_dropWhile_not (· != '>') (c.rest.drop n)
      rw [rest_takeWhile, rest_skip]
      cases rest : (c.rest.drop n).dropWhile (· != '>') with
      | nil =>
        rw [rest] at left
        exact absurd left.symm more
      | cons ch r =>
        rw [rest] at left bracket
        have left : r = b ++ u := left
        have closing : ch = '>' := by simpa using bracket
        exact ⟨'>' :: b, by rw [closing, left]; rfl, .inr List.mem_cons_self⟩
  have opened : Ahead u v (c.skip n).rest := (reaches_takeWhile _ _).ahead content
  have start := (reaches_skip length).ahead opened
  refine ⟨start, ?_⟩
  exact (((h.twin start).skip opened).takeWhile content).2.skipNext_beside left

end Cursor

end Markup

end ComponentLoader
