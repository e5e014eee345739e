import ComponentLoader.Proofs.Text.Leftmost
import ComponentLoader.Template.Text

/-! What a text with interpolations is made of. From the left, each opening delimiter begins an
interpolation, which ends at the nearest closing delimiter; the text before it and the text
after the last one are literal. Literal text that was read in several pieces is one literal
again in the expression. -/
namespace ComponentLoader.Template

open Markup (Delimiters)

open Text (BeginsIn First)

def literal (s : List Char) : List Expr := if s = [] then [] else [.string (String.ofList s)]

/-- The segments of a text, taken apart from the left. -/
inductive Decomposes (d : Delimiters) : List Char → List Expr → Prop
  | literal {s : List Char} (plain : ¬ d.opening.toList <:+: s) : Decomposes d s (literal s)
  | interpolation {s before after inner rest expr : List Char} {filters : List (List Char)}
      {segments : List Expr} (opens : First d.opening.toList s before after)
      (closes : First d.closing.toList after inner rest)
      (parts : Filter.split inner = expr :: filters) (tail : Decomposes d rest segments) :
      Decomposes d s
        (literal before ++
          .interpolation (String.ofList expr) (filters.map String.ofList) :: segments)

/-- Where taking the text `v` apart goes on: at its beginning, and after each interpolation. -/
inductive Scanned (d : Delimiters) (v : List Char) : List Char → Prop
  | start : Scanned d v v
  | after {s before after inner rest : List Char} (scanned : Scanned d v s)
      (opens : First d.opening.toList s before after)
      (closes : First d.closing.toList after inner rest) : Scanned d v rest

/-- Every opening delimiter that is reached has a closing delimiter after it. -/
def Closed (d : Delimiters) (v : List Char) : Prop :=
  ∀ s before after, Scanned d v s → First d.opening.toList s before after →
    d.closing.toList <:+: after

variable {d : Delimiters} {s v a b : List Char} {es : List Expr}

namespace Filter

/-- There is always an expression before the filters. -/
theorem exists_split (s : List Char) : ∃ expr filters, split s = expr :: filters :=
  List.exists_cons_of_ne_nil fun none => cut_ne_nil _ _ _ (List.map_eq_nil_iff.mp none)

end Filter

theorem exists_decomposition (named : d.opening ≠ "") (closed : Closed d v) :
    ∃ es, Decomposes d v es := by
  suffices ∀ n s, s.length ≤ n → Scanned d v s → ∃ es, Decomposes d s es from
    this v.length v (Nat.le_refl _) .start
  intro n
  induction n with
  | zero =>
    intro s short _
    obtain rfl := List.length_eq_zero_iff.mp (Nat.le_zero.mp short)
    refine ⟨_, .literal fun occurs => named ?_⟩
    exact String.toList_eq_nil_iff.mp (List.infix_nil.mp occurs)
  | succ n ih =>
    intro s short scanned
    by_cases occurs : d.opening.toList <:+: s
    · obtain ⟨before, after, opens⟩ := Text.exists_first occurs
      obtain ⟨inner, rest, closes⟩ := Text.exists_first (closed s before after scanned opens)
      obtain ⟨expr, filters, parts⟩ := Filter.exists_split inner
      have some : 0 < d.opening.toList.length :=
        List.length_pos_iff.mpr fun none => named (String.toList_eq_nil_iff.mp none)
      have shorter : rest.length ≤ n := by
        rw [opens.parts, closes.parts] at short
        simp only [List.length_append] at short
        omega
      obtain ⟨segments, tail⟩ := ih rest shorter (.after scanned opens closes)
      exact ⟨_, .interpolation opens closes parts tail⟩
    · exact ⟨_, .literal occurs⟩

/-- A text that can be taken apart is closed, and so is all that is left of it on the way. -/
theorem Decomposes.closed (h : Decomposes d v es) : Closed d v := by
  have decomposed {s : List Char} (scanned : Scanned d v s) : ∃ es, Decomposes d s es := by
    induction scanned with
    | start => exact ⟨es, h⟩
    | after scanned opens closes ih =>
      obtain ⟨_, own⟩ := ih
      cases own with
      | literal plain => exact absurd ⟨_, _, opens.parts.symm⟩ plain
      | interpolation opens' closes' parts tail =>
        obtain ⟨rfl, rfl⟩ := opens.unique opens'
        obtain ⟨rfl, rfl⟩ := closes.unique closes'
        exact ⟨_, tail⟩
  intro s before after scanned opens
  obtain ⟨_, own⟩ := decomposed scanned
  cases own with
  | literal plain => exact absurd ⟨_, _, opens.parts.symm⟩ plain
  | interpolation opens' closes parts tail =>
    obtain ⟨rfl, rfl⟩ := opens.unique opens'
    exact ⟨_, _, closes.parts.symm⟩

def NoText (es : List Expr) : Prop := ∀ t more, es ≠ .string t :: more

theorem noText_nil : NoText [] := by
  intro t more same
  cases same

theorem noText_interpolation {expr : String} {filters : List String} :
    NoText (.interpolation expr filters :: es) := by
  intro t more same
  cases same

/-- Literal text is joined to literal text that follows it. -/
theorem segments_literal {ps : List Piece} {c : List Char} (h : segments d ps = literal c ++ es)
    (noText : NoText es) :
    segments d (.literal (String.ofList a) :: ps) = literal (a ++ c) ++ es := by
  rw [segments, h]
  by_cases none : a = []
  · rw [if_pos (congrArg String.ofList none), none, List.nil_append]
  · have some : literal a = [.string (String.ofList a)] := if_neg none
    have written : ¬ String.ofList a = "" := fun empty => none (String.ofList_eq_empty_iff.mp empty)
    have long : ¬ a ++ c = [] := fun empty => none (List.append_eq_nil_iff.mp empty).1
    rw [if_neg written, literal, literal, if_neg long]
    by_cases last : c = []
    · subst last
      rw [if_pos rfl, List.nil_append, List.append_nil]
      split
      · next t more => exact absurd rfl (noText t more)
      · rfl
    · rw [if_neg last, String.ofList_append]
      rfl

theorem ofInterpolation_eq {inner expr : List Char} {filters : List (List Char)}
    (parts : Filter.split inner = expr :: filters) :
    Expr.ofInterpolation d (d.opening.toList ++ inner ++ d.closing.toList) =
      .interpolation (String.ofList expr) (filters.map String.ofList) := by
  have stripped : stripDelimiters d (d.opening.toList ++ inner ++ d.closing.toList) = inner := by
    unfold stripDelimiters
    dsimp only
    rw [List.append_assoc, Text.stripStart_append, Option.getD_some,
      Text.stripEnd_eq_some_iff.mpr rfl, Option.getD_some]
  rw [Expr.ofInterpolation, stripped, parts]

/-- Where no interpolation begins in the first part of a text, the part is literal text before what
the rest is made of. -/
theorem Decomposes.tail (absent : ¬ BeginsIn d.opening.toList a b) (h : Decomposes d (a ++ b) es) :
    ∃ es', Decomposes d b es' ∧
      ∀ ps, segments d ps = es' → segments d (.literal (String.ofList a) :: ps) = es := by
  generalize whole : a ++ b = s at h
  cases h with
  | literal plain =>
    subst whole
    refine ⟨_, .literal fun occurs => plain (occurs.trans List.infix_append_right), ?_⟩
    intro ps rest
    have joined : segments d (.literal (String.ofList a) :: ps) = Template.literal (a ++ b) ++ [] :=
      segments_literal (rest.trans (List.append_nil _).symm) noText_nil
    rwa [List.append_nil] at joined
  | interpolation opens closes parts tail =>
    subst whole
    obtain ⟨c, rfl, opens'⟩ := opens.of_not_beginsIn absent
    exact ⟨_, .interpolation opens' closes parts tail, fun ps rest =>
      segments_literal rest noText_interpolation⟩

/-- The pieces of a text make up what the text is made of. -/
theorem segments_pieces (named : d.opening ≠ "") (h : Decomposes d s es) :
    segments d (pieces d s) = es := by
  induction h with
  | @literal s plain =>
    have whole : segments d [.literal (String.ofList s)] = literal (s ++ []) ++ [] :=
      segments_literal (c := []) rfl noText_nil
    rw [pieces, dif_neg named]
    split
    · rw [whole, List.append_nil, List.append_nil]
    · next found =>
      exact absurd ⟨_, _, (Text.eq_of_splitOnce found).symm⟩ plain
  | @interpolation s before after inner rest expr filters es opens closes parts tail ih =>
    rw [pieces, dif_neg named]
    split
    · next none =>
      rw [Text.splitOnce_eq_some_iff.mpr opens] at none
      cases none
    · next x y found =>
      rw [Text.splitOnce_eq_some_iff.mpr opens] at found
      cases found
      split
      · next none =>
        rw [Text.splitOnce_eq_some_iff.mpr closes] at none
        cases none
      · next x y found =>
        rw [Text.splitOnce_eq_some_iff.mpr closes] at found
        cases found
        have first : segments d (.interpolation (d.opening ++ String.ofList inner ++ d.closing) ::
            pieces d rest) =
              literal [] ++
                .interpolation (String.ofList expr) (filters.map String.ofList) :: es := by
          rw [segments, ih, String.toList_append, String.toList_append, String.toList_ofList,
            ofInterpolation_eq parts]
          rfl
        rw [segments_literal first noText_interpolation, List.append_nil]

end ComponentLoader.Template
