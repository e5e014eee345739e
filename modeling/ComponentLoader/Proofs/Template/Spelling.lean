import ComponentLoader.Proofs.Template.Decomposition

/-! What the expression of a text says: the characters of its literal pieces and its interpolations,
in their order and nothing else. The pieces of a text are found from the left. -/
namespace ComponentLoader.Template

open Markup (Delimiters)

open Text (First)

inductive Atom where
  | char (c : Char)
  | interpolation (text : String)

def Piece.atoms : Piece → List Atom
  | .literal text => text.toList.map .char
  | .interpolation text => [.interpolation text]

/-- What is left of an interpolation without the delimiters at its ends. -/
def Unwraps (d : Delimiters) (s inner : List Char) : Prop :=
  ∃ body, (s = d.opening.toList ++ body ∨ ¬ d.opening.toList <+: s ∧ body = s) ∧
    (body = inner ++ d.closing.toList ∨ ¬ d.closing.toList <:+ body ∧ inner = body)

/-- Expressions that spell atoms. No literal is empty, and none is followed by another. -/
inductive Spells (d : Delimiters) : List Expr → List Atom → Prop
  | nil : Spells d [] []
  | string {text : String} {es : List Expr} {atoms : List Atom} (some : text ≠ "")
      (apart : NoText es) (rest : Spells d es atoms) :
      Spells d (.string text :: es) (text.toList.map .char ++ atoms)
  | interpolation {text : String} {inner expr : List Char} {filters : List (List Char)}
      {es : List Expr} {atoms : List Atom} (unwraps : Unwraps d text.toList inner)
      (parts : Filter.split inner = expr :: filters) (rest : Spells d es atoms) :
      Spells d (.interpolation (String.ofList expr) (filters.map String.ofList) :: es)
        (.interpolation text :: atoms)

inductive Expr.StandsFor : Expr → List Expr → Prop
  | none : StandsFor (.string "") []
  | one (e : Expr) : StandsFor e [e]
  | several {es : List Expr} (more : 2 ≤ es.length) : StandsFor (.text es) es

/-- The expression says what the pieces consist of. -/
def Expr.Conveys (d : Delimiters) (run : List Piece) (e : Expr) : Prop :=
  ∃ es, e.StandsFor es ∧ Spells d es (run.flatMap Piece.atoms)

/-- The pieces of a text, taken apart from the left. An interpolation that nothing closes takes all
that is left. -/
inductive Divides (d : Delimiters) : List Char → List Piece → Prop
  | literal {s : List Char} (plain : d.opening = "" ∨ ¬ d.opening.toList <:+: s) :
      Divides d s [.literal (String.ofList s)]
  | unclosed {s before after : List Char} (named : d.opening ≠ "")
      (opens : First d.opening.toList s before after) (unclosed : ¬ d.closing.toList <:+: after) :
      Divides d s
        [.literal (String.ofList before), .interpolation (d.opening ++ String.ofList after)]
  | closed {s before after inner rest : List Char} {ps : List Piece} (named : d.opening ≠ "")
      (opens : First d.opening.toList s before after)
      (closes : First d.closing.toList after inner rest) (tail : Divides d rest ps) :
      Divides d s (.literal (String.ofList before) ::
        .interpolation (d.opening ++ String.ofList inner ++ d.closing) :: ps)

variable {d : Delimiters} {run ps : List Piece} {e : Expr} {es : List Expr} {atoms : List Atom}

theorem divides_pieces (d : Delimiters) (s : List Char) : Divides d s (pieces d s) := by
  fun_induction pieces d s with
  | case1 s unnamed => exact .literal (.inl unnamed)
  | case2 s named plain => exact .literal (.inr (Text.splitOnce_eq_none_iff.mp plain))
  | case3 s named before after opens ih =>
    have opens := Text.splitOnce_eq_some_iff.mp opens
    split
    · next unclosed => exact .unclosed named opens (Text.splitOnce_eq_none_iff.mp unclosed)
    · next inner rest closes =>
      exact .closed named opens (Text.splitOnce_eq_some_iff.mp closes) (ih inner rest closes)

theorem unwraps_stripDelimiters (d : Delimiters) (s : List Char) :
    Unwraps d s (stripDelimiters d s) := by
  refine ⟨(Text.stripStart d.opening.toList s).getD s, ?_, ?_⟩
  · cases found : Text.stripStart d.opening.toList s with
    | none => exact .inr ⟨Text.stripStart_eq_none_iff.mp found, rfl⟩
    | some body => exact .inl (Text.stripStart_eq_some_iff.mp found)
  · rw [stripDelimiters]
    generalize (Text.stripStart d.opening.toList s).getD s = body
    cases found : Text.stripEnd d.closing.toList body with
    | none =>
      refine .inr ⟨?_, rfl⟩
      rintro ⟨inner, parts⟩
      rw [Text.stripEnd_eq_some_iff.mpr parts.symm] at found
      cases found
    | some inner => exact .inl (Text.stripEnd_eq_some_iff.mp found)

theorem Spells.ofInterpolation (rest : Spells d es atoms) (text : String) :
    Spells d (.ofInterpolation d text.toList :: es) (.interpolation text :: atoms) := by
  obtain ⟨expr, filters, parts⟩ := Filter.exists_split (stripDelimiters d text.toList)
  rw [Expr.ofInterpolation, parts]
  exact .interpolation (unwraps_stripDelimiters d text.toList) parts rest

/-- Literal text joins the literal that follows it. -/
theorem spells_segments (d : Delimiters) (run : List Piece) :
    Spells d (segments d run) (run.flatMap Piece.atoms) := by
  induction run with
  | nil => exact .nil
  | cons p run ih =>
    rw [List.flatMap_cons]
    cases p with
    | interpolation text => exact ih.ofInterpolation text
    | literal text =>
      rw [segments, Piece.atoms]
      split
      · next empty =>
        rw [empty]
        exact ih
      · next some =>
        split
        · next more exprs joined =>
          rw [joined] at ih
          generalize run.flatMap Piece.atoms = atoms at ih ⊢
          cases ih with
          | string _ apart rest =>
            rw [← List.append_assoc, ← List.map_append, ← String.toList_append]
            exact .string (fun empty => some (String.append_eq_empty_iff.mp empty).1) apart rest
        · next other => exact .string some other ih

theorem Expr.standsFor_ofSegments (es : List Expr) : (Expr.ofSegments es).StandsFor es := by
  match es with
  | [] => exact .none
  | [e] => exact .one e
  | e :: e' :: es => exact .several (Nat.le_add_left 2 es.length)

theorem Expr.conveys_ofPieces (d : Delimiters) (run : List Piece) :
    (Expr.ofPieces d run).Conveys d run :=
  ⟨segments d run, standsFor_ofSegments _, spells_segments d run⟩

/-- Literals spell nothing but their characters. -/
theorem Spells.chars (h : Spells d es atoms) {p : Char → Prop}
    (literal : ∀ e ∈ es, ∃ v, e = .string v ∧ ∀ c ∈ v.toList, p c) :
    ∀ a ∈ atoms, ∃ c, a = .char c ∧ p c := by
  induction h with
  | nil => exact nofun
  | string _ _ _ ih =>
    obtain ⟨⟨v, same, own⟩, others⟩ := List.forall_mem_cons.mp literal
    cases same
    intro a mem
    rcases List.mem_append.mp mem with mem | mem
    · obtain ⟨c, hc, rfl⟩ := List.mem_map.mp mem
      exact ⟨c, rfl, own c hc⟩
    · exact ih others a mem
  | interpolation =>
    obtain ⟨v, same, -⟩ := literal _ List.mem_cons_self
    cases same

/-- What conveys nothing but a literal stands for literal pieces, which have its characters. -/
theorem Expr.Conveys.chars {v : String} {p : Char → Prop} (h : (Expr.string v).Conveys d run)
    (own : ∀ c ∈ v.toList, p c) :
    ∀ piece ∈ run, ∃ t, piece = .literal t ∧ ∀ c ∈ t.toList, p c := by
  obtain ⟨es, stands, spells⟩ := h
  have literal : ∀ e ∈ es, ∃ v, e = .string v ∧ ∀ c ∈ v.toList, p c := by
    cases stands with
    | none => exact nofun
    | one => exact List.forall_mem_singleton.mpr ⟨v, rfl, own⟩
  have all := spells.chars literal
  intro piece mem
  cases piece with
  | literal t =>
    refine ⟨t, rfl, fun c hc => ?_⟩
    obtain ⟨c', same, own⟩ := all (.char c)
      (List.mem_flatMap.mpr ⟨_, mem, List.mem_map_of_mem hc⟩)
    cases same
    exact own
  | interpolation t =>
    obtain ⟨c, same, -⟩ := all (.interpolation t)
      (List.mem_flatMap.mpr ⟨_, mem, List.mem_singleton_self _⟩)
    cases same

end ComponentLoader.Template
