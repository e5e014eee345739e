import ComponentLoader.Template.Node
import ComponentLoader.Template.Filter
import ComponentLoader.Text.Basic

/-!
Text with interpolations: taking it apart and making it an expression.
-/
namespace ComponentLoader.Template

open Markup (Delimiters)

/-- A stretch of text, or an interpolation with its delimiters. -/
inductive Piece where
  | literal (text : String)
  | interpolation (text : String)
deriving DecidableEq, Repr

/-- Takes the delimiters off an interpolation. One that nothing closes has only the first. -/
def stripDelimiters (d : Delimiters) (s : List Char) : List Char :=
  let inner := (Text.stripStart d.opening.toList s).getD s
  (Text.stripEnd d.closing.toList inner).getD inner

/-- Takes a text apart from the left: each interpolation runs to the nearest closing delimiter, or
to the end of the text. -/
def pieces (d : Delimiters) (s : List Char) : List Piece :=
  if _h : d.opening = "" then [.literal (String.ofList s)]
  else match _opened : Text.splitOnce d.opening.toList s with
    | none => [.literal (String.ofList s)]
    | some (before, after) =>
      .literal (String.ofList before) ::
        match _closed : Text.splitOnce d.closing.toList after with
        | none => [.interpolation (d.opening ++ String.ofList after)]
        | some (inner, rest) =>
          .interpolation (d.opening ++ String.ofList inner ++ d.closing) :: pieces d rest
termination_by s.length
decreasing_by
  have hs := congrArg List.length (Text.eq_of_splitOnce _opened)
  have ha := congrArg List.length (Text.eq_of_splitOnce _closed)
  have ho : 0 < d.opening.toList.length := List.length_pos_iff.2 (by simpa using _h)
  simp only [List.length_append] at hs ha
  omega

def Expr.ofInterpolation (d : Delimiters) (s : List Char) : Expr :=
  match Filter.split (stripDelimiters d s) with
  | [] => .interpolation "" []
  | expr :: filters => .interpolation (String.ofList expr) (filters.map String.ofList)

/-- The expressions of pieces. Empty text is left out and neighbouring texts are joined. -/
def segments (d : Delimiters) : List Piece → List Expr
  | [] => []
  | .literal text :: rest =>
    if text = "" then segments d rest
    else match segments d rest with
      | .string more :: exprs => .string (text ++ more) :: exprs
      | exprs => .string text :: exprs
  | .interpolation text :: rest => .ofInterpolation d text.toList :: segments d rest

/-- The expression of segments: one stands for itself, and none for the empty text. -/
def Expr.ofSegments : List Expr → Expr
  | [] => .string ""
  | [expr] => expr
  | exprs => .text exprs

def Expr.ofPieces (d : Delimiters) (ps : List Piece) : Expr := .ofSegments (segments d ps)

def Expr.ofText (d : Delimiters) (s : String) : Expr := .ofPieces d (pieces d s.toList)

end ComponentLoader.Template
