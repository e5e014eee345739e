import ComponentLoader.Markup.Cursor
import ComponentLoader.Text.Basic

/-!
Reading comments, and the malformed markup that is read as comments.

A comment ends at the first `--!>` that is left in the text; only where there is none does it end at
the first `-->`.
-/
namespace ComponentLoader.Markup.Cursor

/-- The text from `<!--` on up to the closer of the comment, if it has one. -/
def beforeCloser? (s : List Char) : Option (List Char) :=
  ((Text.splitOnce ['-', '-', '!', '>'] s).or (Text.splitOnce ['-', '-', '>'] s)).map (·.1)

/-- Moves over `body`, which is what is left of a comment, and reports each comment that begins in
it, unless nothing follows the opening. -/
def skipCommentBody (c : Cursor) (body : List Char) : Cursor :=
  match _h : Text.splitOnce ['<', '!', '-', '-'] body with
  | none => c.skip body.length
  | some (before, after) =>
    let c := c.skip (before.length + 4)
    (c.reportIf (!c.rest.isEmpty) .nestedComment).skipCommentBody after
termination_by body.length
decreasing_by
  have := congrArg List.length (Text.eq_of_splitOnce _h)
  simp at this
  omega

def skipCommentCloser (c : Cursor) : Cursor :=
  match c.rest with
  | [] => c.report .eofInComment
  | '-' :: '-' :: '!' :: '>' :: _ => (c.report .incorrectlyClosedComment).skip 4
  | _ => c.skip 3

/-- Reads a comment from its `<!--`. A closer that shares its hyphens with the opening leaves an
empty comment. -/
def readComment (c : Cursor) : Token × Cursor :=
  match beforeCloser? c.rest with
  | none =>
    let body := c.rest.drop 4
    (.comment (String.ofList body), ((c.skip 4).skipCommentBody body).skipCommentCloser)
  | some before =>
    if before.length < 4 then
      (.comment "",
        ((c.report .abruptClosingOfEmptyComment).skip before.length).skipCommentCloser)
    else
      let body := before.drop 4
      (.comment (String.ofList body), ((c.skip 4).skipCommentBody body).skipCommentCloser)

/-- Reads to the next bracket as a comment, whose text leaves out the first `opening`
characters. -/
def readBogusComment (c : Cursor) (opening : Nat) : Token × Cursor :=
  let (content, c) := (c.skip opening).takeWhile (· != '>')
  (.comment (String.ofList content), c.skipNext)

/-- Reads from `<!`: a comment, or a declaration, of which only a document type is expected. -/
def readDeclaration (c : Cursor) : Token × Cursor :=
  if Text.startsWith "<!--".toList c.rest then c.readComment
  else if ["<!DOCTYPE", "<!doctype"].any fun s => Text.startsWith s.toList c.rest then
    c.readBogusComment 2
  else if Text.startsWith "<![CDATA[".toList c.rest then
    (c.report .cdataInHtmlContent).readBogusComment 2
  else (c.report .incorrectlyOpenedComment).readBogusComment 2

theorem length_skipCommentBody_le (c : Cursor) (body : List Char) :
    (c.skipCommentBody body).rest.length ≤ c.rest.length := by
  fun_induction skipCommentBody c body with
  | case1 c body h => exact length_rest_skip_le ..
  | case2 c body before after h d ih =>
    refine Nat.le_trans ih ?_
    rw [rest_reportIf]
    exact length_rest_skip_le ..

/-- The closer is where the text ends or takes at least one character. -/
theorem length_skipCommentCloser_lt {c : Cursor} {n : Nat} (h : c.rest.length ≤ n) (hn : 0 < n) :
    c.skipCommentCloser.rest.length < n := by
  unfold skipCommentCloser
  split
  · next hr => simpa [hr] using hn
  · next hr => simp [hr] at h ⊢; omega
  · next hr _ =>
    have : 0 < c.rest.length := List.length_pos_iff.2 (by simpa using hr)
    simp
    omega

theorem length_readComment_lt {c : Cursor} (h : 0 < c.rest.length) :
    c.readComment.2.rest.length < c.rest.length := by
  have hbody (body : List Char) :
      ((c.skip 4).skipCommentBody body).rest.length ≤ c.rest.length :=
    Nat.le_trans (length_skipCommentBody_le ..) (length_rest_skip_le c 4)
  unfold readComment
  split
  · exact length_skipCommentCloser_lt (hbody _) h
  · split
    · exact length_skipCommentCloser_lt (by simp) h
    · exact length_skipCommentCloser_lt (hbody _) h

theorem length_readBogusComment_lt {c : Cursor} (n : Nat) (h : 0 < c.rest.length) :
    (c.readBogusComment n).2.rest.length < c.rest.length := by
  have := length_dropWhile_le (· != '>') (c.rest.drop n)
  simp [readBogusComment] at *
  omega

theorem length_readDeclaration_lt {c : Cursor} (h : 0 < c.rest.length) :
    c.readDeclaration.2.rest.length < c.rest.length := by
  unfold readDeclaration
  split
  · exact length_readComment_lt h
  · split
    · exact length_readBogusComment_lt 2 h
    · split <;> exact length_readBogusComment_lt 2 h

end ComponentLoader.Markup.Cursor
