import ComponentLoader.Markup.Lexeme
import ComponentLoader.Proofs.Markup.CommentReaches
import ComponentLoader.Proofs.Markup.TagReaches

/-! One token, in every mode and dialect: it is read by moves within the text,
texts and interpolations say exactly what is moved over, and the attributes of
a start tag lie on the way. -/
namespace ComponentLoader.Markup.Cursor

def Shows (c c' : Cursor) : Token → Prop
  | .startTag tag => c.PassesEnds c' tag.attributes
  | .text content => c.rest = content.toList ++ c'.rest
  | .interpolation content => c.rest = content.toList ++ c'.rest
  | .endTag _ => True
  | .comment _ => True

structure Yields (c : Cursor) (token : Token) (c' : Cursor) : Prop where
  reaches : c.Reaches c'
  shows : c.Shows c' token

/-- A fault that is reported before a token changes nothing about it. -/
theorem Yields.reported {c c' : Cursor} {kind : FaultKind} {token : Token}
    (h : (c.report kind).Yields token c') (lexical : kind.isLexical = true) :
    c.Yields token c' := by
  refine ⟨(reaches_report c kind lexical).trans h.reaches, ?_⟩
  have shows := h.shows
  cases token with
  | startTag tag => exact shows.precede (reaches_report c kind lexical)
  | text content => exact shows
  | interpolation content => exact shows
  | endTag name => trivial
  | comment content => trivial

theorem yields_text {c : Cursor} {n : Nat} (h : n ≤ c.rest.length) :
    c.Yields (c.readText n).1 (c.readText n).2 :=
  ⟨reaches_skip h, by simp [Shows, readText]⟩

theorem yields_interpolation {c : Cursor} {d : Delimiters} (h : d.openAt c.rest = true) :
    c.Yields (c.readInterpolation d).1 (c.readInterpolation d).2 := by
  simp only [Delimiters.openAt, Bool.and_eq_true] at h
  obtain ⟨after, opened⟩ := Option.isSome_iff_exists.mp h.2
  have opened := Text.stripStart_eq_some_iff.mp opened
  unfold readInterpolation
  dsimp only
  split
  · next inner rest closed =>
    have closed := Text.eq_of_splitOnce closed
    rw [opened, List.drop_left] at closed
    refine ⟨reaches_skip ?_, ?_⟩
    · rw [opened, closed]
      simp only [List.length_append]
      omega
    · simp [Shows]
  · refine ⟨(reaches_skip (Nat.le_refl _)).trans (reaches_report _ _ (by decide)), ?_⟩
    simp [Shows]

theorem reaches_readEndTag {c : Cursor} (h : 2 ≤ c.rest.length) : c.Reaches c.readEndTag.2 :=
  ((reaches_skip h).trans (reaches_readTag _).1).trans
    ((reaches_reportIf _ _ _ (by decide)).trans (reaches_reportIf _ _ _ (by decide)))

theorem yields_readEndTagOpen {c : Cursor} (h : 2 ≤ c.rest.length) :
    c.Yields c.readEndTagOpen.1 c.readEndTagOpen.2 := by
  unfold readEndTagOpen
  split
  · exact (yields_text (c := c.report _) h).reported (by decide)
  · next tail hr =>
    have : 3 ≤ c.rest.length := by
      have := congrArg List.length hr
      simp at this
      omega
    exact ⟨(reaches_report c _ (by decide)).trans (reaches_skip this), trivial⟩
  · split
    · exact ⟨reaches_readEndTag h, trivial⟩
    · exact ⟨(reaches_report c _ (by decide)).trans (reaches_readBogusComment h), trivial⟩

theorem yields_readMarkup {c : Cursor} (d : Dialect) (h : 1 ≤ c.rest.length) :
    c.Yields (c.readMarkup d).1 (c.readMarkup d).2.2 := by
  unfold readMarkup
  split
  · next hr => exact yields_readEndTagOpen (by simp [hr])
  · next hr =>
    obtain ⟨content, same⟩ := comment_of_readDeclaration c
    refine ⟨reaches_readDeclaration (by simp [hr]), ?_⟩
    simp only [same, Shows]
  · exact ⟨(reaches_report c _ (by decide)).trans (reaches_readBogusComment h), trivial⟩
  · split
    · obtain ⟨tag, ends⟩ := reaches_readTag (c.skip 1)
      exact ⟨(reaches_skip h).trans tag, ends.precede (reaches_skip h)⟩
    · exact (yields_text (c := c.report _) h).reported (by decide)
  · exact (yields_text (c := c.report _) h).reported (by decide)

theorem yields_readData {c : Cursor} (d : Dialect) (h : 1 ≤ c.rest.length) :
    c.Yields (c.readData d).1 (c.readData d).2.2 := by
  unfold readData
  dsimp only
  split
  · exact yields_text (List.takeWhile_sublist _).length_le
  · split
    · next opened => exact yields_interpolation opened
    · split
      · exact yields_readMarkup d h
      · refine yields_text ?_
        have := (List.takeWhile_sublist (!d.delimiters.stopsText ·) (l := c.rest.drop 1)).length_le
        simp only [List.length_drop] at this
        omega

theorem length_beforeEndTag_le (element : String) (s : List Char) :
    (beforeEndTag element s).length ≤ s.length := by
  induction s with
  | nil => exact Nat.le_refl _
  | cons ch s ih =>
    rw [beforeEndTag]
    split
    · exact Nat.zero_le _
    · exact Nat.succ_le_succ ih

theorem yields_readRaw {c : Cursor} (d : Dialect) (element : String) (h : 1 ≤ c.rest.length) :
    c.Yields (c.readRaw d element).1 (c.readRaw d element).2.2 := by
  unfold readRaw
  dsimp only
  split
  · exact yields_readData d h
  · exact yields_text (length_beforeEndTag_le element c.rest)

theorem yields_readReplaceable {c : Cursor} (d : Dialect) (element : String)
    (h : 1 ≤ c.rest.length) :
    c.Yields (c.readReplaceable d element).1 (c.readReplaceable d element).2.2 := by
  have body := length_beforeEndTag_le element c.rest
  unfold readReplaceable
  dsimp only
  split
  · next opened => exact yields_interpolation opened
  · split
    · exact yields_readData d h
    · split
      · split
        · next shorter => exact yields_text (Nat.le_trans (Nat.le_of_lt shorter) body)
        · exact yields_text body
      · exact yields_text body

/-- Reading a token never asks for more text than is left, whatever the mode. -/
theorem yields_read {c : Cursor} (d : Dialect) (mode : Mode) (h : c.rest ≠ []) :
    c.Yields (c.read d mode).1 (c.read d mode).2.2 := by
  have h : 1 ≤ c.rest.length := List.length_pos_iff.mpr h
  cases mode with
  | data => exact yields_readData d h
  | replaceable element => exact yields_readReplaceable d element h
  | raw element => exact yields_readRaw d element h

end ComponentLoader.Markup.Cursor
