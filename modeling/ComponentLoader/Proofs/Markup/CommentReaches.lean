import ComponentLoader.Markup.Comment
import ComponentLoader.Proofs.Markup.Reaches

/-! Comments, and what is read as comments, are read by moves within the text.
Where a comment has no closer its body is all that is left. -/
namespace ComponentLoader.Markup.Cursor

/-- What precedes the closer is followed by one, of three characters or four. -/
theorem eq_of_beforeCloser {s before : List Char} (h : beforeCloser? s = some before) :
    ∃ closed, s = before ++ closed ∧ 3 ≤ closed.length := by
  obtain ⟨⟨a, b⟩, found, rfl⟩ := Option.map_eq_some_iff.mp h
  rcases Option.or_eq_some_iff.mp found with found | ⟨-, found⟩
  · exact ⟨_, (Text.eq_of_splitOnce found).trans (List.append_assoc ..), by simp⟩
  · exact ⟨_, (Text.eq_of_splitOnce found).trans (List.append_assoc ..), by simp⟩

/-- Exactly the body is moved over. -/
theorem reaches_skipCommentBody {c : Cursor} {body after : List Char} (h : c.rest = body ++ after) :
    c.Reaches (c.skipCommentBody body) ∧ (c.skipCommentBody body).rest = after := by
  fun_induction skipCommentBody c body with
  | case1 c body hn => exact ⟨reaches_skip (by simp [h]), by simp [h]⟩
  | case2 c body before inner hs next ih =>
    have split := Text.eq_of_splitOnce hs
    have rest : next.rest = inner ++ after := by
      simp only [next, rest_skip, h, split]
      simp
    obtain ⟨reached, left⟩ := ih (by simpa using rest)
    have opened : c.Reaches next := reaches_skip (by simp [h, split])
    exact ⟨(opened.trans (reaches_reportIf _ _ _ (by decide))).trans reached, left⟩

theorem reaches_skipCommentCloser {c : Cursor} (h : c.rest = [] ∨ 3 ≤ c.rest.length) :
    c.Reaches c.skipCommentCloser := by
  unfold skipCommentCloser
  split
  · exact reaches_report c _ (by decide)
  · next hr => exact (reaches_report c _ (by decide)).trans (reaches_skip (by simp [hr]))
  · next hn _ => exact reaches_skip (h.resolve_left hn)

theorem reaches_readComment {c : Cursor} (h : 4 ≤ c.rest.length) :
    c.Reaches c.readComment.2 := by
  unfold readComment
  split
  · have whole : (c.skip 4).rest = c.rest.drop 4 ++ [] := (List.append_nil _).symm
    obtain ⟨body, left⟩ := reaches_skipCommentBody whole
    exact ((reaches_skip h).trans body).trans (reaches_skipCommentCloser (.inl left))
  · next before found =>
    obtain ⟨closed, same, long⟩ := eq_of_beforeCloser found
    split
    · have opened := (reaches_report c .abruptClosingOfEmptyComment rfl).trans
        (reaches_skip (n := before.length) (by simp [same]))
      exact opened.trans (reaches_skipCommentCloser (.inr (by simpa [same] using long)))
    · next short =>
      have parts : (c.skip 4).rest = before.drop 4 ++ closed := by
        rw [rest_skip, same, List.drop_append_of_le_length (Nat.le_of_not_lt short)]
      obtain ⟨body, left⟩ := reaches_skipCommentBody parts
      exact ((reaches_skip h).trans body).trans
        (reaches_skipCommentCloser (.inr (by simpa [left] using long)))

theorem reaches_readBogusComment {c : Cursor} {opening : Nat} (h : opening ≤ c.rest.length) :
    c.Reaches (c.readBogusComment opening).2 :=
  calc
    Reaches c (c.skip opening) := reaches_skip h
    Reaches _ ((c.skip opening).takeWhile (· != '>')).2 := reaches_takeWhile _ _
    Reaches _ _ := reaches_skipNext _

theorem length_le_of_startsWith {p s : List Char} (h : Text.startsWith p s = true) :
    p.length ≤ s.length := by
  obtain ⟨r, hr⟩ := Option.isSome_iff_exists.mp h
  simp [Text.stripStart_eq_some_iff.mp hr]

theorem reaches_readDeclaration {c : Cursor} (h : 2 ≤ c.rest.length) :
    c.Reaches c.readDeclaration.2 := by
  unfold readDeclaration
  split
  · next opened => exact reaches_readComment (length_le_of_startsWith opened)
  · split
    · exact reaches_readBogusComment h
    · split <;> exact (reaches_report c _ (by decide)).trans (reaches_readBogusComment h)

theorem comment_of_readComment (c : Cursor) : ∃ content, c.readComment.1 = .comment content := by
  unfold readComment
  split
  · exact ⟨_, rfl⟩
  · split <;> exact ⟨_, rfl⟩

/-- A declaration is a comment as a token. -/
theorem comment_of_readDeclaration (c : Cursor) :
    ∃ content, c.readDeclaration.1 = .comment content := by
  unfold readDeclaration
  split
  · exact comment_of_readComment c
  · split
    · exact ⟨_, rfl⟩
    · split <;> exact ⟨_, rfl⟩

end ComponentLoader.Markup.Cursor
