import ComponentLoader.Proofs.Markup.Reads

/-! Text alone. In a script or a style nothing is read but its own end tag, which
stands at the first `</` that its name follows, in any case and without going on. -/
namespace ComponentLoader.Markup

/-- The end tag of the element stands here: `</`, the name in any case, and nothing that could go
on with the name. -/
def EndTagStands (name : String) (s : List Char) : Prop :=
  ∃ n rest, s = '<' :: '/' :: (n ++ rest) ∧ n.map Char.toLower = name.toList.map Char.toLower ∧
    ∀ c, rest.head? = some c → Text.isMarkupSpace c = true ∨ c = '/' ∨ c = '>'

theorem isNameChar_eq_false_iff {c : Char} :
    isNameChar c = false ↔ Text.isMarkupSpace c = true ∨ c = '/' ∨ c = '>' := by
  simp only [isNameChar, Bool.and_eq_false_iff, Bool.not_eq_false', bne_eq_false_iff_eq, or_assoc]

theorem endTagAt_iff {name : String} {s : List Char} :
    endTagAt name s = true ↔ EndTagStands name s := by
  unfold endTagAt
  split
  · next t =>
    simp only [Bool.and_eq_true, Text.sameIgnoringCase, String.toList_ofList, beq_iff_eq,
      Bool.not_eq_true']
    constructor
    · rintro ⟨same, stop⟩
      refine ⟨t.take name.length, t.drop name.length, by rw [List.take_append_drop], same, ?_⟩
      intro c head
      rw [head, Option.any_some] at stop
      exact isNameChar_eq_false_iff.mp stop
    · rintro ⟨n, rest, parts, same, stop⟩
      obtain rfl : t = n ++ rest := by simpa using parts
      have count : n.length = name.length := by
        have lengths := congrArg List.length same
        rw [List.length_map, List.length_map] at lengths
        exact lengths.trans String.length_toList
      rw [List.take_left' count, List.drop_left' count]
      refine ⟨same, ?_⟩
      cases head : rest.head? with
      | none => rfl
      | some c => exact isNameChar_eq_false_iff.mpr (stop c head)
  · next other =>
    refine ⟨fun h => absurd h (by decide), ?_⟩
    rintro ⟨n, rest, rfl, -⟩
    exact absurd rfl (other (n ++ rest))

/-- The text before the end tag is followed by the end tag or by nothing, and no end tag begins
in it. -/
theorem beforeEndTag_spec (name : String) (s : List Char) :
    ∃ tail, s = beforeEndTag name s ++ tail ∧ (tail = [] ∨ EndTagStands name tail) ∧
      ∀ x y, beforeEndTag name s = x ++ y → y ≠ [] → ¬ EndTagStands name (y ++ tail) := by
  induction s with
  | nil =>
    refine ⟨[], rfl, .inl rfl, ?_⟩
    intro x y parts more
    exact absurd (List.append_eq_nil_iff.mp parts.symm).2 more
  | cons c s ih =>
    rw [beforeEndTag]
    split
    · next here =>
      refine ⟨c :: s, rfl, .inr (endTagAt_iff.mp here), ?_⟩
      intro x y parts more
      exact absurd (List.append_eq_nil_iff.mp parts.symm).2 more
    · next notHere =>
      obtain ⟨tail, whole, stop, first⟩ := ih
      refine ⟨tail, by rw [List.cons_append, ← whole], stop, ?_⟩
      intro x y parts more
      cases x with
      | nil =>
        obtain rfl : c :: beforeEndTag name s = y := parts
        rw [List.cons_append, ← whole]
        exact fun stands => notHere (endTagAt_iff.mpr stands)
      | cons c' x => exact first x y (List.cons.inj parts).2 more

/-- Text before which no end tag begins, and after which one stands or nothing, is the text before
the end tag. -/
theorem beforeEndTag_eq {name : String} {body t : List Char}
    (stands : t = [] ∨ EndTagStands name t)
    (first : ∀ x y, body = x ++ y → y ≠ [] → ¬ EndTagStands name (y ++ t)) :
    beforeEndTag name (body ++ t) = body := by
  induction body with
  | nil =>
    cases t with
    | nil => rfl
    | cons c t =>
      have here := stands.resolve_left (List.cons_ne_nil _ _)
      rw [List.nil_append, beforeEndTag, if_pos (endTagAt_iff.mpr here)]
  | cons c body ih =>
    have notHere : ¬ endTagAt name (c :: (body ++ t)) = true := by
      rw [endTagAt_iff]
      exact first [] (c :: body) rfl (List.cons_ne_nil _ _)
    rw [List.cons_append, beforeEndTag, if_neg notHere, ih]
    intro x y parts more
    exact first (c :: x) y (by rw [parts]; rfl) more

theorem isAlpha_of_toLower {c : Char} (h : c.toLower.isAlpha = true) : c.isAlpha = true := by
  by_cases upper : c.isUpper = true
  · exact Bool.or_eq_true_iff.mpr (.inl upper)
  · have same : c.toLower = c := dif_neg fun between => upper (decide_eq_true between)
    rwa [same] at h

theorem isNameChar_of_isAlpha {c : Char} (h : c.isAlpha = true) : isNameChar c = true := by
  cases name : isNameChar c with
  | true => rfl
  | false =>
    simp only [isNameChar_eq_false_iff, Text.isMarkupSpace, Bool.or_eq_true, beq_iff_eq] at name
    rcases name with ((((rfl | rfl) | rfl) | rfl) | rfl) | rfl | rfl <;> cases h

/-- A name of letters, such as those of the elements that hold text alone. -/
def Lettered (name : String) : Prop := name ≠ "" ∧ ∀ c ∈ name.toList, c.toLower.isAlpha = true

theorem lettered_of_raw {name : String} (h : name = "script" ∨ name = "style") : Lettered name := by
  rcases h with rfl | rfl <;> exact ⟨by decide, List.all_eq_true.mp (by decide +kernel)⟩

theorem Lettered.isAlpha {name : String} (h : Lettered name) {n : List Char}
    (same : n.map Char.toLower = name.toList.map Char.toLower) :
    n ≠ [] ∧ ∀ c ∈ n, c.isAlpha = true := by
  constructor
  · rintro rfl
    have none : name.toList = [] := List.map_eq_nil_iff.mp same.symm
    exact h.1 (String.toList_eq_nil_iff.mp none)
  · intro c hc
    have lower : c.toLower ∈ name.toList.map Char.toLower := same ▸ List.mem_map_of_mem hc
    obtain ⟨c', hc', equal⟩ := List.mem_map.mp lower
    exact isAlpha_of_toLower (equal ▸ h.2 c' hc')

/-- Whether an end tag stands somewhere is seen before the next bracket. -/
theorem endTagStands_append {name : String} (letters : Lettered name) {a : List Char}
    (bracket : '>' ∈ a) (s : List Char) : EndTagStands name (a ++ s) ↔ EndTagStands name a := by
  have absent {n : List Char} (same : n.map Char.toLower = name.toList.map Char.toLower) :
      '>' ∉ '<' :: '/' :: n := by
    intro inside
    have inside : '>' ∈ n := by simpa using inside
    exact absurd ((letters.isAlpha same).2 '>' inside) (by decide)
  constructor
  · rintro ⟨n, rest, parts, same, stop⟩
    have whole : a ++ s = ('<' :: '/' :: n) ++ rest := parts
    rcases List.append_eq_append_iff.mp whole with ⟨r, front, -⟩ | ⟨r, rfl, rfl⟩
    · refine absurd ?_ (absent same)
      rw [front]
      exact List.mem_append_left r bracket
    · refine ⟨n, r, rfl, same, ?_⟩
      intro c head
      exact stop c (by rw [List.head?_append, head]; rfl)
  · rintro ⟨n, rest, rfl, same, stop⟩
    have inside : '>' ∈ rest := by
      have whole : '>' ∈ ('<' :: '/' :: n) ++ rest := bracket
      exact (List.mem_append.mp whole).resolve_left (absent same)
    obtain ⟨ch, r, rfl⟩ := List.exists_cons_of_ne_nil (List.ne_nil_of_mem inside)
    exact ⟨n, ch :: (r ++ s), by simp, same, stop⟩

/-- The tag that stands somewhere is named by all characters up to the first that cannot go on with
a name. -/
theorem takeWhile_isNameChar {n rest : List Char} (name : ∀ c ∈ n, isNameChar c = true)
    (stop : ∀ c, rest.head? = some c → Text.isMarkupSpace c = true ∨ c = '/' ∨ c = '>') :
    (n ++ rest).takeWhile isNameChar = n := by
  rw [List.takeWhile_append_of_pos name]
  cases rest with
  | nil => rw [List.takeWhile_nil, List.append_nil]
  | cons c rest =>
    have ends : ¬ isNameChar c = true := by
      rw [isNameChar_eq_false_iff.mpr (stop c rfl)]
      exact Bool.false_ne_true
    rw [List.takeWhile_cons_of_neg ends, List.append_nil]

namespace Cursor

theorem readTag_name (c : Cursor) :
    c.readTag.1.name = String.ofList (c.rest.takeWhile isNameChar) := by
  unfold readTag
  dsimp only
  split <;> rfl

theorem readEndTagOpen_eq {c : Cursor} {ch : Char} {r : List Char} (h : c.rest.drop 2 = ch :: r)
    (letter : ch.isAlpha = true) : c.readEndTagOpen = c.readEndTag := by
  unfold readEndTagOpen
  split
  · next none =>
    rw [h] at none
    cases none
  · next bracket =>
    rw [h] at bracket
    cases bracket
    cases letter
  · next _ other =>
    rw [h] at other
    cases other
    rw [if_pos letter]

/-- Where no interpolation can begin with a bracket, markup begins with it. -/
theorem readData_bracket {d : Dialect} {c : Cursor} {t : List Char}
    (noBracket : '<' ∉ d.delimiters.opening.toList) (front : c.rest = '<' :: t) :
    c.readData d = c.readMarkup d := by
  have noText : (c.rest.takeWhile (!d.delimiters.stopsText ·)).length = 0 := by
    simp [front, Delimiters.stopsText]
  have noOpening : d.delimiters.openAt c.rest = false := by
    unfold Delimiters.openAt Text.startsWith
    cases opening : d.delimiters.opening.toList with
    | nil => simp [String.toList_eq_nil_iff.mp opening]
    | cons o os =>
      have other : o ≠ '<' := fun same =>
        noBracket (by rw [opening, same]; exact List.mem_cons_self)
      simp [front, Text.stripStart, other]
  have bracket : c.rest.head? = some '<' := by rw [front]; rfl
  simp only [readData, noText, noOpening, bracket, Nat.lt_irrefl, Bool.false_eq_true, if_true,
    if_false]

/-- Where an end tag stands, it is what is read. -/
theorem readData_eq_endTag {d : Dialect} {c : Cursor} {name : String}
    (noBracket : '<' ∉ d.delimiters.opening.toList) (letters : Lettered name)
    (stands : EndTagStands name c.rest) :
    c.readData d = (c.readEndTag.1, .data, c.readEndTag.2) := by
  obtain ⟨n, rest, parts, same, stop⟩ := stands
  obtain ⟨more, alpha⟩ := letters.isAlpha same
  obtain ⟨ch, n', rfl⟩ := List.exists_cons_of_ne_nil more
  have opened : c.readEndTagOpen = c.readEndTag :=
    readEndTagOpen_eq (r := n' ++ rest) (by rw [parts]; rfl) (alpha ch List.mem_cons_self)
  have markup : c.readMarkup d = (c.readEndTagOpen.1, .data, c.readEndTagOpen.2) := by
    simp only [readMarkup, parts]
  rw [readData_bracket noBracket parts, markup, opened]

theorem readEndTag_name {c : Cursor} {name : String} (letters : Lettered name)
    (stands : EndTagStands name c.rest) :
    ∃ n, c.readEndTag.1 = .endTag n ∧ Text.sameIgnoringCase n name = true := by
  obtain ⟨n, rest, parts, same, stop⟩ := stands
  obtain ⟨-, alpha⟩ := letters.isAlpha same
  have named := takeWhile_isNameChar (fun c hc => isNameChar_of_isAlpha (alpha c hc)) stop
  refine ⟨String.ofList n, ?_, ?_⟩
  · simp only [readEndTag, readTag_name, rest_skip, parts, List.drop_succ_cons, List.drop_zero,
      named]
  · simp only [Text.sameIgnoringCase, String.toList_ofList, same, BEq.rfl]

theorem readData_endTag {d : Dialect} {c : Cursor} {name : String}
    (noBracket : '<' ∉ d.delimiters.opening.toList) (letters : Lettered name)
    (stands : EndTagStands name c.rest) :
    ∃ n, (c.readData d).1 = .endTag n ∧ Text.sameIgnoringCase n name = true := by
  rw [readData_eq_endTag noBracket letters stands]
  exact readEndTag_name letters stands

/-- A start tag is one that is read from the letter after a bracket, and after it comes what its
element holds. -/
def Follows (d : Dialect) (c : Cursor) (read : Token × Mode × Cursor) : Prop :=
  ∀ tag, read.1 = .startTag tag →
    (c.rest ≠ [] ∧ (c.skip 1).rest.head?.any Char.isAlpha = true ∧
      (c.skip 1).readTag = (tag, read.2.2)) ∧
      read.2.1 = d.modeAfter tag

theorem startTag_ne_readEndTagOpen (c : Cursor) (tag : Tag) :
    c.readEndTagOpen.1 ≠ .startTag tag := by
  unfold readEndTagOpen
  split
  · exact nofun
  · exact nofun
  · split <;> exact nofun

theorem startTag_ne_readInterpolation (c : Cursor) (d : Delimiters) (tag : Tag) :
    (c.readInterpolation d).1 ≠ .startTag tag := by
  unfold readInterpolation
  dsimp only
  split <;> exact nofun

theorem follows_readMarkup (d : Dialect) (c : Cursor) : Follows d c (c.readMarkup d) := by
  intro tag
  unfold readMarkup
  split
  · exact fun h => absurd h (startTag_ne_readEndTagOpen c tag)
  · obtain ⟨content, comment⟩ := comment_of_readDeclaration c
    simp only [comment]
    exact nofun
  · exact nofun
  · next front =>
    split
    · next letter =>
      intro h
      cases h
      exact ⟨⟨by simp [front], by simpa [front] using letter, rfl⟩, rfl⟩
    · exact nofun
  · exact nofun

theorem follows_readData (d : Dialect) (c : Cursor) : Follows d c (c.readData d) := by
  intro tag
  unfold readData
  dsimp only
  split
  · exact nofun
  · split
    · exact fun h => absurd h (startTag_ne_readInterpolation c d.delimiters tag)
    · split
      · exact follows_readMarkup d c tag
      · exact nofun

/-- What is read after a start tag is what its element holds. -/
theorem follows_read (d : Dialect) (c : Cursor) (mode : Mode) : Follows d c (c.read d mode) := by
  cases mode with
  | data => exact follows_readData d c
  | raw element =>
    intro tag
    simp only [read, readRaw]
    split
    · exact follows_readData d c tag
    · exact nofun
  | replaceable element =>
    intro tag
    simp only [read, readReplaceable]
    split
    · exact fun h => absurd h (startTag_ne_readInterpolation c d.delimiters tag)
    · split
      · exact follows_readData d c tag
      · split
        · split <;> exact nofun
        · exact nofun

end Cursor

theorem Head.mode_after {d : Dialect} {h : Head} {tag : Tag}
    (token : (h.lexeme d).token = .startTag tag) : (h.next d).mode = d.modeAfter tag :=
  (Cursor.follows_read d h.cursor h.mode tag token).2

/-- What is read of an element that holds text alone: its text, unless that is empty, and then its
end tag, if it has one. -/
structure HoldsText (d : Dialect) (name : String) (h h' : Head) (ls : List Lexeme)
    (body : List Char) : Prop where
  read : Reads d h ls h'
  text : h.rest = body ++ h'.rest
  stop : h'.position = h.position.advance body
  tokens : ls.map (·.token) = if body = [] then [] else [.text (String.ofList body)]
  first : ∀ x y, body = x ++ y → y ≠ [] → ¬ EndTagStands name (y ++ h'.rest)
  ends : h'.rest = [] ∨ EndTagStands name h'.rest ∧
    ∃ n, (h'.lexeme d).token = .endTag n ∧ Text.sameIgnoringCase n name = true

theorem exists_holdsText {d : Dialect} {h : Head} {name : String}
    (noBracket : '<' ∉ d.delimiters.opening.toList) (letters : Lettered name)
    (raw : h.mode = .raw name) :
    ∃ h' ls body, HoldsText d name h h' ls body := by
  obtain ⟨tail, text, stop, first⟩ := beforeEndTag_spec name h.rest
  generalize before : beforeEndTag name h.rest = body at text first
  have here : h.cursor.rest = h.rest := rfl
  by_cases empty : body = []
  · subst empty
    obtain rfl : h.rest = tail := text
    refine ⟨h, [], [], .here h, rfl, rfl, rfl, first, ?_⟩
    refine stop.imp id fun stands => ⟨stands, ?_⟩
    have data : h.cursor.read d h.mode = h.cursor.readData d := by
      rw [raw, Cursor.read, Cursor.readRaw]
      simp only [here, before, List.length_nil, if_true]
    rw [Head.lexeme, data]
    exact Cursor.readData_endTag noBracket letters stands
  · have length : ¬ body.length = 0 := fun none => empty (List.length_eq_zero_iff.mp none)
    have more : h.rest ≠ [] := by
      rw [text]
      exact List.append_ne_nil_of_left_ne_nil empty tail
    have read : h.cursor.read d h.mode =
        (.text (String.ofList body), .data, h.cursor.skip body.length) := by
      rw [raw, Cursor.read, Cursor.readRaw]
      simp only [here, before, length, if_false, Cursor.readText]
      rw [text, List.take_left]
    have rest : (h.next d).rest = tail := by
      simp only [Head.next, read, Cursor.rest_skip, here]
      rw [text, List.drop_left]
    refine ⟨h.next d, [h.lexeme d], body, .next more (.here _), ?_, ?_, ?_, ?_, ?_⟩
    · rw [rest]
      exact text
    · simp only [Head.next, read, Cursor.skip, here]
      rw [text, List.take_left]
      rfl
    · rw [if_neg empty, List.map_singleton, Head.lexeme, read]
    · rw [rest]
      exact first
    · have stop : (h.next d).rest = [] ∨ EndTagStands name (h.next d).rest := by rwa [rest]
      refine stop.imp id fun stands => ⟨stands, ?_⟩
      have mode : (h.next d).mode = .data := by rw [Head.next, read]
      rw [Head.lexeme, mode]
      exact Cursor.readData_endTag noBracket letters stands

end ComponentLoader.Markup
