import ComponentLoader.Proofs.Markup.ByteTags
import ComponentLoader.Proofs.Markup.Tails

/-! Reading tokens as bytes, in every mode and dialect. -/
namespace ComponentLoader.Markup.Bytes

open Text.Utf8

/-- Moves over the body of a comment, past each opening of a comment in it. -/
def skipCommentBody? (body bs : List UInt8) : Option (List UInt8) :=
  match find? (encode ['<', '!', '-', '-']) body with
  | none => drop? body.length bs
  | some n => do
    let inner ← drop? (n + 4) body
    let rest ← drop? (n + 4) bs
    if _shorter : inner.length < body.length then skipCommentBody? inner rest else none
termination_by body.length

def closeComment? (bs : List UInt8) : Option (List UInt8) :=
  if bs.isEmpty then some bs
  else if begins "--!>" bs then drop? 4 bs
  else drop? 3 bs

def readComment? (bs : List UInt8) : Option (List UInt8) :=
  match (find? (encode ['-', '-', '!', '>']) bs).or (find? (encode ['-', '-', '>']) bs) with
  | none => do
    let bs ← drop? 4 bs
    let bs ← skipCommentBody? bs bs
    closeComment? bs
  | some stop =>
    if stop ≤ 3 then (drop? stop bs).bind closeComment?
    else do
      let bs ← drop? 4 bs
      let body ← take? (stop - 4) bs
      let bs ← skipCommentBody? body bs
      closeComment? bs

/-- Reads to the next bracket as a comment, whose text is a slice of its own. -/
def readBogusComment? (bs : List UInt8) : Option (List UInt8) :=
  let start := if begins "<?" bs then 1 else 2
  let stop := spanLength (· != '>') bs
  if stop < bs.length then (slice? start stop bs).bind fun _ => drop? (stop + 1) bs
  else (drop? start bs).bind fun _ => drop? bs.length bs

def readDeclaration? (bs : List UInt8) : Option (List UInt8) :=
  if begins "<!--" bs then readComment? bs else readBogusComment? bs

def opens (d : Delimiters) (bs : List UInt8) : Bool := d.opening ≠ "" && begins d.opening bs

def readInterpolation? (d : Delimiters) (bs : List UInt8) : Option (List UInt8) := do
  let opening := (encode d.opening.toList).length
  let inner ← drop? opening bs
  match find? (encode d.closing.toList) inner with
  | some n => drop? (opening + n + (encode d.closing.toList).length) bs
  | none => drop? bs.length bs

def readEndTagOpen? (bs : List UInt8) : Option (List UInt8) :=
  if bs.length = 2 then drop? 2 bs
  else if begins "</>" bs then drop? 3 bs
  else do
    let inner ← drop? 2 bs
    if firstIs Char.isAlpha inner then (readTag? inner).map (·.2.2) else readBogusComment? bs

def readStartTag? (d : Dialect) (bs : List UInt8) : Option (Mode × List UInt8) := do
  let (name, selfClosing, bs) ← readTag? bs
  return (d.modeAfter ⟨String.ofList (decode name), [], selfClosing⟩, bs)

def readMarkup? (d : Dialect) (bs : List UInt8) : Option (Mode × List UInt8) :=
  if begins "</" bs then (readEndTagOpen? bs).map (.data, ·)
  else if begins "<!" bs then (readDeclaration? bs).map (.data, ·)
  else if begins "<?" bs then (readBogusComment? bs).map (.data, ·)
  else if bs.length = 1 then (drop? 1 bs).map (.data, ·)
  else do
    let inner ← drop? 1 bs
    if firstIs Char.isAlpha inner then readStartTag? d inner else some (.data, inner)

def firstLength : List UInt8 → Nat
  | [] => 1
  | b :: bs => (b :: bs).length - (next b bs).2.length

def readData? (d : Dialect) (bs : List UInt8) : Option (Mode × List UInt8) :=
  let plain := spanLength (!d.delimiters.stopsText ·)
  if 0 < plain bs then (drop? (plain bs) bs).map (.data, ·)
  else if opens d.delimiters bs then (readInterpolation? d.delimiters bs).map (.data, ·)
  else if firstIs (· == '<') bs then readMarkup? d bs
  else do
    let rest ← drop? (firstLength bs) bs
    (drop? (firstLength bs + plain rest) bs).map (.data, ·)

/-- Whether the end tag of the element stands here. Nothing does where its name would end past the
end of the bytes or within a character. -/
def endTagAt? (name bs : List UInt8) : Option Bool :=
  let stop := 2 + name.length
  if begins "</" bs && (slice? 2 stop bs).any (sameIgnoringCase · name) then
    (drop? stop bs).map fun after => !firstIs isNameChar after
  else some false

/-- The number of bytes before the end tag of the element. -/
def endOffset? (name : List UInt8) : List UInt8 → Option Nat
  | [] => some 0
  | b :: bs => (endTagAt? name (b :: bs)).bind fun found =>
    if found then some 0 else (endOffset? name bs).map (· + 1)

def readRaw? (d : Dialect) (element : String) (bs : List UInt8) : Option (Mode × List UInt8) := do
  let stop ← endOffset? (encode element.toList) bs
  if stop = 0 then readData? d bs else (drop? stop bs).map (.data, ·)

def readReplaceable? (d : Dialect) (element : String) (bs : List UInt8) :
    Option (Mode × List UInt8) :=
  if opens d.delimiters bs then
    (readInterpolation? d.delimiters bs).map (.replaceable element, ·)
  else do
    let stop ← endOffset? (encode element.toList) bs
    if stop = 0 then readData? d bs
    else
      let start :=
        if d.delimiters.opening = "" then stop
        else (find? (encode d.delimiters.opening.toList) bs).getD stop
      if start < stop then (drop? start bs).map (.replaceable element, ·)
      else (drop? stop bs).map (.data, ·)

def read? (d : Dialect) (bs : List UInt8) : Mode → Option (Mode × List UInt8)
  | .data => readData? d bs
  | .replaceable element => readReplaceable? d element bs
  | .raw element => readRaw? d element bs

variable {c : Cursor} {s : List Char}

theorem skipCommentBody?_encode (body after : List Char) :
    skipCommentBody? (encode body) (encode (body ++ after)) = some (encode after) := by
  induction length : body.length using Nat.strongRecOn generalizing body with
  | _ n ih =>
    rw [skipCommentBody?, find?_encode]
    cases nested : Text.splitOnce ['<', '!', '-', '-'] body with
    | none => exact drop?_encode body after
    | some parts =>
      obtain ⟨before, inner⟩ := parts
      obtain rfl := Text.eq_of_splitOnce nested
      have opening : (encode before).length + 4 =
          (encode (before ++ ['<', '!', '-', '-'])).length := by
        rw [encode_append, List.length_append]
        rfl
      have shorter : (encode inner).length <
          (encode (before ++ ['<', '!', '-', '-'] ++ inner)).length := by
        rw [encode_append _ inner, List.length_append, ← opening]
        omega
      simp only [Option.map_some, Option.bind_eq_bind, opening, drop?_encode, Option.bind_some,
        dif_pos shorter]
      rw [List.append_assoc _ inner after, drop?_encode, Option.bind_some]
      exact ih _ (by rw [← length]; simp; omega) inner rfl

theorem closeComment?_encode {before after s : List Char}
    (found : Cursor.closer? (before ++ s) = some (before, after)) :
    closeComment? (encode s) = some (encode after) := by
  rcases Option.or_eq_some_iff.mp found with strong | ⟨-, weak⟩
  · have whole := Text.eq_of_splitOnce strong
    rw [List.append_assoc] at whole
    obtain rfl := List.append_cancel_left whole
    have closes : begins "--!>" (encode (strongCloser ++ after)) = true :=
      begins_encode_iff.mpr ⟨after, rfl⟩
    rw [closeComment?, if_neg (isEmpty_encode _ ▸ Bool.false_ne_true), if_pos closes]
    exact drop?_front (s := strongCloser) rfl rfl after
  · have whole := Text.eq_of_splitOnce weak
    rw [List.append_assoc] at whole
    obtain rfl := List.append_cancel_left whole
    have closes : ¬ begins "--!>" (encode (['-', '-', '>'] ++ after)) = true := by
      rintro there
      obtain ⟨r, same⟩ := begins_encode_iff.mp there
      cases same
    rw [closeComment?, if_neg (isEmpty_encode _ ▸ Bool.false_ne_true), if_neg closes]
    exact drop?_front (s := ['-', '-', '>']) rfl rfl after

theorem readComment?_encode {t : List Char} (opened : c.rest = '<' :: '!' :: '-' :: '-' :: t) :
    readComment? (encode c.rest) = some (encode c.readComment.2.rest) := by
  have front : drop? 4 (encode c.rest) = some (encode t) := by
    rw [opened]
    exact drop?_front (s := ['<', '!', '-', '-']) rfl rfl t
  have found : (find? (encode ['-', '-', '!', '>']) (encode c.rest)).or
      (find? (encode ['-', '-', '>']) (encode c.rest)) =
        (Cursor.closer? c.rest).map fun parts => (encode parts.1).length := by
    rw [find?_encode, find?_encode, ← Option.map_or]
    rfl
  rw [readComment?, found, Cursor.rest_readComment]
  cases closer : Cursor.closer? c.rest with
  | none =>
    have body := skipCommentBody?_encode t []
    rw [List.append_nil] at body
    simp only [Option.map_none, front, Option.bind_eq_bind, Option.bind_some, body]
    rfl
  | some parts =>
    obtain ⟨before, after⟩ := parts
    obtain ⟨closed, rest⟩ : ∃ closed, c.rest = before ++ closed := by
      rcases Option.or_eq_some_iff.mp closer with strong | ⟨-, weak⟩
      · exact ⟨_, (Text.eq_of_splitOnce strong).trans (List.append_assoc ..)⟩
      · exact ⟨_, (Text.eq_of_splitOnce weak).trans (List.append_assoc ..)⟩
    have closes := closeComment?_encode (rest ▸ closer)
    simp only [Option.map_some]
    split
    · rw [rest, drop?_encode, Option.bind_some, closes]
      rfl
    · next long =>
      have whole : ['<', '!', '-', '-'] ++ t = before ++ closed := opened.symm.trans rest
      rw [length_encode] at long
      have reach : Text.utf8Length ['<', '!', '-', '-'] ≤ Text.utf8Length before :=
        Nat.lt_of_not_le long
      obtain ⟨body, rfl⟩ := Text.exists_eq_append_of_utf8Length_le whole reach
      rw [List.append_assoc] at whole
      obtain rfl := List.append_cancel_left whole
      have length : (encode (['<', '!', '-', '-'] ++ body)).length - 4 = (encode body).length := by
        rw [encode_append, List.length_append]
        exact Nat.add_sub_cancel_left 4 _
      simp only [front, length, Option.bind_eq_bind, Option.bind_some, take?_encode,
        skipCommentBody?_encode, closes]
      rfl

theorem readBogusComment?_encode {s t : List Char} (parts : c.rest = s ++ t)
    (start : (if begins "<?" (encode c.rest) then 1 else 2) = s.length)
    (ascii : s.all (·.toNat < 0x80)) (plain : s.all (· != '>')) :
    readBogusComment? (encode c.rest) =
      some (encode (c.readBogusComment s.length).2.rest) := by
  have length : s.length = (encode s).length := by
    rw [encode_ascii ascii, List.length_map]
  have stop : spanLength (· != '>') (encode c.rest) =
      (encode (s ++ t.takeWhile (· != '>'))).length := by
    rw [spanLength_encode, parts, List.takeWhile_append_of_pos (List.all_eq_true.mp plain)]
  have whole : c.rest = s ++ t.takeWhile (· != '>') ++ t.dropWhile (· != '>') := by
    rw [List.append_assoc, List.takeWhile_append_dropWhile, parts]
  have left : (c.readBogusComment s.length).2.rest = (t.dropWhile (· != '>')).drop 1 := by
    rw [Cursor.rest_readBogusComment, parts, List.drop_left]
  rw [readBogusComment?, start, stop, left, length]
  cases rest : t.dropWhile (· != '>') with
  | nil =>
    rw [rest, List.append_nil] at whole
    rw [if_neg (by rw [whole]; exact Nat.lt_irrefl _), parts, drop?_encode, Option.bind_some]
    exact drop?_all _
  | cons ch r =>
    obtain rfl := head?_dropWhile_ne rest
    rw [rest] at whole
    have closed : (encode (s ++ t.takeWhile (· != '>'))).length + 1 =
        (encode (s ++ t.takeWhile (· != '>') ++ ['>'])).length := by
      rw [encode_append _ ['>'], List.length_append]
      rfl
    have more : (encode (s ++ t.takeWhile (· != '>'))).length < (encode c.rest).length := by
      rw [whole, encode_append _ ('>' :: r), encode_cons, List.length_append, List.length_append]
      exact Nat.lt_add_of_pos_right (Nat.add_pos_left (by decide) _)
    rw [if_pos more, whole, slice?_encode, Option.bind_some, closed, List.append_cons _ _ r,
      drop?_encode]
    rfl

theorem readDeclaration?_encode (c : Cursor) {t : List Char} (front : c.rest = '<' :: '!' :: t) :
    readDeclaration? (encode c.rest) = some (encode c.readDeclaration.2.rest) := by
  rcases Cursor.readDeclaration_cases c with ⟨comment, read⟩ | ⟨other, read, -⟩
  · rw [readDeclaration?, begins_encode, if_pos comment, read]
    obtain ⟨r, opened⟩ := begins_encode_iff.mp ((begins_encode _ _).trans comment)
    exact readComment?_encode opened
  · rw [readDeclaration?, begins_encode, if_neg (by rw [other]; exact Bool.false_ne_true), read]
    refine readBogusComment?_encode (s := ['<', '!']) front ?_ rfl rfl
    rw [begins_encode, front]
    rfl

theorem opens_encode (d : Delimiters) (s : List Char) : opens d (encode s) = d.openAt s := by
  rw [opens, begins_encode, Delimiters.openAt]

theorem readInterpolation?_encode {d : Delimiters} (opened : d.openAt c.rest = true) :
    readInterpolation? d (encode c.rest) = some (encode (c.readInterpolation d).2.rest) := by
  rw [← opens_encode, opens, Bool.and_eq_true] at opened
  obtain ⟨t, parts⟩ := begins_encode_iff.mp opened.2
  rw [readInterpolation?, Cursor.readInterpolation]
  simp only [parts, drop?_encode, List.drop_left, Option.bind_eq_bind, Option.bind_some,
    find?_encode]
  cases closed : Text.splitOnce d.closing.toList t with
  | none =>
    rw [Option.map_none, drop?_all, Cursor.rest_report, Cursor.rest_skip, parts, List.drop_length]
  | some within =>
    obtain ⟨inner, after⟩ := within
    obtain rfl := Text.eq_of_splitOnce closed
    have length : (encode d.opening.toList).length + (encode inner).length +
        (encode d.closing.toList).length =
          (encode (d.opening.toList ++ (inner ++ d.closing.toList))).length := by
      simp only [encode_append, List.length_append]
      omega
    have whole : d.opening.toList ++ (inner ++ d.closing.toList ++ after) =
        d.opening.toList ++ (inner ++ d.closing.toList) ++ after := by simp
    have left : (c.skip (d.opening.toList.length + inner.length + d.closing.toList.length)).rest =
        after := by
      rw [Cursor.rest_skip, parts, whole, List.drop_left']
      simp [Nat.add_assoc]
    simp only [Option.map_some, length, whole, drop?_encode, left]

theorem length_encode_pos {ch : Char} {t : List Char} : 0 < (encode (ch :: t)).length :=
  List.length_pos_iff.mpr (mt encode_eq_nil_iff.mp (List.cons_ne_nil ch t))

theorem readEndTagOpen?_encode {t : List Char} (front : c.rest = '<' :: '/' :: t) :
    readEndTagOpen? (encode c.rest) = some (encode c.readEndTagOpen.2.rest) := by
  have skipped : drop? 2 (encode c.rest) = some (encode t) := by
    rw [front]
    exact drop?_front (s := ['<', '/']) rfl rfl t
  have length : (encode c.rest).length = (encode t).length + 2 := by
    rw [front, encode_cons_ascii (by decide), encode_cons_ascii (by decide)]
    rfl
  have inner : c.rest.drop 2 = t := by rw [front]; rfl
  cases t with
  | nil =>
    have two : (encode c.rest).length = 2 := length
    rw [readEndTagOpen?, if_pos two, skipped, Cursor.readEndTagOpen_nil inner]
    simp [Cursor.readText, front]
  | cons ch r =>
    have more : ¬ (encode c.rest).length = 2 := by
      have : 0 < (encode (ch :: r)).length := length_encode_pos
      omega
    rw [readEndTagOpen?, if_neg more]
    by_cases bracket : ch = '>'
    · subst bracket
      have named : begins "</>" (encode c.rest) = true := begins_encode_iff.mpr ⟨r, front⟩
      rw [if_pos named, Cursor.readEndTagOpen_bracket inner, front]
      simp only [Cursor.rest_skip, Cursor.rest_report, front]
      exact drop?_front (s := ['<', '/', '>']) rfl rfl r
    have unnamed : ¬ begins "</>" (encode c.rest) = true := by
      rintro there
      obtain ⟨r', same⟩ := begins_encode_iff.mp there
      rw [front] at same
      cases same
      exact bracket rfl
    simp only [if_neg unnamed, skipped, Option.bind_eq_bind, Option.bind_some, firstIs_encode,
      List.head?_cons, Option.any_some]
    by_cases letter : ch.isAlpha = true
    · have read := readTag?_encode (c := c.skip 2)
        (by rw [Cursor.rest_skip, inner]; rfl) letter
      rw [Cursor.rest_skip, inner] at read
      rw [if_pos letter, read, Cursor.readEndTagOpen_eq inner letter, Cursor.rest_readEndTag]
      rfl
    · rw [if_neg letter, Cursor.readEndTagOpen_bogus inner bracket letter]
      refine readBogusComment?_encode (c := c.report _) (s := ['<', '/']) front ?_ rfl rfl
      rw [begins_encode, Cursor.rest_report, front]
      rfl

theorem readStartTag?_encode {ch : Char} {t : List Char} (d : Dialect)
    (front : c.rest = '<' :: ch :: t) (letter : ch.isAlpha = true) :
    readStartTag? d (encode (ch :: t)) =
      some ((c.readStartTag d).2.1, encode (c.readStartTag d).2.2.rest) := by
  have inner : (c.skip 1).rest = ch :: t := by rw [Cursor.rest_skip, front]; rfl
  have read := readTag?_encode (c := c.skip 1) (by rw [inner]; rfl) letter
  rw [inner] at read
  simp only [readStartTag?, read, Option.bind_eq_bind, Option.bind_some, decode_encode,
    String.ofList_toList]
  rfl

theorem begins_pair {mark : String} {ch : Char} (letters : mark.toList = ['<', ch])
    (t : List Char) : begins mark (encode ('<' :: t)) = true ↔ t.head? = some ch := by
  rw [begins_encode_iff, letters, List.head?_eq_some_iff]
  exact exists_congr fun r => by simp

theorem readMarkup?_encode (d : Dialect) {t : List Char} (front : c.rest = '<' :: t) :
    readMarkup? d (encode c.rest) =
      some ((c.readMarkup d).2.1, encode (c.readMarkup d).2.2.rest) := by
  have skipped : drop? 1 (encode c.rest) = some (encode t) := by
    rw [front]
    exact drop?_front (s := ['<']) rfl rfl t
  have endTag : begins "</" (encode ('<' :: t)) = true ↔ t.head? = some '/' := begins_pair rfl t
  have declaration : begins "<!" (encode ('<' :: t)) = true ↔ t.head? = some '!' :=
    begins_pair rfl t
  have question : begins "<?" (encode ('<' :: t)) = true ↔ t.head? = some '?' :=
    begins_pair rfl t
  rw [← front] at endTag declaration question
  simp only [readMarkup?, endTag, declaration, question, skipped, Option.bind_eq_bind,
    Option.bind_some, firstIs_encode]
  have length : (encode c.rest).length = (encode t).length + 1 := by
    rw [front, encode_cons_ascii (by decide), List.length_cons]
  have more {ch : Char} {r : List Char} (parts : t = ch :: r) : ¬ (encode c.rest).length = 1 := by
    have : 0 < (encode (ch :: r)).length := length_encode_pos
    rw [length, parts]
    omega
  rcases Cursor.plain_or_begins t with plain | ⟨s, parts⟩ | ⟨s, parts⟩ | ⟨s, parts⟩ |
    ⟨ch, s, parts, letter⟩
  · obtain ⟨kind, -, read⟩ := Cursor.readMarkup_text (d := d) front plain
    have other {m : Char} (sign : m = '/' ∨ m = '!' ∨ m = '?') : ¬ t.head? = some m := by
      intro head
      obtain ⟨-, solidus, mark, point⟩ := plain m head
      rcases sign with rfl | rfl | rfl
      · exact solidus rfl
      · exact mark rfl
      · exact point rfl
    have left : ((c.report kind).readText 1).2.rest = t := by
      rw [Cursor.readText, Cursor.rest_skip, Cursor.rest_report, front]
      rfl
    have noLetter : ¬ t.head?.any Char.isAlpha = true := by
      rw [Option.any_eq_true]
      rintro ⟨ch, head, letter⟩
      exact (plain ch head).1 letter
    rw [if_neg (other (.inl rfl)), if_neg (other (.inr (.inl rfl))),
      if_neg (other (.inr (.inr rfl))), if_neg noLetter, read, left, Option.map_some, ite_self]
  · subst parts
    rw [if_pos List.head?_cons, readEndTagOpen?_encode front, Cursor.readMarkup_endTag front]
    rfl
  · subst parts
    rw [if_neg (by simp), if_pos List.head?_cons, readDeclaration?_encode c front,
      Cursor.readMarkup_declaration front]
    rfl
  · subst parts
    have read := readBogusComment?_encode (s := ['<'])
      (c := c.report .unexpectedQuestionMarkInsteadOfTagName) front
      (by rw [Cursor.rest_report, if_pos (question.mpr rfl)]; rfl) rfl rfl
    rw [Cursor.rest_report] at read
    rw [if_neg (by simp), if_neg (by simp), if_pos List.head?_cons, read,
      Cursor.readMarkup_question front]
    rfl
  · have other {m : Char} (sign : m.isAlpha = false) : ¬ t.head? = some m := by
      rw [parts]
      rintro same
      cases same
      rw [letter] at sign
      cases sign
    rw [if_neg (other rfl), if_neg (other rfl), if_neg (other rfl), if_neg (more parts)]
    subst parts
    rw [if_pos (by exact letter), Cursor.readMarkup_startTag front letter]
    exact readStartTag?_encode d front letter

theorem firstLength_encode (ch : Char) (t : List Char) :
    firstLength (encode (ch :: t)) = (encode [ch]).length := by
  obtain ⟨b, bs, bytes, -⟩ := exists_encodeChar ch
  rw [encode_cons, encode_cons, bytes, List.cons_append, firstLength, next_encodeChar bytes]
  rw [← List.cons_append, List.length_append, Nat.add_sub_cancel, List.length_append]
  rfl

theorem readData?_encode (d : Dialect) (more : c.rest ≠ []) :
    readData? d (encode c.rest) =
      some ((c.readData d).2.1, encode (c.readData d).2.2.rest) := by
  have text (s : List Char) : drop? (spanLength (!d.delimiters.stopsText ·) (encode s)) (encode s) =
      some (encode (s.drop (s.takeWhile (!d.delimiters.stopsText ·)).length)) := by
    rw [Cursor.drop_length_takeWhile]
    exact skipWhile?_encode (!d.delimiters.stopsText ·) s
  have some_iff : 0 < spanLength (!d.delimiters.stopsText ·) (encode c.rest) ↔
      0 < (c.rest.takeWhile (!d.delimiters.stopsText ·)).length := by
    rw [spanLength_encode, List.length_pos_iff, List.length_pos_iff, ne_eq, encode_eq_nil_iff]
  unfold readData? Cursor.readData
  simp only [some_iff, opens_encode, firstIs_iff, text]
  split
  · rfl
  split
  · next opened =>
    rw [readInterpolation?_encode opened]
    rfl
  split
  · next bracket =>
    obtain ⟨t, front⟩ := List.head?_eq_some_iff.mp bracket
    exact readMarkup?_encode d front
  · obtain ⟨ch, t, front⟩ := List.exists_cons_of_ne_nil more
    have left : (c.readText (1 + (t.takeWhile (!d.delimiters.stopsText ·)).length)).2.rest =
        t.dropWhile (!d.delimiters.stopsText ·) := by
      rw [Cursor.readText, Cursor.rest_skip, front, Nat.add_comm, List.drop_succ_cons,
        Cursor.drop_length_takeWhile]
    have first : drop? (firstLength (encode c.rest)) (encode c.rest) = some (encode t) := by
      rw [front, firstLength_encode]
      exact drop?_encode [ch] t
    have whole : drop? (firstLength (encode c.rest) +
        spanLength (!d.delimiters.stopsText ·) (encode t)) (encode c.rest) =
          some (encode (t.dropWhile (!d.delimiters.stopsText ·))) := by
      have length : firstLength (encode c.rest) +
          spanLength (!d.delimiters.stopsText ·) (encode t) =
            (encode (ch :: t.takeWhile (!d.delimiters.stopsText ·))).length := by
        rw [front, firstLength_encode, spanLength_encode, ← List.length_append, ← encode_append]
        rfl
      have parts : c.rest = ch :: t.takeWhile (!d.delimiters.stopsText ·) ++
          t.dropWhile (!d.delimiters.stopsText ·) := by
        rw [front, List.cons_append, List.takeWhile_append_dropWhile]
      rw [length, parts, drop?_encode]
    rw [first, Option.bind_eq_bind, Option.bind_some, whole, Option.map_some, ← left]
    simp only [front, List.drop_succ_cons, List.drop_zero]

/-- Any slice that follows a text is itself a text. -/
theorem exists_of_slice? {stop : Nat} {t : List Char} {bs : List UInt8}
    (found : slice? (encode s).length stop (encode (s ++ t)) = some bs) :
    ∃ x y, t = x ++ y ∧ bs = encode x := by
  rw [slice?] at found
  split at found
  · next order =>
    obtain ⟨front, taken, dropped⟩ := Option.bind_eq_some_iff.mp found
    by_cases boundary : IsBoundary stop (encode (s ++ t))
    · obtain ⟨whole, back, parts, rfl⟩ := exists_of_isBoundary boundary
      rw [length_encode, length_encode] at order
      obtain ⟨x, rfl⟩ := Text.exists_eq_append_of_utf8Length_le parts order
      rw [parts, take?_encode] at taken
      cases taken
      rw [drop?_encode] at dropped
      cases dropped
      rw [List.append_assoc] at parts
      exact ⟨x, back, List.append_cancel_left parts, rfl⟩
    · rw [take?, if_neg boundary] at taken
      cases taken
  · cases found

/-- An end tag stands among the bytes exactly where it stands among the characters. -/
theorem endTagAt?_encode (element : String) (s : List Char) :
    endTagAt? (encode element.toList) (encode s) = some (endTagAt element s) := by
  have two : (encode ['<', '/']).length = 2 := rfl
  by_cases named : ∃ n rest, s = ['<', '/'] ++ n ++ rest ∧
      n.map Char.toLower = element.toList.map Char.toLower
  · obtain ⟨n, rest, rfl, same⟩ := named
    have count : n.length = element.length := by
      simpa [String.length_toList] using congrArg List.length same
    have bytes : (encode n).length = (encode element.toList).length := by
      have lengths := congrArg (fun s => (encode s).length) same
      simpa only [encode_map_toLower, List.length_map] using lengths
    have stop : 2 + (encode element.toList).length = (encode (['<', '/'] ++ n)).length := by
      rw [encode_append, List.length_append, two, bytes]
    have opened : begins "</" (encode (['<', '/'] ++ n ++ rest)) = true :=
      begins_encode_iff.mpr ⟨n ++ rest, rfl⟩
    have name : slice? 2 (encode (['<', '/'] ++ n)).length (encode (['<', '/'] ++ n ++ rest)) =
        some (encode n) := two ▸ slice?_encode ['<', '/'] n rest
    have alike : sameIgnoringCase (encode n) (encode element.toList) = true := by
      rw [sameIgnoringCase_encode, beq_iff_eq, same]
    have stands : endTagAt element (['<', '/'] ++ n ++ rest) = !rest.head?.any isNameChar := by
      simp [endTagAt, Text.sameIgnoringCase, ← count, same]
    rw [endTagAt?, stop, stands, opened, name, Option.any_some, alike, Bool.and_self, if_pos rfl,
      drop?_encode, Option.map_some, firstIs_encode]
  · have absent : endTagAt element s = false := by
      rw [Bool.eq_false_iff, ne_eq, endTagAt_iff]
      rintro ⟨n, rest, parts, same, -⟩
      exact named ⟨n, rest, parts, same⟩
    rw [endTagAt?, if_neg, absent]
    rw [Bool.and_eq_true, Option.any_eq_true]
    rintro ⟨opened, bs, found, same⟩
    obtain ⟨t, rfl⟩ := begins_encode_iff.mp opened
    obtain ⟨x, y, rfl, rfl⟩ := exists_of_slice? (s := ['<', '/']) (two ▸ found)
    rw [sameIgnoringCase_encode, beq_iff_eq] at same
    exact named ⟨x, y, rfl, same⟩

theorem endOffset?_continues {name bs : List UInt8} (h : ∀ b ∈ bs, Continues b)
    (t : List UInt8) : endOffset? name (bs ++ t) = (endOffset? name t).map (· + bs.length) := by
  induction bs with
  | nil => simp
  | cons b bs ih =>
    have other : begins "</" (b :: (bs ++ t)) = false := by
      have differs : byte '<' ≠ b :=
        (byte_ne_of_isHigh (h b List.mem_cons_self).isHigh (by decide)).symm
      rw [begins, encode_ascii rfl]
      simp [List.isPrefixOf, differs]
    have absent : endTagAt? name (b :: (bs ++ t)) = some false := by
      rw [endTagAt?, other]
      rfl
    rw [List.cons_append, endOffset?, absent, Option.bind_some, if_neg Bool.false_ne_true,
      ih fun b' hb => h b' (List.mem_cons_of_mem b hb), Option.map_map]
    exact congrArg (Option.map · _) (funext fun n => by simp; omega)

theorem endOffset?_encode (element : String) (s : List Char) :
    endOffset? (encode element.toList) (encode s) =
      some (encode (beforeEndTag element s)).length := by
  induction s with
  | nil => rfl
  | cons ch s ih =>
    obtain ⟨b, bs, bytes, -, others⟩ := exists_encodeChar ch
    have here := endTagAt?_encode element (ch :: s)
    rw [encode_cons, bytes, List.cons_append] at here ⊢
    rw [endOffset?, here, Option.bind_some, beforeEndTag]
    cases endTagAt element (ch :: s) with
    | true => rfl
    | false =>
      rw [if_neg Bool.false_ne_true, if_neg Bool.false_ne_true, endOffset?_continues others, ih,
        Option.map_some, Option.map_some, encode_cons, bytes]
      simp
      omega

theorem drop?_beforeEndTag (element : String) (s : List Char) :
    drop? (encode (beforeEndTag element s)).length (encode s) =
      some (encode (s.drop (beforeEndTag element s).length)) := by
  obtain ⟨tail, parts, -⟩ := beforeEndTag_spec element s
  generalize beforeEndTag element s = before at parts ⊢
  rw [parts, drop?_encode, List.drop_left]

theorem length_encode_eq_zero : (encode s).length = 0 ↔ s.length = 0 := by
  rw [List.length_eq_zero_iff, List.length_eq_zero_iff, encode_eq_nil_iff]

theorem readRaw?_encode (d : Dialect) (element : String) (more : c.rest ≠ []) :
    readRaw? d element (encode c.rest) =
      some ((c.readRaw d element).2.1, encode (c.readRaw d element).2.2.rest) := by
  unfold readRaw? Cursor.readRaw
  simp only [endOffset?_encode, Option.bind_eq_bind, Option.bind_some, length_encode_eq_zero,
    drop?_beforeEndTag]
  split
  · exact readData?_encode d more
  · rfl

/-- Of two beginnings of a text the shorter has fewer bytes. -/
theorem length_encode_lt_iff {a b a' b' : List Char} (same : a ++ a' = b ++ b') :
    (encode a).length < (encode b).length ↔ a.length < b.length := by
  rcases List.append_eq_append_iff.mp same with ⟨x, rfl, -⟩ | ⟨x, rfl, -⟩
  · rw [encode_append, List.length_append, List.length_append, Nat.lt_add_right_iff_pos,
      Nat.lt_add_right_iff_pos, Nat.pos_iff_ne_zero, Nat.pos_iff_ne_zero, ne_eq,
      length_encode_eq_zero]
  · rw [encode_append, List.length_append, List.length_append]
    omega

theorem readReplaceable?_encode (d : Dialect) (element : String) (more : c.rest ≠ []) :
    readReplaceable? d element (encode c.rest) =
      some ((c.readReplaceable d element).2.1, encode (c.readReplaceable d element).2.2.rest) := by
  unfold readReplaceable? Cursor.readReplaceable
  simp only [opens_encode, endOffset?_encode, Option.bind_eq_bind, Option.bind_some,
    length_encode_eq_zero, drop?_beforeEndTag, find?_encode]
  split
  · next opened =>
    rw [readInterpolation?_encode opened]
    rfl
  split
  · exact readData?_encode d more
  by_cases disabled : d.delimiters.opening = ""
  · rw [if_pos disabled, if_neg (Nat.lt_irrefl _), if_pos disabled]
    rfl
  rw [if_neg disabled, if_neg disabled]
  cases first : Text.splitOnce d.delimiters.opening.toList c.rest with
  | none =>
    rw [Option.map_none, Option.getD_none, if_neg (Nat.lt_irrefl _)]
    rfl
  | some parts =>
    obtain ⟨before, after⟩ := parts
    obtain ⟨tail, ended, -⟩ := beforeEndTag_spec element c.rest
    have opened := Text.eq_of_splitOnce first
    rw [List.append_assoc] at opened
    have skipped : drop? (encode before).length (encode c.rest) =
        some (encode (c.readText before.length).2.rest) := by
      rw [Cursor.readText, Cursor.rest_skip, opened, drop?_encode, List.drop_left]
    rw [Option.map_some, Option.getD_some]
    dsimp only
    by_cases sooner : before.length < (beforeEndTag element c.rest).length
    · rw [if_pos ((length_encode_lt_iff (opened.symm.trans ended)).mpr sooner), if_pos sooner,
        skipped]
      rfl
    · rw [if_neg (mt (length_encode_lt_iff (opened.symm.trans ended)).mp sooner), if_neg sooner]
      rfl

/-- Every token that is read among the characters is read among the bytes, and nothing stops the
program. -/
theorem read?_encode (d : Dialect) (mode : Mode) (more : c.rest ≠ []) :
    read? d (encode c.rest) mode =
      some ((c.read d mode).2.1, encode (c.read d mode).2.2.rest) := by
  cases mode with
  | data => exact readData?_encode d more
  | replaceable element => exact readReplaceable?_encode d element more
  | raw element => exact readRaw?_encode d element more

end ComponentLoader.Markup.Bytes
