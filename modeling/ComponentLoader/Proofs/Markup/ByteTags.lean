import ComponentLoader.Proofs.Markup.RawText
import ComponentLoader.Proofs.Markup.TagTails
import ComponentLoader.Proofs.Text.Bytes

/-! Reading markup as bytes. Here every length is what a search of the bytes has found, or that of a
text which is known to stand there, and a step over bytes that are not there, or into a character,
stops the program. On the bytes of a text no step does: each reader goes on where its like goes on
among the characters. Tokens and faults are left out, since nothing that is read next depends on
them. -/
namespace ComponentLoader.Markup.Bytes

open Text.Utf8

def begins (s : String) (bs : List UInt8) : Bool := (encode s.toList).isPrefixOf bs

def firstIs (p : Char → Bool) : List UInt8 → Bool
  | [] => false
  | b :: bs => p (next b bs).1

def skipWhile? (p : Char → Bool) (bs : List UInt8) : Option (List UInt8) :=
  drop? (spanLength p bs) bs

def skipSpace? (bs : List UInt8) : Option (List UInt8) := skipWhile? Text.isMarkupSpace bs

def endsTag (bs : List UInt8) : Bool :=
  bs.isEmpty || firstIs (· == '>') bs || begins "/>" bs

def readAttributeName? (bs : List UInt8) : Option (List UInt8) :=
  if firstIs (· == '=') bs then drop? 1 bs else skipWhile? isAttributeNameChar bs

/-- Moves past the closing quote of a value, or to the end if nothing closes it. -/
def closeQuoted? (quote : Char) (bs : List UInt8) : Option (List UInt8) :=
  let n := spanLength (· != quote) bs
  if n < bs.length then (drop? n bs).bind (drop? 1) else drop? n bs

def afterQuoted? (bs : List UInt8) : Option (List UInt8) :=
  if endsTag bs then some bs
  else if firstIs (· == '/') bs then drop? 1 bs
  else skipSpace? bs

def readQuoted? (quote : Char) (bs : List UInt8) : Option (List UInt8) :=
  ((drop? 1 bs).bind (closeQuoted? quote)).bind afterQuoted?

def readAttributeValue? (bs : List UInt8) : Option (List UInt8) := do
  let bs ← skipSpace? bs
  if firstIs (· == '>') bs then return bs
  else if firstIs (· == '"') bs then readQuoted? '"' bs
  else if firstIs (· == '\'') bs then readQuoted? '\'' bs
  else skipWhile? isUnquotedChar bs

def readAttribute? (bs : List UInt8) : Option (List UInt8) := do
  let bs ← readAttributeName? bs
  let bs ← skipSpace? bs
  if endsTag bs then return bs
  else if firstIs (· == '/') bs then drop? 1 bs
  else if firstIs (· == '=') bs then (drop? 1 bs).bind readAttributeValue?
  else return bs

def readAttributeOrSolidus? (bs : List UInt8) : Option (List UInt8) :=
  if firstIs (· == '/') bs then drop? 1 bs else readAttribute? bs

/-- Reads the attributes of a tag. A step that takes nothing would be repeated without end, and
gives nothing here. -/
def readAttributes? (bs : List UInt8) : Option (List UInt8) := do
  let inner ← skipSpace? bs
  if endsTag inner then return inner
  else
    let rest ← readAttributeOrSolidus? inner
    if _shorter : rest.length < bs.length then readAttributes? rest else none
termination_by bs.length

/-- Reads a tag from the letter that its name begins with. Returns the name, whether the tag is
self-closing, and what is left. -/
def readTag? (bs : List UInt8) : Option (List UInt8 × Bool × List UInt8) := do
  let n := 1 + spanLength isNameChar bs.tail
  let name ← take? n bs
  let bs ← (drop? n bs).bind readAttributes?
  if bs.isEmpty then return (name, false, bs)
  else if begins "/>" bs then return (name, true, ← drop? 2 bs)
  else return (name, false, ← drop? 1 bs)

variable {c : Cursor} {s r : List Char}

theorem begins_encode (t : String) (s : List Char) :
    begins t (encode s) = Text.startsWith t.toList s := isPrefixOf_encode t.toList s

theorem begins_encode_iff {t : String} : begins t (encode s) = true ↔ ∃ r, s = t.toList ++ r := by
  rw [begins_encode, Text.startsWith, Option.isSome_iff_exists]
  exact exists_congr fun r => Text.stripStart_eq_some_iff

/-- A known text of ASCII characters is as many bytes long. -/
theorem drop?_front {n : Nat} (ascii : s.all (·.toNat < 0x80)) (length : s.length = n)
    (r : List Char) : drop? n (encode (s ++ r)) = some (encode r) := by
  have bytes : (encode s).length = n := by rw [encode_ascii ascii, List.length_map, length]
  rw [← bytes, drop?_encode]

theorem drop?_one {ch : Char} (ascii : ch.toNat < 0x80) (front : s.head? = some ch) :
    drop? 1 (encode s) = some (encode (s.drop 1)) := by
  obtain ⟨r, rfl⟩ := List.head?_eq_some_iff.mp front
  exact drop?_front (s := [ch]) (by simpa using ascii) rfl r

theorem drop?_all (s : List Char) : drop? (encode s).length (encode s) = some (encode []) := by
  have whole := drop?_encode s []
  rwa [List.append_nil] at whole

theorem firstIs_encode (p : Char → Bool) (s : List Char) :
    firstIs p (encode s) = s.head?.any p := by
  cases s with
  | nil => rfl
  | cons ch s =>
    obtain ⟨b, bs, bytes, -⟩ := exists_encodeChar ch
    rw [encode_cons, bytes, List.cons_append, firstIs, next_encodeChar bytes]
    rfl

theorem skipWhile?_encode (p : Char → Bool) (s : List Char) :
    skipWhile? p (encode s) = some (encode (s.dropWhile p)) := by
  have parts := drop?_encode (s.takeWhile p) (s.dropWhile p)
  rwa [List.takeWhile_append_dropWhile, ← spanLength_encode] at parts

theorem firstIs_iff {ch : Char} : firstIs (· == ch) (encode s) = true ↔ s.head? = some ch := by
  rw [firstIs_encode, Option.any_eq_true]
  constructor
  · rintro ⟨ch', front, same⟩
    rw [front, beq_iff_eq.mp same]
  · intro front
    exact ⟨ch, front, beq_self_eq_true ch⟩

theorem skipSpace?_encode (c : Cursor) :
    skipSpace? (encode c.rest) = some (encode c.skipSpace.rest) := by
  rw [skipSpace?, skipWhile?_encode, Cursor.rest_skipSpace]

theorem isEmpty_encode (s : List Char) : (encode s).isEmpty = s.isEmpty := by
  rw [Bool.eq_iff_iff, List.isEmpty_iff, List.isEmpty_iff, encode_eq_nil_iff]

theorem endsTag_encode (s : List Char) : endsTag (encode s) = Markup.endsTag s := by
  rw [endsTag, isEmpty_encode, firstIs_encode, begins_encode]
  cases s with
  | nil => rfl
  | cons ch s =>
    by_cases bracket : ch = '>'
    · subst bracket
      rfl
    by_cases solidus : ch = '/'
    · subst solidus
      cases s with
      | nil => rfl
      | cons ch' s =>
        by_cases bracket : ch' = '>'
        · subst bracket
          rfl
        · simp [Markup.endsTag, Text.startsWith, Text.stripStart, bracket, Ne.symm bracket]
    · simp [Markup.endsTag, Text.startsWith, Text.stripStart, bracket, solidus, Ne.symm solidus]

theorem readAttributeName?_encode (c : Cursor) :
    readAttributeName? (encode c.rest) = some (encode c.readAttributeName.2.rest) := by
  by_cases equals : c.rest.head? = some '='
  · rw [readAttributeName?, if_pos (firstIs_iff.mpr equals), Cursor.readAttributeName,
      if_pos equals]
    exact drop?_one (by decide) equals
  · rw [readAttributeName?, if_neg (mt firstIs_iff.mp equals), Cursor.readAttributeName,
      if_neg equals, skipWhile?_encode, Cursor.rest_reportIf, Cursor.rest_takeWhile]

theorem solidus_encode {c c' : Cursor} (found : c.skipSolidus? = some c') :
    firstIs (· == '/') (encode c.rest) = true ∧
      drop? 1 (encode c.rest) = some (encode c'.rest) := by
  rw [Cursor.skipSolidus_eq] at found
  split at found
  · next front =>
    cases found
    exact ⟨firstIs_iff.mpr front, drop?_one (by decide) front⟩
  · cases found

theorem no_solidus_encode (absent : c.skipSolidus? = none) :
    ¬ firstIs (· == '/') (encode c.rest) = true := by
  rw [Cursor.skipSolidus_eq] at absent
  split at absent
  · cases absent
  · next other => exact mt firstIs_iff.mp other

theorem head?_dropWhile_ne {ch ch' : Char} {r : List Char}
    (rest : s.dropWhile (· != ch) = ch' :: r) : ch' = ch := by
  have first := List.head?_dropWhile_not (· != ch) s
  rw [rest] at first
  simpa using first

theorem closeQuoted?_encode {quote : Char} (ascii : quote.toNat < 0x80) (s : List Char) :
    closeQuoted? quote (encode s) = some (encode ((s.dropWhile (· != quote)).drop 1)) := by
  have parts : (encode s).length =
      spanLength (· != quote) (encode s) + (encode (s.dropWhile (· != quote))).length := by
    rw [spanLength_encode, ← List.length_append, ← encode_append, List.takeWhile_append_dropWhile]
  have after := skipWhile?_encode (· != quote) s
  rw [skipWhile?] at after
  rw [closeQuoted?, after]
  cases rest : s.dropWhile (· != quote) with
  | nil =>
    rw [rest] at parts
    exact if_neg (by rw [parts]; exact Nat.lt_irrefl _)
  | cons ch t =>
    have closes : ch = quote := head?_dropWhile_ne rest
    have more : 0 < (encode (ch :: t)).length := by
      rw [List.length_pos_iff]
      exact mt encode_eq_nil_iff.mp (List.cons_ne_nil ch t)
    rw [rest] at parts
    rw [if_pos (by omega), Option.bind_some]
    exact drop?_one ascii (by rw [closes]; rfl)

theorem afterQuoted?_encode (c : Cursor) :
    afterQuoted? (encode c.rest) = some (encode c.afterQuoted.rest) := by
  rw [afterQuoted?, endsTag_encode, Cursor.afterQuoted]
  split
  · rfl
  cases solidus : c.skipSolidus? with
  | some c' =>
    obtain ⟨there, after⟩ := solidus_encode solidus
    rw [if_pos there, after]
  | none =>
    rw [if_neg (no_solidus_encode solidus), skipSpace?_encode, Cursor.rest_reportIf]

theorem readQuoted?_encode {quote : Char} (ascii : quote.toNat < 0x80)
    (front : c.rest.head? = some quote) :
    readQuoted? quote (encode c.rest) = some (encode (c.readQuoted quote).2.2.rest) := by
  rw [readQuoted?, drop?_one ascii front, Option.bind_some, closeQuoted?_encode ascii,
    Option.bind_some]
  have closed : ((c.skip 1).takeWhile (· != quote)).2.skipNext.rest =
      ((c.rest.drop 1).dropWhile (· != quote)).drop 1 := by simp
  rw [← closed, afterQuoted?_encode]
  rfl

theorem readAttributeValue?_encode (c : Cursor) :
    readAttributeValue? (encode c.rest) = some (encode c.readAttributeValue.2.2.rest) := by
  rw [readAttributeValue?, skipSpace?_encode, Cursor.readAttributeValue_eq]
  simp only [Option.bind_eq_bind, Option.bind_some, Option.pure_def, firstIs_iff, skipWhile?_encode]
  by_cases ended : c.skipSpace.rest.head? = none
  · rw [List.head?_eq_none_iff] at ended
    simp only [ended, List.head?_nil, reduceCtorEq, if_false, if_true, List.dropWhile_nil]
  rw [if_neg ended]
  by_cases bracket : c.skipSpace.rest.head? = some '>'
  · rw [if_pos bracket, if_pos bracket, Cursor.rest_report]
  rw [if_neg bracket, if_neg bracket]
  by_cases double : c.skipSpace.rest.head? = some '"'
  · rw [if_pos double, if_pos double]
    exact readQuoted?_encode (by decide) double
  rw [if_neg double, if_neg double]
  by_cases single : c.skipSpace.rest.head? = some '\''
  · rw [if_pos single, if_pos single]
    exact readQuoted?_encode (by decide) single
  rw [if_neg single, if_neg single, Cursor.rest_reportIf, Cursor.rest_takeWhile]

theorem readAttribute?_encode (c : Cursor) :
    readAttribute? (encode c.rest) = some (encode c.readAttribute.2.rest) := by
  rw [readAttribute?, readAttributeName?_encode]
  simp only [Option.bind_eq_bind, Option.bind_some, Option.pure_def, skipSpace?_encode,
    endsTag_encode]
  rw [Cursor.readAttribute]
  dsimp only
  split
  · rfl
  cases solidus : c.readAttributeName.2.skipSpace.skipSolidus? with
  | some c' =>
    obtain ⟨there, after⟩ := solidus_encode solidus
    rw [if_pos there, after]
  | none =>
    rw [if_neg (no_solidus_encode solidus)]
    dsimp only
    by_cases equals : c.readAttributeName.2.skipSpace.rest.head? = some '='
    · rw [if_pos (firstIs_iff.mpr equals), if_pos equals, drop?_one (by decide) equals]
      exact readAttributeValue?_encode (c.readAttributeName.2.skipSpace.skip 1)
    · rw [if_neg (mt firstIs_iff.mp equals), if_neg equals]

theorem length_encode_lt {c c' : Cursor} (reached : c.Reaches c')
    (shorter : c'.rest.length < c.rest.length) :
    (encode c'.rest).length < (encode c.rest).length := by
  obtain ⟨taken, parts, -⟩ := reached.text
  have some : 0 < (encode taken).length := by
    rw [List.length_pos_iff, ne_eq, encode_eq_nil_iff]
    rintro rfl
    rw [parts] at shorter
    exact Nat.lt_irrefl _ shorter
  rw [parts, encode_append, List.length_append]
  exact Nat.lt_add_of_pos_left some

/-- A step in a tag that has not ended, and reading on from there. -/
theorem readAttributes?_step {next : Cursor} (ends : ¬ Markup.endsTag c.skipSpace.rest = true)
    (step : readAttributeOrSolidus? (encode c.skipSpace.rest) = some (encode next.rest))
    (reached : c.skipSpace.Reaches next) (shorter : next.rest.length < c.skipSpace.rest.length) :
    readAttributes? (encode c.rest) = readAttributes? (encode next.rest) := by
  have within := Nat.lt_of_lt_of_le shorter (Cursor.length_rest_skipSpace_le c)
  have fewer := length_encode_lt ((Cursor.reaches_skipSpace c).trans reached) within
  rw [readAttributes?, skipSpace?_encode]
  simp only [Option.bind_eq_bind, Option.bind_some, endsTag_encode, if_neg ends, step]
  exact dif_pos fewer

theorem readAttributes?_encode (c : Cursor) (kept : List Attribute) :
    readAttributes? (encode c.rest) = some (encode (c.readAttributes kept).2.rest) := by
  have another {c : Cursor} (ends : ¬ Markup.endsTag c.skipSpace.rest = true)
      (solidus : c.skipSpace.skipSolidus? = none) :
      readAttributes? (encode c.rest) =
        readAttributes? (encode c.skipSpace.readAttribute.2.rest) := by
    obtain ⟨ch, t, front, first⟩ :=
      Cursor.exists_isNameChar (Bool.eq_false_iff.mpr ends) solidus
    refine readAttributes?_step ends ?_ (Cursor.reaches_readAttribute c.skipSpace).1
      (Cursor.length_readAttribute_lt front first)
    rw [readAttributeOrSolidus?, if_neg (no_solidus_encode solidus), readAttribute?_encode]
  induction c, kept using Cursor.readAttributes.induct with
  | case1 c kept ends =>
    rw [Cursor.readAttributes_ended ends, readAttributes?, skipSpace?_encode]
    exact if_pos (endsTag_encode _ ▸ ends)
  | case2 c kept ends c' solidus ih =>
    obtain ⟨there, after⟩ := solidus_encode solidus
    rw [Cursor.readAttributes_solidus ends solidus, ← ih]
    refine readAttributes?_step ends ?_ (Cursor.reaches_skipSolidus solidus)
      (Cursor.length_skipSolidus solidus)
    rw [readAttributeOrSolidus?, if_pos there, after]
  | case3 c kept ends solidus next same ih =>
    rw [Cursor.readAttributes_attribute ends solidus, if_pos same, another ends solidus]
    exact ih
  | case4 c kept ends solidus next other ih =>
    rw [Cursor.readAttributes_attribute ends solidus, if_neg other, another ends solidus]
    exact ih

theorem readTag?_encode {ch : Char} (front : c.rest.head? = some ch) (letter : ch.isAlpha = true) :
    readTag? (encode c.rest) = some (encode c.readTag.1.name.toList, c.readTag.1.selfClosing,
      encode c.readTag.2.rest) := by
  obtain ⟨t, rest⟩ := List.head?_eq_some_iff.mp front
  have ascii : ch.toNat < 0x80 := ascii_of_isAlphanum (Bool.or_eq_true_iff.mpr (.inl letter))
  have length : 1 + spanLength isNameChar (encode c.rest).tail =
      (encode (c.rest.takeWhile isNameChar)).length := by
    rw [rest, List.takeWhile_cons_of_pos (isNameChar_of_isAlpha letter),
      encode_cons_ascii ascii, encode_cons_ascii ascii, List.tail_cons, spanLength_encode,
      List.length_cons, Nat.add_comm]
  have name := take?_encode (c.rest.takeWhile isNameChar) (c.rest.dropWhile isNameChar)
  have after := drop?_encode (c.rest.takeWhile isNameChar) (c.rest.dropWhile isNameChar)
  rw [List.takeWhile_append_dropWhile] at name after
  have attributes : readAttributes? (encode (c.rest.dropWhile isNameChar)) =
      some (encode c.tagEnd.rest) := by
    rw [← Cursor.rest_takeWhile, readAttributes?_encode _ []]
    rfl
  rw [readTag?]
  simp only [length, name, after, Option.bind_eq_bind, Option.bind_some, attributes]
  rcases Cursor.readTag_cases c with ⟨ended, read⟩ | ⟨r, ended, read⟩ | ⟨r, ended, read⟩
  · rw [if_pos (by rw [ended]; rfl), read]
    simp
  · have solidus : begins "/>" (encode c.tagEnd.rest) = true := begins_encode_iff.mpr ⟨r, ended⟩
    have skipped : drop? 2 (encode c.tagEnd.rest) = some (encode r) := by
      rw [ended]
      exact drop?_front (s := ['/', '>']) rfl rfl r
    rw [if_neg (by rw [ended]; simp [isEmpty_encode]), if_pos solidus, skipped, read]
    simp [ended]
  · have solidus : ¬ begins "/>" (encode c.tagEnd.rest) = true := by
      rw [ended]
      rintro there
      obtain ⟨r', same⟩ := begins_encode_iff.mp there
      cases same
    have skipped : drop? 1 (encode c.tagEnd.rest) = some (encode r) := by
      rw [ended]
      exact drop?_front (s := ['>']) rfl rfl r
    rw [if_neg (by rw [ended]; simp [isEmpty_encode]), if_neg solidus, skipped, read]
    simp [ended]

end ComponentLoader.Markup.Bytes
