import ComponentLoader.Markup.Cursor

/-!
Reading tags: names, attributes and the closing bracket. Every deviation from the grammar is
reported where it is noticed, and reading goes on.
-/
namespace ComponentLoader.Markup

def isNameChar (c : Char) : Bool := !Text.isMarkupSpace c && c != '/' && c != '>'

def isAttributeNameChar (c : Char) : Bool := isNameChar c && c != '='

/-- Whether a character may stand in a value without quotes. -/
def isUnquotedChar (c : Char) : Bool := !Text.isMarkupSpace c && c != '>'

/-- Whether a tag ends here: with a bracket, with a solidus and a bracket, or with the text. -/
def endsTag : List Char → Bool
  | [] => true
  | '>' :: _ => true
  | '/' :: '>' :: _ => true
  | _ => false

namespace Cursor

def skipSolidus? (c : Cursor) : Option Cursor :=
  match c.rest with
  | '/' :: _ => some ((c.skip 1).report .unexpectedSolidusInTag)
  | _ => none

/-- Reads the name of an attribute. An equals sign where a name should begin is a name of its
own. -/
def readAttributeName (c : Cursor) : String × Cursor :=
  if c.rest.head? = some '=' then
    ("=", (c.skip 1).report .unexpectedEqualsSignBeforeAttributeName)
  else
    let (name, c) := c.takeWhile isAttributeNameChar
    (String.ofList name,
      c.reportIf (name.any ['<', '"', '\''].contains) .unexpectedCharacterInAttributeName)

/-- Moves to the next attribute after a quoted value. -/
def afterQuoted (c : Cursor) : Cursor :=
  if endsTag c.rest then c
  else match c.skipSolidus? with
    | some c => c
    | none =>
      c.skipSpace.reportIf (!c.rest.head?.any Text.isMarkupSpace)
        .missingWhitespaceBetweenAttributes

/-- Reads a value from its opening quote. The closing quote is missing only at the end of the
text. Also returns where the value ends. -/
def readQuoted (c : Cursor) (quote : Char) : Option String × Position × Cursor :=
  let (value, c) := (c.skip 1).takeWhile (· != quote)
  let c := c.skipNext
  (some (String.ofList value), c.position, c.afterQuoted)

/-- Reads what follows the equals sign of an attribute. Also returns where the attribute ends. -/
def readAttributeValue (c : Cursor) : Option String × Position × Cursor :=
  let stop := c.position
  let c := c.skipSpace
  match c.rest with
  | [] => (none, c.position, c)
  | '>' :: _ => (none, stop, c.report .missingAttributeValue)
  | '"' :: _ => c.readQuoted '"'
  | '\'' :: _ => c.readQuoted '\''
  | _ =>
    let (value, c) := c.takeWhile isUnquotedChar
    let c := c.reportIf (value.any ['"', '\'', '<', '=', '`'].contains)
      .unexpectedCharacterInUnquotedAttributeValue
    (some (String.ofList value), c.position, c)

def readAttribute (c : Cursor) : Attribute × Cursor :=
  let start := c.position
  let (name, c) := c.readAttributeName
  let bare : Attribute := ⟨name, none, start, c.position⟩
  let c := c.skipSpace
  if endsTag c.rest then (bare, c)
  else match c.skipSolidus? with
    | some c => (bare, c)
    | none =>
      if c.rest.head? = some '=' then
        let (value, stop, c) := (c.skip 1).readAttributeValue
        (⟨name, value, start, stop⟩, c)
      else (bare, c)

theorem length_skipSolidus {c c' : Cursor} (h : c.skipSolidus? = some c') :
    c'.rest.length < c.rest.length := by
  unfold skipSolidus? at h
  split at h
  · next r hr => cases h; simp [hr]
  · cases h

theorem length_afterQuoted_le (c : Cursor) : c.afterQuoted.rest.length ≤ c.rest.length := by
  unfold afterQuoted
  split
  · exact Nat.le_refl _
  · split
    · next h => exact Nat.le_of_lt (length_skipSolidus h)
    · simpa using length_dropWhile_le ..

theorem length_readQuoted_le (c : Cursor) (quote : Char) :
    (c.readQuoted quote).2.2.rest.length ≤ c.rest.length := by
  refine Nat.le_trans (length_afterQuoted_le _) ?_
  have := length_dropWhile_le (· != quote) (c.rest.drop 1)
  simp only [rest_skipNext, rest_skip, List.length_drop] at *
  omega

theorem length_readAttributeValue_le (c : Cursor) :
    c.readAttributeValue.2.2.rest.length ≤ c.rest.length := by
  have h := length_rest_skipSpace_le c
  unfold readAttributeValue
  dsimp only
  split
  · exact h
  · exact h
  · exact Nat.le_trans (length_readQuoted_le ..) h
  · exact Nat.le_trans (length_readQuoted_le ..) h
  · have := length_dropWhile_le isUnquotedChar c.skipSpace.rest
    simp at *
    omega

/-- An attribute name takes at least one character where a name can begin. -/
theorem length_readAttributeName_lt {c : Cursor} {ch : Char} {r : List Char} (hr : c.rest = ch :: r)
    (h : isNameChar ch = true) : c.readAttributeName.2.rest.length < c.rest.length := by
  unfold readAttributeName
  split
  · simp [hr]
  · next he =>
    have ha : isAttributeNameChar ch = true := by
      simp only [hr, List.head?_cons, Option.some.injEq] at he
      simp [isAttributeNameChar, h, he]
    have := length_dropWhile_le isAttributeNameChar r
    simp only [rest_reportIf, rest_takeWhile, hr, List.dropWhile_cons, ha, if_true,
      List.length_cons]
    omega

theorem length_readAttribute_lt {c : Cursor} {ch : Char} {r : List Char} (hr : c.rest = ch :: r)
    (h : isNameChar ch = true) : c.readAttribute.2.rest.length < c.rest.length := by
  have hn := length_readAttributeName_lt hr h
  have hs := length_rest_skipSpace_le c.readAttributeName.2
  unfold readAttribute
  dsimp only
  split
  · exact Nat.lt_of_le_of_lt hs hn
  · split
    · next h' => exact Nat.lt_trans (Nat.lt_of_lt_of_le (length_skipSolidus h') hs) hn
    · split
      · have hv := length_readAttributeValue_le (c.readAttributeName.2.skipSpace.skip 1)
        have := length_rest_skip_le c.readAttributeName.2.skipSpace 1
        exact Nat.lt_of_le_of_lt (Nat.le_trans (Nat.le_trans hv this) hs) hn
      · exact Nat.lt_of_le_of_lt hs hn

/-- Where no tag ends, no solidus stands and no space is left, an attribute name begins. -/
theorem exists_isNameChar {c : Cursor} (h : endsTag c.skipSpace.rest = false)
    (hs : c.skipSpace.skipSolidus? = none) :
    ∃ ch r, c.skipSpace.rest = ch :: r ∧ isNameChar ch = true := by
  have hd := List.head?_dropWhile_not Text.isMarkupSpace c.rest
  rw [← rest_skipSpace] at hd
  generalize c.skipSpace = c' at *
  cases hr : c'.rest with
  | nil => rw [hr] at h; cases h
  | cons ch r =>
    have hsp : Text.isMarkupSpace ch = false := by simpa [hr] using hd
    have h1 : ch ≠ '/' := by rintro rfl; simp [skipSolidus?, hr] at hs
    have h2 : ch ≠ '>' := by rintro rfl; simp [hr, endsTag] at h
    exact ⟨ch, r, rfl, by simp [isNameChar, hsp, h1, h2]⟩

/-- Reads the attributes of a tag. Of attributes with one name the first is kept. -/
def readAttributes (c : Cursor) (kept : List Attribute) : List Attribute × Cursor :=
  if _hend : endsTag c.skipSpace.rest then (kept, c.skipSpace)
  else match _hsolidus : c.skipSpace.skipSolidus? with
    | some c' => readAttributes c' kept
    | none =>
      let next := c.skipSpace.readAttribute
      if kept.any (·.name == next.1.name) then
        readAttributes (next.2.report .duplicateAttribute) kept
      else readAttributes next.2 (kept ++ [next.1])
termination_by c.rest.length
decreasing_by
  · exact Nat.lt_of_lt_of_le (length_skipSolidus _hsolidus) (length_rest_skipSpace_le c)
  · obtain ⟨ch, r, hr, hch⟩ := exists_isNameChar (by simpa using _hend) _hsolidus
    exact Nat.lt_of_lt_of_le (length_readAttribute_lt hr hch) (length_rest_skipSpace_le c)
  · obtain ⟨ch, r, hr, hch⟩ := exists_isNameChar (by simpa using _hend) _hsolidus
    exact Nat.lt_of_lt_of_le (length_readAttribute_lt hr hch) (length_rest_skipSpace_le c)

theorem length_readAttributes_le (c : Cursor) (kept : List Attribute) :
    (c.readAttributes kept).2.rest.length ≤ c.rest.length := by
  fun_induction readAttributes c kept with
  | case1 c kept h => exact length_rest_skipSpace_le c
  | case2 c kept h c' hs ih =>
    exact Nat.le_trans ih
      (Nat.le_of_lt (Nat.lt_of_lt_of_le (length_skipSolidus hs) (length_rest_skipSpace_le c)))
  | case3 c kept h hs next hd ih =>
    obtain ⟨ch, r, hr, hch⟩ := exists_isNameChar (by simpa using h) hs
    exact Nat.le_trans ih (Nat.le_of_lt
      (Nat.lt_of_lt_of_le (length_readAttribute_lt hr hch) (length_rest_skipSpace_le c)))
  | case4 c kept h hs next hd ih =>
    obtain ⟨ch, r, hr, hch⟩ := exists_isNameChar (by simpa using h) hs
    exact Nat.le_trans ih (Nat.le_of_lt
      (Nat.lt_of_lt_of_le (length_readAttribute_lt hr hch) (length_rest_skipSpace_le c)))

/-- Reads a tag from the first letter of its name through its closing bracket. -/
def readTag (c : Cursor) : Tag × Cursor :=
  let (name, c) := c.takeWhile isNameChar
  let (attributes, c) := c.readAttributes []
  let name := String.ofList name
  match c.rest with
  | [] => (⟨name, attributes, false⟩, c.report .eofInTag)
  | '/' :: '>' :: _ => (⟨name, attributes, true⟩, c.skip 2)
  | _ => (⟨name, attributes, false⟩, c.skip 1)

theorem length_readTag_le (c : Cursor) : c.readTag.2.rest.length ≤ c.rest.length := by
  have h := length_readAttributes_le (c.takeWhile isNameChar).2 []
  have h' := length_dropWhile_le isNameChar c.rest
  unfold readTag
  dsimp only
  split <;> simp at * <;> omega

end Cursor

end ComponentLoader.Markup
