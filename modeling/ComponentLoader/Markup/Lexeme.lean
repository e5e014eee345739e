import ComponentLoader.Markup.Tag
import ComponentLoader.Markup.Comment

/-!
Reading a whole text as lexemes, whose spans follow each other from its beginning to its end.
-/
namespace ComponentLoader.Markup

/-- What is read next: everything, or the content of the element of the given name, which holds
interpolations and text, or text alone. -/
inductive Mode where
  | data
  | replaceable (element : String)
  | raw (element : String)
deriving DecidableEq, Repr

def Dialect.modeAfter (d : Dialect) (tag : Tag) : Mode :=
  if tag.selfClosing then .data
  else match d.content tag.name with
    | .data => .data
    | .replaceable => .replaceable tag.name
    | .raw => .raw tag.name

def Delimiters.openAt (d : Delimiters) (s : List Char) : Bool :=
  d.opening ≠ "" && Text.startsWith d.opening.toList s

/-- Whether text gives way to a tag or an interpolation at this character. -/
def Delimiters.stopsText (d : Delimiters) (c : Char) : Bool :=
  c == '<' || d.opening.toList.head? == some c

/-- Whether the end tag of the element stands here. Its name may differ in case and must not go
on. -/
def endTagAt (element : String) : List Char → Bool
  | '<' :: '/' :: s =>
    let n := element.length
    Text.sameIgnoringCase (String.ofList (s.take n)) element &&
      !(s.drop n).head?.any isNameChar
  | _ => false

/-- The text before the end tag of the element; all text where that is missing. -/
def beforeEndTag (element : String) : List Char → List Char
  | [] => []
  | c :: s => if endTagAt element (c :: s) then [] else c :: beforeEndTag element s

namespace Cursor

def readText (c : Cursor) (n : Nat) : Token × Cursor :=
  (.text (String.ofList (c.rest.take n)), c.skip n)

/-- Reads an interpolation, to the end of the text if nothing closes it. -/
def readInterpolation (c : Cursor) (d : Delimiters) : Token × Cursor :=
  let opening := d.opening.toList
  let closing := d.closing.toList
  match Text.splitOnce closing (c.rest.drop opening.length) with
  | some (inner, _) =>
    let n := opening.length + inner.length + closing.length
    (.interpolation (String.ofList (c.rest.take n)), c.skip n)
  | none =>
    (.interpolation (String.ofList c.rest),
      (c.skip c.rest.length).report .missingInterpolationEnd)

/-- Reads an end tag. Attributes and a solidus in it are faults. -/
def readEndTag (c : Cursor) : Token × Cursor :=
  let (tag, c) := (c.skip 2).readTag
  (.endTag tag.name,
    (c.reportIf (!tag.attributes.isEmpty) .endTagWithAttributes).reportIf tag.selfClosing
      .endTagWithTrailingSolidus)

def readEndTagOpen (c : Cursor) : Token × Cursor :=
  match c.rest.drop 2 with
  | [] => (c.report .eofBeforeTagName).readText 2
  | '>' :: _ => (.comment "", (c.report .missingEndTagName).skip 3)
  | ch :: _ =>
    if ch.isAlpha then c.readEndTag
    else (c.report .invalidFirstCharacterOfTagName).readBogusComment 2

def readStartTag (c : Cursor) (d : Dialect) : Token × Mode × Cursor :=
  let (tag, c) := (c.skip 1).readTag
  (.startTag tag, d.modeAfter tag, c)

/-- Reads from `<`. A bracket that begins nothing is text. -/
def readMarkup (c : Cursor) (d : Dialect) : Token × Mode × Cursor :=
  match c.rest with
  | '<' :: '/' :: _ => let (token, c) := c.readEndTagOpen; (token, .data, c)
  | '<' :: '!' :: _ => let (token, c) := c.readDeclaration; (token, .data, c)
  | '<' :: '?' :: _ =>
    let (token, c) := (c.report .unexpectedQuestionMarkInsteadOfTagName).readBogusComment 1
    (token, .data, c)
  | '<' :: ch :: _ =>
    if ch.isAlpha then c.readStartTag d
    else
      let (token, c) := (c.report .invalidFirstCharacterOfTagName).readText 1
      (token, .data, c)
  | _ => let (token, c) := (c.report .eofBeforeTagName).readText 1; (token, .data, c)

/-- Reads where everything may stand. A character that could begin an interpolation but does not
is text, together with what follows up to the next such character or bracket. -/
def readData (c : Cursor) (d : Dialect) : Token × Mode × Cursor :=
  let plain (s : List Char) := (s.takeWhile (!d.delimiters.stopsText ·)).length
  if 0 < plain c.rest then
    let (token, c) := c.readText (plain c.rest)
    (token, .data, c)
  else if d.delimiters.openAt c.rest then
    let (token, c) := c.readInterpolation d.delimiters
    (token, .data, c)
  else if c.rest.head? = some '<' then c.readMarkup d
  else
    let (token, c) := c.readText (1 + plain (c.rest.drop 1))
    (token, .data, c)

/-- Reads in an element that holds text alone. -/
def readRaw (c : Cursor) (d : Dialect) (element : String) : Token × Mode × Cursor :=
  let n := (beforeEndTag element c.rest).length
  if n = 0 then c.readData d
  else
    let (token, c) := c.readText n
    (token, .data, c)

/-- Reads in an element that holds interpolations and text. -/
def readReplaceable (c : Cursor) (d : Dialect) (element : String) : Token × Mode × Cursor :=
  if d.delimiters.openAt c.rest then
    let (token, c) := c.readInterpolation d.delimiters
    (token, .replaceable element, c)
  else
    let n := (beforeEndTag element c.rest).length
    if n = 0 then c.readData d
    else
      let interpolation :=
        if d.delimiters.opening = "" then none
        else Text.splitOnce d.delimiters.opening.toList c.rest
      match interpolation with
      | some (before, _) =>
        if before.length < n then
          let (token, c) := c.readText before.length
          (token, .replaceable element, c)
        else
          let (token, c) := c.readText n
          (token, .data, c)
      | none =>
        let (token, c) := c.readText n
        (token, .data, c)

def read (c : Cursor) (d : Dialect) : Mode → Token × Mode × Cursor
  | .data => c.readData d
  | .replaceable element => c.readReplaceable d element
  | .raw element => c.readRaw d element

/-! Every token takes at least one character. -/

theorem length_readText_lt {c : Cursor} {n : Nat} (h : 0 < c.rest.length) (hn : 0 < n) :
    (c.readText n).2.rest.length < c.rest.length := by
  simp [readText]
  omega

theorem length_readInterpolation_lt {c : Cursor} {d : Delimiters} (h : 0 < c.rest.length)
    (hd : d.openAt c.rest = true) : (c.readInterpolation d).2.rest.length < c.rest.length := by
  have hd : 0 < d.opening.toList.length := by
    simp only [Delimiters.openAt, Bool.and_eq_true, decide_eq_true_eq] at hd
    exact List.length_pos_iff.2 (by simpa using hd.1)
  unfold readInterpolation
  dsimp only
  split
  · simp only [rest_skip, List.length_drop]
    omega
  · simpa using h

theorem length_readEndTagOpen_lt {c : Cursor} (h : 1 < c.rest.length) :
    c.readEndTagOpen.2.rest.length < c.rest.length := by
  unfold readEndTagOpen
  split
  · exact length_readText_lt (c := c.report _) (Nat.lt_of_succ_lt h) (by decide)
  · simp
    omega
  · split
    · have := length_readTag_le (c.skip 2)
      simp [readEndTag] at *
      omega
    · exact length_readBogusComment_lt (c := c.report _) 2 (Nat.lt_of_succ_lt h)

theorem length_readMarkup_lt {c : Cursor} (d : Dialect) (h : 0 < c.rest.length) :
    (c.readMarkup d).2.2.rest.length < c.rest.length := by
  unfold readMarkup
  split
  · next hr => exact length_readEndTagOpen_lt (by simp [hr])
  · exact length_readDeclaration_lt h
  · exact length_readBogusComment_lt (c := c.report _) 1 h
  · split
    · have := length_readTag_le (c.skip 1)
      simp [readStartTag] at *
      omega
    · exact length_readText_lt (c := c.report _) h (by decide)
  · exact length_readText_lt (c := c.report _) h (by decide)

theorem length_readData_lt {c : Cursor} (d : Dialect) (h : 0 < c.rest.length) :
    (c.readData d).2.2.rest.length < c.rest.length := by
  unfold readData
  dsimp only
  split
  · next hn => exact length_readText_lt h hn
  · split
    · next hd => exact length_readInterpolation_lt h hd
    · split
      · exact length_readMarkup_lt d h
      · exact length_readText_lt h (by omega)

theorem length_readRaw_lt {c : Cursor} (d : Dialect) (element : String) (h : 0 < c.rest.length) :
    (c.readRaw d element).2.2.rest.length < c.rest.length := by
  unfold readRaw
  dsimp only
  split
  · exact length_readData_lt d h
  · exact length_readText_lt h (by omega)

theorem length_readReplaceable_lt {c : Cursor} (d : Dialect) (element : String)
    (h : 0 < c.rest.length) : (c.readReplaceable d element).2.2.rest.length < c.rest.length := by
  unfold readReplaceable
  dsimp only
  split
  · next hd => exact length_readInterpolation_lt h hd
  · next hd =>
    split
    · exact length_readData_lt d h
    · split
      · next before after hb =>
        have hb' : 0 < before.length := by
          split at hb
          · cases hb
          · next ho =>
            refine List.length_pos_iff.2 fun he => hd ?_
            have := Text.eq_of_splitOnce hb
            simp [Delimiters.openAt, Text.startsWith, ho, this, he]
        split
        · exact length_readText_lt h hb'
        · exact length_readText_lt h (by omega)
      · exact length_readText_lt h (by omega)

theorem length_read_lt {c : Cursor} (d : Dialect) (mode : Mode) (h : 0 < c.rest.length) :
    (c.read d mode).2.2.rest.length < c.rest.length := by
  cases mode with
  | data => exact length_readData_lt d h
  | replaceable element => exact length_readReplaceable_lt d element h
  | raw element => exact length_readRaw_lt d element h

end Cursor

def Dialect.lexemesFrom (d : Dialect) (mode : Mode) (position : Position) (s : List Char) :
    List Lexeme :=
  if _h : 0 < s.length then
    let next := (Cursor.mk s position [] false).read d mode
    ⟨next.1, ⟨position, next.2.2.position⟩, next.2.2.faults⟩ ::
      d.lexemesFrom next.2.1 next.2.2.position next.2.2.rest
  else []
termination_by s.length
decreasing_by exact Cursor.length_read_lt (c := ⟨s, position, [], false⟩) d mode _h

def Dialect.lexemes (d : Dialect) (source : String) : List Lexeme :=
  d.lexemesFrom .data .start source.toList

end ComponentLoader.Markup
