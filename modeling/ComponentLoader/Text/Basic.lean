/-!
Texts as lists of characters: what begins or ends with what, leftmost splitting, and the two
lengths in which other programs count (UTF-8 bytes and UTF-16 units).
-/
namespace ComponentLoader.Text

/-- What follows `p` in a text that begins with `p`. -/
def stripStart : List Char → List Char → Option (List Char)
  | [], s => some s
  | _ :: _, [] => none
  | p :: ps, c :: cs => if p = c then stripStart ps cs else none

theorem stripStart_eq_some_iff {p s r : List Char} : stripStart p s = some r ↔ s = p ++ r := by
  induction p generalizing s with
  | nil => simp [stripStart, eq_comm]
  | cons a p ih =>
    cases s with
    | nil => simp [stripStart]
    | cons c s =>
      by_cases h : a = c
      · simp [stripStart, h, ih]
      · simp [stripStart, h, Ne.symm h]

@[simp] theorem stripStart_append (p r : List Char) : stripStart p (p ++ r) = some r :=
  stripStart_eq_some_iff.2 rfl

/-- What precedes `p` in a text that ends with `p`. -/
def stripEnd (p s : List Char) : Option (List Char) :=
  (stripStart p.reverse s.reverse).map List.reverse

theorem stripEnd_eq_some_iff {p s r : List Char} : stripEnd p s = some r ↔ s = r ++ p := by
  simp only [stripEnd, Option.map_eq_some_iff, stripStart_eq_some_iff]
  constructor
  · rintro ⟨t, ht, rfl⟩
    simpa using congrArg List.reverse ht
  · rintro rfl
    exact ⟨r.reverse, by simp, by simp⟩

/-- Whether `s` begins with `p`. -/
def startsWith (p s : List Char) : Bool := (stripStart p s).isSome

/-- The text before and the text after the leftmost occurrence of `sep`. -/
def splitOnce (sep s : List Char) : Option (List Char × List Char) :=
  match stripStart sep s with
  | some rest => some ([], rest)
  | none =>
    match s with
    | [] => none
    | c :: cs => (splitOnce sep cs).map fun (before, after) => (c :: before, after)

theorem eq_of_splitOnce {sep s a b : List Char} (h : splitOnce sep s = some (a, b)) :
    s = a ++ sep ++ b := by
  induction s generalizing a with
  | nil =>
    rw [splitOnce] at h
    split at h
    · next rest hr =>
      cases h
      simpa using stripStart_eq_some_iff.1 hr
    · simp at h
  | cons c s ih =>
    rw [splitOnce] at h
    split at h
    · next rest hr =>
      cases h
      simpa using stripStart_eq_some_iff.1 hr
    · obtain ⟨⟨x, y⟩, hxy, he⟩ := Option.map_eq_some_iff.1 h
      cases he
      simp [ih hxy]

/-- The parts of a text between the occurrences of one character; never empty. -/
def splitOn (sep : Char) : List Char → List (List Char)
  | [] => [[]]
  | c :: cs =>
    match splitOn sep cs with
    | [] => [[]]
    | part :: parts => if c = sep then [] :: part :: parts else (c :: part) :: parts

/-- Equality of texts up to the case of ASCII letters. -/
def sameIgnoringCase (s t : String) : Bool :=
  s.toList.map Char.toLower == t.toList.map Char.toLower

/-- The length of a text in UTF-8 bytes. -/
def utf8Length : List Char → Nat
  | [] => 0
  | c :: s => c.utf8Size + utf8Length s

/-- The length of a text in UTF-16 code units. -/
def utf16Length : List Char → Nat
  | [] => 0
  | c :: s => (if c.toNat < 0x10000 then 1 else 2) + utf16Length s

@[simp] theorem utf8Length_append (s t : List Char) :
    utf8Length (s ++ t) = utf8Length s + utf8Length t := by
  induction s with
  | nil => simp [utf8Length]
  | cons c s ih => rw [List.cons_append, utf8Length, utf8Length, ih, Nat.add_assoc]

/-- What is left of a text after its first `n` bytes, none of whose characters is cut. -/
def dropBytes : Nat → List Char → List Char
  | 0, s => s
  | _ + 1, [] => []
  | n + 1, c :: cs => dropBytes (n + 1 - c.utf8Size) cs

/-- The characters that begin in the first `n` bytes of a text. -/
def takeBytes : Nat → List Char → List Char
  | 0, _ => []
  | _ + 1, [] => []
  | n + 1, c :: cs => c :: takeBytes (n + 1 - c.utf8Size) cs

/-- The part of a text from byte `start` up to byte `stop`. -/
def slice (s : String) (start stop : Nat) : String :=
  String.ofList (takeBytes (stop - start) (dropBytes start s.toList))

theorem dropBytes_append (s t : List Char) : dropBytes (utf8Length s) (s ++ t) = t := by
  induction s with
  | nil => simp [utf8Length, dropBytes]
  | cons c s ih =>
    have hc := Char.utf8Size_pos c
    have h : utf8Length (c :: s) = (c.utf8Size - 1 + utf8Length s) + 1 := by
      rw [utf8Length]
      omega
    rw [h, List.cons_append, dropBytes]
    rw [show c.utf8Size - 1 + utf8Length s + 1 - c.utf8Size = utf8Length s by omega]
    exact ih

theorem takeBytes_append (s t : List Char) : takeBytes (utf8Length s) (s ++ t) = s := by
  induction s with
  | nil => simp [utf8Length, takeBytes]
  | cons c s ih =>
    have hc := Char.utf8Size_pos c
    have h : utf8Length (c :: s) = (c.utf8Size - 1 + utf8Length s) + 1 := by
      rw [utf8Length]
      omega
    rw [h, List.cons_append, takeBytes]
    rw [show c.utf8Size - 1 + utf8Length s + 1 - c.utf8Size = utf8Length s by omega]
    rw [ih]

end ComponentLoader.Text
