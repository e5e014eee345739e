/-!
Reading JSON texts strictly: no comments, no trailing commas, no leading mark, nothing after the
value.
-/
namespace ComponentLoader.Json

/-- A JSON value as it is read. A number is known only if it is written as a natural number, and a
string only if its escapes name whole characters. -/
inductive Input where
  | null
  | bool (value : Bool)
  | number (value : Option Nat)
  | string (value : Option String)
  | array (items : List Input)
  | object (members : List (Option String × Input))
deriving Inhabited

namespace Input

def skipSpace (s : List Char) : List Char :=
  s.dropWhile fun c => c == ' ' || c == '\n' || c == '\t' || c == '\r'

def hexDigit? (c : Char) : Option Nat :=
  let n := c.toNat
  if '0'.toNat ≤ n && n ≤ '9'.toNat then some (n - '0'.toNat)
  else if 'a'.toNat ≤ n && n ≤ 'f'.toNat then some (n - 'a'.toNat + 10)
  else if 'A'.toNat ≤ n && n ≤ 'F'.toNat then some (n - 'A'.toNat + 10)
  else none

def unit? (a b c d : Char) : Option Nat := do
  return (((← hexDigit? a) * 16 + (← hexDigit? b)) * 16 + (← hexDigit? c)) * 16 + (← hexDigit? d)

def escape? (c : Char) : Option Char :=
  [('"', '"'), ('\\', '\\'), ('/', '/'), ('b', '\x08'), ('f', '\x0c'), ('n', '\n'), ('r', '\r'),
    ('t', '\t')].lookup c

/-- The code units of a string: characters as they stand, and the units of its escapes. Ends after
the closing quote. -/
def units : List Char → Option (List (Char ⊕ Nat) × List Char)
  | '"' :: s => some ([], s)
  | '\\' :: 'u' :: a :: b :: c :: d :: s => do
    let unit ← unit? a b c d
    let (rest, s) ← units s
    return (.inr unit :: rest, s)
  | '\\' :: c :: s => do
    let c ← escape? c
    let (rest, s) ← units s
    return (.inl c :: rest, s)
  | c :: s => do
    guard (0x20 ≤ c.toNat && c != '\\')
    let (rest, s) ← units s
    return (.inl c :: rest, s)
  | [] => none

/-- The text of code units. Half of a surrogate pair is no text. -/
def textOfUnits : List (Char ⊕ Nat) → Option (List Char)
  | [] => some []
  | .inl c :: rest => (textOfUnits rest).map (c :: ·)
  | .inr unit :: rest =>
    if unit < 0xD800 || 0xE000 ≤ unit then (textOfUnits rest).map (Char.ofNat unit :: ·)
    else if unit < 0xDC00 then
      match rest with
      | .inr low :: rest =>
        if 0xDC00 ≤ low && low < 0xE000 then
          (textOfUnits rest).map
            (Char.ofNat (0x10000 + (unit - 0xD800) * 0x400 + (low - 0xDC00)) :: ·)
        else none
      | _ => none
    else none

/-- Reads a string after its opening quote. -/
def readString (s : List Char) : Option (Option String × List Char) :=
  (units s).map fun (us, s) => ((textOfUnits us).map String.ofList, s)

/-- Reads the digits of which there must be one. -/
def digits (s : List Char) : Option (List Char × List Char) :=
  let ds := s.takeWhile Char.isDigit
  if ds.isEmpty then none else some (ds, s.dropWhile Char.isDigit)

def numberOf (ds : List Char) : Nat := ds.foldl (fun n d => n * 10 + (d.toNat - '0'.toNat)) 0

/-- Reads the fraction and the exponent of a number, and tells whether there was one of them. -/
def readFraction (s : List Char) : Option (Bool × List Char) := do
  let (fraction, s) ←
    match s with
    | '.' :: s => (digits s).map fun (_, s) => (true, s)
    | s => some (false, s)
  let exponent (s : List Char) : Option (Bool × List Char) :=
    match s with
    | '+' :: s => (digits s).map fun (_, s) => (true, s)
    | '-' :: s => (digits s).map fun (_, s) => (true, s)
    | s => (digits s).map fun (_, s) => (true, s)
  match s with
  | 'e' :: s => exponent s
  | 'E' :: s => exponent s
  | s => some (fraction, s)

/-- Reads a number. No zero stands before other digits. -/
def readNumber (s : List Char) : Option (Option Nat × List Char) := do
  let (negative, s) := match s with
    | '-' :: s => (true, s)
    | s => (false, s)
  let (ds, s) ← digits s
  guard (ds.length = 1 || ds.head? != some '0')
  let (fraction, s) ← readFraction s
  return (if negative || fraction then none else some (numberOf ds), s)

mutual

/-- Reads a value, within a bound on the steps taken. -/
def readValue : (bound : Nat) → List Char → Option (Input × List Char)
  | 0, _ => none
  | bound + 1, s =>
    match skipSpace s with
    | 'n' :: 'u' :: 'l' :: 'l' :: s => some (.null, s)
    | 't' :: 'r' :: 'u' :: 'e' :: s => some (.bool true, s)
    | 'f' :: 'a' :: 'l' :: 's' :: 'e' :: s => some (.bool false, s)
    | '"' :: s => (readString s).map fun (value, s) => (.string value, s)
    | '[' :: s =>
      match skipSpace s with
      | ']' :: s => some (.array [], s)
      | s => (readItems bound s).map fun (items, s) => (.array items, s)
    | '{' :: s =>
      match skipSpace s with
      | '}' :: s => some (.object [], s)
      | s => (readMembers bound s).map fun (members, s) => (.object members, s)
    | s => (readNumber s).map fun (value, s) => (.number value, s)

/-- Reads the items of an array, of which there is one, and its closing bracket. -/
def readItems : (bound : Nat) → List Char → Option (List Input × List Char)
  | 0, _ => none
  | bound + 1, s => do
    let (item, s) ← readValue bound s
    match skipSpace s with
    | ',' :: s => (readItems bound s).map fun (items, s) => (item :: items, s)
    | ']' :: s => some ([item], s)
    | _ => none

/-- Reads the members of an object, of which there is one, and its closing brace. -/
def readMembers : (bound : Nat) → List Char → Option (List (Option String × Input) × List Char)
  | 0, _ => none
  | bound + 1, s => do
    let (key, s) ←
      match skipSpace s with
      | '"' :: s => readString s
      | _ => none
    let s ←
      match skipSpace s with
      | ':' :: s => some s
      | _ => none
    let (value, s) ← readValue bound s
    match skipSpace s with
    | ',' :: s => (readMembers bound s).map fun (members, s) => ((key, value) :: members, s)
    | '}' :: s => some ([(key, value)], s)
    | _ => none

end

/-- Reads a whole text. Every two steps take a character, so the bound is never met. -/
def parse (text : String) : Option Input := do
  let s := text.toList
  let (value, s) ← readValue (2 * s.length + 2) s
  guard (skipSpace s).isEmpty
  return value

def bool? : Input → Option Bool
  | bool value => some value
  | _ => none

def string? : Input → Option String
  | string value => value
  | _ => none

def number? : Input → Option Nat
  | number value => value
  | _ => none

def strings? : Input → Option (List String)
  | array items => items.mapM string?
  | _ => none

/-- The name that a value stands for: a string, or the only member of an object, whose value is
null. -/
def name? : Input → Option String
  | string value => value
  | object [(key, null)] => key
  | _ => none

/-- The values of a record by the names of its fields: the members of an object, or the items of an
array in the order of the fields, whose last may be missing. No field may be there twice. Members of
other names are refused in a closed record. -/
def fields? (names : List String) (closed : Bool) : Input → Option (List (Option Input))
  | object members => do
    let known ← members.filterMapM fun (key, value) => do
      let key ← key
      if names.contains key then return some (key, value)
      else if closed then none
      else return none
    guard (known.map (·.1)).Nodup
    return names.map fun name => List.lookup name known
  | array items => do
    guard (items.length ≤ names.length)
    return items.map some ++ List.replicate (names.length - items.length) none
  | _ => none

end Input

end ComponentLoader.Json
