import ComponentLoader.Text.Basic

/-!
Which texts stand for numbers where no quotes say otherwise.
-/
namespace ComponentLoader.Yaml

def digit? (radix : Nat) (c : Char) : Option Nat :=
  let value :=
    if '0' ≤ c ∧ c ≤ '9' then some (c.toNat - '0'.toNat)
    else if 'a' ≤ c.toLower ∧ c.toLower ≤ 'f' then some (c.toLower.toNat - 'a'.toNat + 10)
    else none
  value.filter (· < radix)

def numeral? (radix : Nat) : List Char → Option Nat
  | [] => none
  | digits => digits.foldlM (fun n c => (digit? radix c).map (radix * n + ·)) 0

/-- Whether a text is a number in hexadecimal, octal or binary digits that fits in 128 bits. -/
def isRadixInteger (s : List Char) : Bool :=
  let (magnitude, largest) :=
    match s with
    | '-' :: rest => (rest, Nat.pow 2 127)
    | '+' :: rest => (rest, Nat.pow 2 128 - 1)
    | _ => (s, Nat.pow 2 128 - 1)
  match magnitude with
  | '0' :: 'x' :: digits => (numeral? 16 digits).any (· ≤ largest)
  | '0' :: 'o' :: digits => (numeral? 8 digits).any (· ≤ largest)
  | '0' :: 'b' :: digits => (numeral? 2 digits).any (· ≤ largest)
  | _ => false

/-- A text without the sign that it may begin with. -/
def dropSign : List Char → List Char
  | '+' :: rest => rest
  | '-' :: rest => rest
  | s => s

/-- The exponent of a decimal, zero if none is written. -/
def exponent? : List Char → Option Int
  | [] => some 0
  | 'e' :: rest => written rest
  | 'E' :: rest => written rest
  | _ => none
where
  /-- The exponent after its letter. -/
  written : List Char → Option Int
    | '-' :: digits => (numeral? 10 digits).map fun n => -n
    | '+' :: digits => (numeral? 10 digits).map fun n => n
    | digits => (numeral? 10 digits).map fun n => n

/-- The least magnitude that is rounded to infinity in 64 bits. -/
def infinite : Nat := Nat.pow 2 1024 - Nat.pow 2 970

/-- Whether `mantissa * 10 ^ exponent` is rounded to a finite number, for a mantissa of at most the
given number of digits. No power is taken beyond those that can matter. -/
def isFinite (mantissa digits : Nat) : Int → Bool
  | .ofNat e => mantissa * Nat.pow 10 (min e 400) < infinite
  | .negSucc e => mantissa < infinite * Nat.pow 10 (min (e + 1) digits)

/-- Whether a text is a finite decimal without a sign: digits, perhaps with a point among them, and
perhaps an exponent. -/
def isDecimal (s : List Char) : Bool :=
  let whole := s.takeWhile Char.isDigit
  let rest := s.dropWhile Char.isDigit
  let (fraction, rest) :=
    match rest with
    | '.' :: rest => (rest.takeWhile Char.isDigit, rest.dropWhile Char.isDigit)
    | _ => ([], rest)
  match numeral? 10 (whole ++ fraction), exponent? rest with
  | some mantissa, some exponent =>
    isFinite mantissa (whole ++ fraction).length (exponent - fraction.length)
  | _, _ => false

/-- Whether a text is a name for infinity or for what is no number. -/
def isSpecialNumber (s : String) : Bool :=
  [".inf", ".Inf", ".INF", "+.inf", "+.Inf", "+.INF", "-.inf", "-.Inf", "-.INF", ".nan", ".NaN",
   ".NAN"].contains s

/-- Whether a text is digits of which the first of several is a zero. -/
def isZeroPadded (s : List Char) : Bool :=
  match dropSign s with
  | '0' :: digits => !digits.isEmpty && digits.all Char.isDigit
  | _ => false

def looksNumeric (s : String) : Bool :=
  isRadixInteger s.toList || isDecimal (dropSign s.toList) || isSpecialNumber s ||
    isZeroPadded s.toList

end ComponentLoader.Yaml
