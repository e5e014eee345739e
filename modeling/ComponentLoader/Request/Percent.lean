import ComponentLoader.Text.Utf8

/-!
Percent encoding of query values.
-/
namespace ComponentLoader.Percent

/-- Whether a byte of a value stands for itself: letters, digits, and the marks that keep paths
readable. -/
def isPlain (b : UInt8) : Bool :=
  let c := Char.ofNat b.toNat
  c.isAlphanum || c == '-' || c == '.' || c == '_' || c == '~' || c == '/'

def hexDigit (n : Nat) : Char := (Nat.digitChar n).toUpper

/-- One byte of a value. -/
def encodeByte (b : UInt8) : List Char :=
  if isPlain b then [Char.ofNat b.toNat]
  else ['%', hexDigit (b.toNat / 16), hexDigit (b.toNat % 16)]

def encode (s : List Char) : List Char := (Text.Utf8.encode s).flatMap encodeByte

def hexValue? (b : UInt8) : Option UInt8 :=
  if 0x30 ≤ b && b ≤ 0x39 then some (b - 0x30)
  else if 0x41 ≤ b && b ≤ 0x46 then some (b - 0x41 + 10)
  else if 0x61 ≤ b && b ≤ 0x66 then some (b - 0x61 + 10)
  else none

/-- The bytes of an encoding. A percent sign without two digits stands for itself. -/
def decodeBytes : List UInt8 → List UInt8
  | [] => []
  | 0x25 :: a :: b :: rest =>
    match hexValue? a, hexValue? b with
    | some high, some low => (high * 16 + low) :: decodeBytes rest
    | _, _ => 0x25 :: decodeBytes (a :: b :: rest)
  | b :: rest => b :: decodeBytes rest

/-- The value that is encoded. A plus sign stands for a space. -/
def decode (s : List Char) : List Char :=
  let spaced := s.map fun c => if c = '+' then ' ' else c
  Text.Utf8.decode (decodeBytes (Text.Utf8.encode spaced))

end ComponentLoader.Percent
