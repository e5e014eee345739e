/-!
Numbers in base 64 with variable length. A number is shifted left by one place, its sign is put
into the lowest bit, and five bits at a time are written from the lowest on; the sixth bit of a
digit says that more follow.

All of it takes place in 64 bits: sums and shifts wrap around.
-/
namespace ComponentLoader.Vlq

def alphabet : List Char :=
  "ABCDEFGHIJKLMNOPQRSTUVWXYZabcdefghijklmnopqrstuvwxyz0123456789+/".toList

def digit (n : Nat) : Char := alphabet.getD n 'A'

def value? (c : Char) : Option Nat := alphabet.findIdx? (· == c)

/-- The number of 64 bits that stands for an integer. -/
def wrap (n : Int) : Int := n.bmod 0x10000000000000000

/-- A number with its sign in the lowest bit. -/
def withSign (n : Int) : Int := if n < 0 then wrap (2 * -n) + 1 else wrap (2 * n)

/-- The digits of a number without sign, the lowest first. -/
def encodeNat (n : Nat) : List Char :=
  if n < 32 then [digit n] else digit (n % 32 + 32) :: encodeNat (n / 32)

/-- The digits of a number. One that wraps around to below zero has no last digit; its lowest is
given. -/
def encode (n : Int) : List Char :=
  match withSign n with
  | .ofNat n => encodeNat n
  | .negSucc m => [digit (Int.negSucc m % 32).toNat]

/-- The number whose lowest bit is its sign. -/
def withoutSign (n : Int) : Int := if n % 2 = 1 then wrap (-(n / 2)) else n / 2

/-- Reads numbers, of the first of which the lowest `shift` bits are known. A number whose last
digit says that more follow is left out. -/
def decodeFrom (known : Int) (shift : Nat) : List Char → Option (List Int)
  | [] => some []
  | c :: s => do
    let v ← value? c
    let n := wrap (known + wrap ((v % 32) <<< (shift % 64) : Nat))
    if v < 32 then (decodeFrom 0 0 s).map (withoutSign n :: ·)
    else decodeFrom n (shift + 5) s

/-- Reads the numbers of a text, if it holds digits only. -/
def decode (s : List Char) : Option (List Int) := decodeFrom 0 0 s

end ComponentLoader.Vlq
