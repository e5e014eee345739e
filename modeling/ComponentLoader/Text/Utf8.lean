/-!
UTF-8. Writing is exact; reading never fails: each maximal part that can begin no character becomes
one replacement character.
-/
namespace ComponentLoader.Text.Utf8

/-- The bytes of a text. -/
def encode (s : List Char) : List UInt8 := s.flatMap String.utf8EncodeChar

/-- How a first byte begins a character: the bits it holds, the number of bytes that follow, and
the bounds of the next of them. -/
structure Lead where
  bits : Nat
  more : Nat
  low : Nat
  high : Nat

/-- Reads a first byte. The bounds exclude overlong forms, surrogates and values past U+10FFFF. -/
def lead? (b : Nat) : Option Lead :=
  if b < 0x80 then some ⟨b, 0, 0, 0⟩
  else if b < 0xC2 then none
  else if b < 0xE0 then some ⟨b - 0xC0, 1, 0x80, 0xBF⟩
  else if b == 0xE0 then some ⟨0, 2, 0xA0, 0xBF⟩
  else if b == 0xED then some ⟨0xD, 2, 0x80, 0x9F⟩
  else if b < 0xF0 then some ⟨b - 0xE0, 2, 0x80, 0xBF⟩
  else if b == 0xF0 then some ⟨0, 3, 0x90, 0xBF⟩
  else if b < 0xF4 then some ⟨b - 0xF0, 3, 0x80, 0xBF⟩
  else if b == 0xF4 then some ⟨4, 3, 0x80, 0x8F⟩
  else none

/-- Reads the bytes that a first byte asks for, as far as they are in bounds. -/
def follow : (more low high bits : Nat) → List UInt8 → Option Nat × List UInt8
  | 0, _, _, bits, rest => (some bits, rest)
  | _ + 1, _, _, _, [] => (none, [])
  | more + 1, low, high, bits, b :: rest =>
    if low ≤ b.toNat && b.toNat ≤ high then
      follow more 0x80 0xBF (bits * 64 + (b.toNat - 0x80)) rest
    else (none, b :: rest)

theorem length_follow_le (more low high bits : Nat) (rest : List UInt8) :
    (follow more low high bits rest).2.length ≤ rest.length := by
  induction rest generalizing more low high bits with
  | nil => cases more <;> simp [follow]
  | cons b rest ih =>
    cases more with
    | zero => simp [follow]
    | succ more =>
      rw [follow]
      split
      · exact Nat.le_succ_of_le (ih ..)
      · simp

/-- What stands for bytes that are no character. -/
def replacement : Char := '\uFFFD'

/-- Reads one character, or one part that is none. -/
def next (b : UInt8) (rest : List UInt8) : Char × List UInt8 :=
  match lead? b.toNat with
  | none => (replacement, rest)
  | some lead =>
    let (value, rest) := follow lead.more lead.low lead.high lead.bits rest
    ((value.map Char.ofNat).getD replacement, rest)

theorem length_next_le (b : UInt8) (rest : List UInt8) :
    (next b rest).2.length ≤ rest.length := by
  unfold next
  split
  · exact Nat.le_refl _
  · exact length_follow_le ..

/-- The text that bytes stand for. -/
def decode : List UInt8 → List Char
  | [] => []
  | b :: rest => (next b rest).1 :: decode (next b rest).2
termination_by bytes => bytes.length
decreasing_by exact Nat.lt_succ_of_le (length_next_le b rest)

end ComponentLoader.Text.Utf8
