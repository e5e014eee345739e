import ComponentLoader.Text.Utf8

/-! Reading the bytes of a text gives the text back. The bounds on the byte that
follows a first byte leave out no character, since no character is a surrogate or
past U+10FFFF. -/
namespace ComponentLoader.Text.Utf8

theorem lead?_two {q : Nat} (lower : 2 ≤ q) (upper : q < 32) :
    lead? (q + 0xC0) = some ⟨q, 1, 0x80, 0xBF⟩ := by
  unfold lead?
  rw [if_neg (by omega), if_neg (by omega), if_pos (by omega), Nat.add_sub_cancel]

theorem lead?_three {q : Nat} (upper : q < 16) :
    lead? (q + 0xE0) =
      some ⟨q, 2, if q = 0 then 0xA0 else 0x80, if q = 13 then 0x9F else 0xBF⟩ := by
  unfold lead?
  rw [if_neg (by omega), if_neg (by omega), if_neg (by omega)]
  by_cases first : q = 0
  · simp [first]
  by_cases surrogates : q = 13
  · simp [surrogates]
  rw [if_neg (by simpa using first), if_neg (by simpa using surrogates), if_pos (by omega),
    if_neg first, if_neg surrogates, Nat.add_sub_cancel]

theorem lead?_four {q : Nat} (upper : q < 5) :
    lead? (q + 0xF0) =
      some ⟨q, 3, if q = 0 then 0x90 else 0x80, if q = 4 then 0x8F else 0xBF⟩ := by
  unfold lead?
  rw [if_neg (by omega), if_neg (by omega), if_neg (by omega), if_neg (by simp), if_neg (by simp),
    if_neg (by omega)]
  by_cases first : q = 0
  · simp [first]
  by_cases last : q = 4
  · simp [last]
  rw [if_neg (by simpa using first), if_pos (by omega), if_neg first, if_neg last,
    Nat.add_sub_cancel]

theorem toNat_ofNat_lt {n : Nat} (h : n < 256) : (UInt8.ofNat n).toNat = n :=
  UInt8.toNat_ofNat_of_lt h

/-- A byte that follows holds the next six bits of the value. -/
theorem follow_succ {more low high bits n : Nat} {rest : List UInt8}
    (lower : low ≤ n % 64 + 0x80) (upper : n % 64 + 0x80 ≤ high) :
    follow (more + 1) low high bits (UInt8.ofNat (n % 64 + 0x80) :: rest) =
      follow more 0x80 0xBF (bits * 64 + n % 64) rest := by
  have byte : (UInt8.ofNat (n % 64 + 0x80)).toNat = n % 64 + 0x80 := toNat_ofNat_lt (by omega)
  rw [follow, byte, if_pos (by simp [lower, upper]), Nat.add_sub_cancel]

theorem next_eq {b : UInt8} {rest after : List UInt8} {bits more low high n : Nat}
    (first : lead? b.toNat = some ⟨bits, more, low, high⟩)
    (others : follow more low high bits rest = (some n, after)) :
    next b rest = (Char.ofNat n, after) := by
  simp [next, first, others]

/-- The bytes of a character are read as that character, whatever follows. -/
theorem next_encodeChar {c : Char} {b : UInt8} {bs : List UInt8}
    (bytes : String.utf8EncodeChar c = b :: bs) (rest : List UInt8) :
    next b (bs ++ rest) = (c, rest) := by
  have valid : c.val.toNat < 0xD800 ∨ 0xDFFF < c.val.toNat ∧ c.val.toNat < 0x110000 := c.valid
  have value : Char.ofNat c.val.toNat = c := Char.ofNat_toNat c
  unfold String.utf8EncodeChar at bytes
  dsimp only at bytes
  generalize c.val.toNat = n at *
  rw [← value]
  split at bytes
  · next one =>
    obtain ⟨rfl, rfl⟩ := List.cons.inj bytes
    have byte : (UInt8.ofNat n).toNat = n := toNat_ofNat_lt (by omega)
    have lead : lead? (UInt8.ofNat n).toNat = some ⟨n, 0, 0, 0⟩ := by
      rw [byte, lead?, if_pos (by omega)]
    exact next_eq lead rfl
  split at bytes
  · next two =>
    obtain ⟨rfl, rfl⟩ := List.cons.inj bytes
    have byte : (UInt8.ofNat (n / 64 % 32 + 0xC0)).toNat = n / 64 % 32 + 0xC0 :=
      toNat_ofNat_lt (by omega)
    refine next_eq (by rw [byte]; exact lead?_two (by omega) (by omega)) ?_
    rw [List.cons_append, follow_succ (by omega) (by omega)]
    exact congrArg (some · , rest) (by omega)
  split at bytes
  · next three =>
    obtain ⟨rfl, rfl⟩ := List.cons.inj bytes
    have byte : (UInt8.ofNat (n / 4096 % 16 + 0xE0)).toNat = n / 4096 % 16 + 0xE0 :=
      toNat_ofNat_lt (by omega)
    refine next_eq (by rw [byte]; exact lead?_three (by omega)) ?_
    rw [List.cons_append, follow_succ (by split <;> omega) (by split <;> omega), List.cons_append,
      follow_succ (by omega) (by omega)]
    exact congrArg (some · , rest) (by omega)
  · next four =>
    obtain ⟨rfl, rfl⟩ := List.cons.inj bytes
    have byte : (UInt8.ofNat (n / 262144 % 8 + 0xF0)).toNat = n / 262144 % 8 + 0xF0 :=
      toNat_ofNat_lt (by omega)
    refine next_eq (by rw [byte]; exact lead?_four (by omega)) ?_
    rw [List.cons_append, follow_succ (by split <;> omega) (by split <;> omega), List.cons_append,
      follow_succ (by omega) (by omega), List.cons_append, follow_succ (by omega) (by omega)]
    exact congrArg (some · , rest) (by omega)

/-- What follows the bytes of a text does not change how they are read. -/
theorem decode_encode_append (s : List Char) (rest : List UInt8) :
    decode (encode s ++ rest) = s ++ decode rest := by
  induction s with
  | nil => rfl
  | cons c s ih =>
    obtain ⟨b, bs, bytes⟩ := List.exists_cons_of_ne_nil (String.utf8EncodeChar_ne_nil (c := c))
    rw [encode, List.flatMap_cons, bytes, List.cons_append, List.cons_append, decode,
      List.append_assoc, next_encodeChar bytes]
    exact congrArg (c :: ·) ih

/-- The bytes of a text are read as that text. -/
theorem decode_encode (s : List Char) : decode (encode s) = s := by
  have read := decode_encode_append s []
  rwa [List.append_nil, decode, List.append_nil] at read

theorem encode_inj {s t : List Char} : encode s = encode t ↔ s = t := by
  constructor
  · intro same
    rw [← decode_encode s, same, decode_encode]
  · rintro rfl
    rfl

end ComponentLoader.Text.Utf8
