import ComponentLoader.Proofs.Text.Leftmost
import ComponentLoader.Proofs.Text.Utf8

/-! Texts that are read as bytes. A text is searched, split and measured in bytes, and to split it
within a character stops the program. Each of these does on the bytes of a text what its like does
on the characters, and every split whose place was found by a search falls between two of them. -/
namespace ComponentLoader.Text.Utf8

def byte (c : Char) : UInt8 := UInt8.ofNat c.toNat

def IsHigh (b : UInt8) : Prop := 0x80 ≤ b.toNat

/-- A byte that begins no character. -/
def Continues (b : UInt8) : Prop := 0x80 ≤ b.toNat ∧ b.toNat < 0xC0

instance : DecidablePred Continues := fun _ => inferInstanceAs (Decidable (_ ∧ _))

/-- There are `n` bytes, and no character goes on after them. -/
def IsBoundary (n : Nat) (bs : List UInt8) : Prop :=
  n ≤ bs.length ∧ ∀ b ∈ (bs.drop n).head?, ¬ Continues b

instance (n : Nat) (bs : List UInt8) : Decidable (IsBoundary n bs) :=
  inferInstanceAs (Decidable (_ ∧ _))

/-- What is left after `n` bytes, unless that stops the program. -/
def drop? (n : Nat) (bs : List UInt8) : Option (List UInt8) :=
  if IsBoundary n bs then some (bs.drop n) else none

def take? (n : Nat) (bs : List UInt8) : Option (List UInt8) :=
  if IsBoundary n bs then some (bs.take n) else none

def slice? (start stop : Nat) (bs : List UInt8) : Option (List UInt8) :=
  if start ≤ stop then (take? stop bs).bind (drop? start) else none

/-- The number of bytes before the leftmost occurrence of the pattern. -/
def find? (pattern : List UInt8) : List UInt8 → Option Nat
  | [] => if pattern.isEmpty then some 0 else none
  | b :: bs =>
    if pattern.isPrefixOf (b :: bs) then some 0 else (find? pattern bs).map (· + 1)

/-- The number of bytes before the first character that does not satisfy `p`. -/
def spanLength (p : Char → Bool) : List UInt8 → Nat
  | [] => 0
  | b :: bs =>
    if p (next b bs).1 then
      (b :: bs).length - (next b bs).2.length + spanLength p (next b bs).2
    else 0
termination_by bs => bs.length
decreasing_by exact Nat.lt_succ_of_le (length_next_le b bs)

def lower (b : UInt8) : UInt8 := if 0x41 ≤ b.toNat ∧ b.toNat ≤ 0x5A then b + 0x20 else b

def sameIgnoringCase (s t : List UInt8) : Bool := s.map lower == t.map lower

theorem byte_inj {c d : Char} (hc : c.toNat < 0x80) (hd : d.toNat < 0x80) :
    byte c = byte d ↔ c = d := by
  constructor
  · intro same
    have numbers := congrArg UInt8.toNat same
    rw [byte, byte, toNat_ofNat_lt (by omega), toNat_ofNat_lt (by omega)] at numbers
    exact Char.toNat_inj.mp numbers
  · rintro rfl
    rfl

theorem byte_ne_of_isHigh {b : UInt8} {c : Char} (high : IsHigh b) (hc : c.toNat < 0x80) :
    b ≠ byte c := by
  rintro rfl
  rw [IsHigh, byte, toNat_ofNat_lt (by omega)] at high
  omega

theorem ascii_of_isAlphanum {c : Char} (h : c.isAlphanum) : c.toNat < 0x80 := by
  have bounded {d : Char} (small : d.toNat < 0x80) (le : decide (c.val ≤ d.val) = true) :
      c.toNat < 0x80 :=
    Nat.lt_of_le_of_lt (UInt32.le_iff_toNat_le.mp (of_decide_eq_true le)) small
  rcases Bool.or_eq_true_iff.mp h with letter | digit
  · rcases Bool.or_eq_true_iff.mp letter with upper | lower
    · exact bounded (d := 'Z') (by decide) (decide_eq_true (of_decide_eq_true upper).2)
    · exact bounded (d := 'z') (by decide) (Bool.and_eq_true_iff.mp lower).2
  · exact bounded (d := '9') (by decide) (Bool.and_eq_true_iff.mp digit).2

theorem encodeChar_of_ascii {c : Char} (h : c.toNat < 0x80) :
    String.utf8EncodeChar c = [byte c] := by
  have small : c.val.toNat ≤ 127 := Nat.le_of_lt_succ h
  rw [String.utf8EncodeChar, if_pos small]
  rfl

theorem encodeChar_of_not_ascii {c : Char} (h : ¬ c.toNat < 0x80) :
    ∃ b bs, String.utf8EncodeChar c = b :: bs ∧ 0xC0 ≤ b.toNat ∧ ∀ b' ∈ bs, Continues b' := by
  have first {n : Nat} (low : 0xC0 ≤ n) (held : n < 0x100) : 0xC0 ≤ (UInt8.ofNat n).toNat := by
    rwa [toNat_ofNat_lt held]
  have other (n : Nat) : Continues (UInt8.ofNat (n % 64 + 0x80)) := by
    rw [Continues, toNat_ofNat_lt (by omega)]
    omega
  unfold String.utf8EncodeChar
  dsimp only
  have large : ¬ c.val.toNat ≤ 127 := fun small => h (Nat.lt_succ_of_le small)
  rw [if_neg large]
  split
  · refine ⟨_, _, rfl, first (by omega) (by omega), ?_⟩
    simp only [List.forall_mem_cons]
    exact ⟨other _, nofun⟩
  split
  · refine ⟨_, _, rfl, first (by omega) (by omega), ?_⟩
    simp only [List.forall_mem_cons]
    exact ⟨other _, other _, nofun⟩
  · refine ⟨_, _, rfl, first (by omega) (by omega), ?_⟩
    simp only [List.forall_mem_cons]
    exact ⟨other _, other _, other _, nofun⟩

theorem Continues.isHigh {b : UInt8} (h : Continues b) : IsHigh b := h.1

/-- A character has a first byte, and others that go on with it. -/
theorem exists_encodeChar (c : Char) :
    ∃ b bs, String.utf8EncodeChar c = b :: bs ∧ ¬ Continues b ∧ ∀ b' ∈ bs, Continues b' := by
  by_cases ascii : c.toNat < 0x80
  · refine ⟨byte c, [], encodeChar_of_ascii ascii, fun goesOn => ?_, nofun⟩
    have low := goesOn.1
    rw [byte, toNat_ofNat_lt (by omega)] at low
    omega
  · obtain ⟨b, bs, bytes, first, others⟩ := encodeChar_of_not_ascii ascii
    exact ⟨b, bs, bytes, fun goesOn => by have := goesOn.2; omega, others⟩

theorem encode_cons (c : Char) (s : List Char) :
    encode (c :: s) = String.utf8EncodeChar c ++ encode s := List.flatMap_cons

theorem encode_append (s t : List Char) : encode (s ++ t) = encode s ++ encode t :=
  List.flatMap_append

theorem encode_cons_ascii {c : Char} (h : c.toNat < 0x80) (s : List Char) :
    encode (c :: s) = byte c :: encode s := by
  rw [encode_cons, encodeChar_of_ascii h]
  rfl

theorem encode_ascii {s : List Char} (h : s.all (·.toNat < 0x80)) : encode s = s.map byte := by
  induction s with
  | nil => rfl
  | cons c s ih =>
    rw [List.all_cons, Bool.and_eq_true, decide_eq_true_eq] at h
    rw [encode_cons_ascii h.1, ih h.2]
    rfl

theorem length_encode (s : List Char) : (encode s).length = utf8Length s := by
  induction s with
  | nil => rfl
  | cons c s ih =>
    rw [encode_cons, List.length_append, String.length_utf8EncodeChar, ih, utf8Length]

theorem encode_eq_nil_iff {s : List Char} : encode s = [] ↔ s = [] := encode_inj (t := [])

theorem not_continues_head_encode (s : List Char) : ∀ b ∈ (encode s).head?, ¬ Continues b := by
  cases s with
  | nil => nofun
  | cons c s =>
    obtain ⟨b, bs, bytes, first, -⟩ := exists_encodeChar c
    rw [encode_cons, bytes]
    rintro b' same
    obtain rfl := Option.some.inj same
    exact first

/-- The first byte of a text is that of an ASCII character where the text begins with it. -/
theorem head?_encode {c : Char} (ascii : c.toNat < 0x80) (s : List Char) :
    (encode s).head? = some (byte c) ↔ s.head? = some c := by
  cases s with
  | nil => simp [encode]
  | cons d s =>
    rw [encode_cons]
    by_cases low : d.toNat < 0x80
    · simp [encodeChar_of_ascii low, byte_inj low ascii]
    · obtain ⟨b, bs, bytes, high, -⟩ := encodeChar_of_not_ascii low
      have other : d ≠ c := by
        rintro rfl
        exact low ascii
      have differs : b ≠ byte c := byte_ne_of_isHigh (Nat.le_trans (by decide) high) ascii
      simp [bytes, differs, other]

/-- One text begins with another where its bytes begin with those of the other. -/
theorem isPrefixOf_encode (p s : List Char) :
    (encode p).isPrefixOf (encode s) = startsWith p s := by
  rw [Bool.eq_iff_iff, List.isPrefixOf_iff_prefix, startsWith, Option.isSome_iff_exists]
  constructor
  · rintro ⟨rest, bytes⟩
    refine ⟨decode rest, stripStart_eq_some_iff.mpr ?_⟩
    rw [← decode_encode s, ← bytes, decode_encode_append]
  · rintro ⟨rest, found⟩
    rw [stripStart_eq_some_iff.mp found, encode_append]
    exact List.prefix_append ..

theorem isBoundary_encode (s t : List Char) : IsBoundary (encode s).length (encode (s ++ t)) := by
  rw [IsBoundary, encode_append, List.drop_left]
  exact ⟨by rw [List.length_append]; exact Nat.le_add_right .., not_continues_head_encode t⟩

@[simp] theorem drop?_encode (s t : List Char) :
    drop? (encode s).length (encode (s ++ t)) = some (encode t) := by
  rw [drop?, if_pos (isBoundary_encode s t), encode_append, List.drop_left]

@[simp] theorem take?_encode (s t : List Char) :
    take? (encode s).length (encode (s ++ t)) = some (encode s) := by
  rw [take?, if_pos (isBoundary_encode s t), encode_append, List.take_left]

theorem slice?_encode (s t u : List Char) :
    slice? (encode s).length (encode (s ++ t)).length (encode (s ++ t ++ u)) =
      some (encode t) := by
  have order : (encode s).length ≤ (encode (s ++ t)).length := by
    rw [encode_append, List.length_append]
    exact Nat.le_add_right ..
  rw [slice?, if_pos order, take?_encode, Option.bind_some, drop?_encode]

/-- A place at which the bytes of a text may be split is between two of its characters. -/
theorem exists_of_isBoundary {n : Nat} {s : List Char} (h : IsBoundary n (encode s)) :
    ∃ front back, s = front ++ back ∧ n = (encode front).length := by
  induction s generalizing n with
  | nil => exact ⟨[], [], rfl, Nat.le_zero.mp h.1⟩
  | cons c s ih =>
    obtain ⟨b, bs, bytes, -, others⟩ := exists_encodeChar c
    rw [encode_cons, bytes] at h
    obtain ⟨there, whole⟩ := h
    by_cases none : n = 0
    · exact ⟨[], c :: s, rfl, none⟩
    by_cases cut : n < (b :: bs).length
    · obtain ⟨m, rfl⟩ := Nat.exists_eq_succ_of_ne_zero none
      have within : m < bs.length := Nat.lt_of_succ_lt_succ cut
      have goesOn := whole bs[m] (by
        rw [List.cons_append, List.drop_succ_cons, List.head?_drop,
          List.getElem?_append_left within, List.getElem?_eq_getElem within]
        rfl)
      exact absurd (others _ (List.getElem_mem within)) goesOn
    · obtain ⟨m, rfl⟩ := Nat.exists_eq_add_of_le (Nat.le_of_not_lt cut)
      have further : IsBoundary m (encode s) := by
        rw [List.length_append] at there
        rw [List.drop_length_add_append] at whole
        exact ⟨by omega, whole⟩
      obtain ⟨front, back, rfl, rfl⟩ := ih further
      exact ⟨c :: front, back, rfl, by rw [encode_cons, bytes, List.length_append]⟩

/-- No occurrence begins within a character. -/
theorem find?_continues {c : Char} {p : List Char} {bs : List UInt8}
    (h : ∀ b ∈ bs, Continues b) (t : List UInt8) :
    find? (encode (c :: p)) (bs ++ t) = (find? (encode (c :: p)) t).map (· + bs.length) := by
  obtain ⟨first, others, bytes, lead, -⟩ := exists_encodeChar c
  induction bs with
  | nil => simp
  | cons b bs ih =>
    have differs : first ≠ b := by
      rintro rfl
      exact lead (h first List.mem_cons_self)
    have absent : (encode (c :: p)).isPrefixOf (b :: (bs ++ t)) = false := by
      rw [encode_cons, bytes, List.cons_append, List.isPrefixOf, beq_false_of_ne differs,
        Bool.false_and]
    rw [List.cons_append, find?, if_neg (by simp [absent]),
      ih fun b' hb => h b' (List.mem_cons_of_mem b hb), Option.map_map]
    exact congrArg (Option.map · _) (funext fun n => by simp; omega)

/-- The leftmost occurrence is the same in the bytes as in the text. -/
theorem find?_encode (p s : List Char) :
    find? (encode p) (encode s) = (splitOnce p s).map fun parts => (encode parts.1).length := by
  induction s with
  | nil =>
    cases p with
    | nil => rfl
    | cons c p =>
      obtain ⟨b, bs, bytes, -⟩ := exists_encodeChar c
      simp [bytes, encode, find?, splitOnce, stripStart]
  | cons c s ih =>
    obtain ⟨b, bs, bytes, -, others⟩ := exists_encodeChar c
    have same := isPrefixOf_encode p (c :: s)
    rw [encode_cons, bytes, List.cons_append] at same ⊢
    rw [find?, same]
    by_cases here : p <+: c :: s
    · obtain ⟨rest, parts⟩ := here
      rw [← parts, startsWith, stripStart_append, splitOnce_here]
      rfl
    · have absent : stripStart p (c :: s) = none := stripStart_eq_none_iff.mpr here
      have later : splitOnce p (c :: s) = _ := splitOnce_cons here
      rw [startsWith, absent, later, Option.isSome_none, if_neg Bool.false_ne_true]
      cases p with
      | nil => exact absurd List.nil_prefix here
      | cons d p =>
        rw [find?_continues others, ih, Option.map_map, Option.map_map, Option.map_map]
        refine congrArg (Option.map · _) (funext fun parts => ?_)
        simp only [Function.comp_apply, encode_cons, bytes, List.length_append, List.length_cons]
        omega

theorem spanLength_encode (p : Char → Bool) (s : List Char) :
    spanLength p (encode s) = (encode (s.takeWhile p)).length := by
  induction s with
  | nil => rw [encode, List.flatMap_nil, spanLength]; rfl
  | cons c s ih =>
    obtain ⟨b, bs, bytes, -⟩ := exists_encodeChar c
    rw [encode_cons, bytes, List.cons_append, spanLength, next_encodeChar bytes, ih,
      List.takeWhile_cons]
    by_cases holds : p c
    · rw [if_pos holds, if_pos holds, encode_cons, bytes, List.length_append, List.length_cons,
        List.length_append, List.length_cons]
      dsimp only
      omega
    · rw [if_neg holds, if_neg holds]
      rfl

theorem lower_of_isHigh {b : UInt8} (high : IsHigh b) : lower b = b :=
  if_neg fun letter => Nat.not_lt.mpr high (Nat.lt_of_le_of_lt letter.2 (by decide))

theorem encode_map_toLower (s : List Char) :
    encode (s.map Char.toLower) = (encode s).map lower := by
  have ascii : ∀ n < 128, String.utf8EncodeChar (Char.ofNat n).toLower =
      (String.utf8EncodeChar (Char.ofNat n)).map lower := by decide +kernel
  have one (c : Char) : String.utf8EncodeChar c.toLower = (String.utf8EncodeChar c).map lower := by
    by_cases low : c.toNat < 0x80
    · have known := ascii c.toNat low
      rwa [Char.ofNat_toNat] at known
    · have stays : c.toLower = c := by
        refine dif_neg fun letter => low ?_
        exact Nat.lt_of_le_of_lt (UInt32.le_iff_toNat_le.mp letter.2) (by decide)
      obtain ⟨b, bs, bytes, first, others⟩ := encodeChar_of_not_ascii low
      rw [stays, bytes, List.map_cons, lower_of_isHigh (Nat.le_trans (by decide) first),
        List.map_congr_left fun b' hb => lower_of_isHigh (others b' hb).isHigh, List.map_id']
  rw [encode, encode, List.flatMap_map, List.map_flatMap]
  exact congrArg (List.flatMap · s) (funext one)

theorem sameIgnoringCase_encode (s t : List Char) :
    sameIgnoringCase (encode s) (encode t) = (s.map Char.toLower == t.map Char.toLower) := by
  rw [Bool.eq_iff_iff, sameIgnoringCase, beq_iff_eq, beq_iff_eq, ← encode_map_toLower,
    ← encode_map_toLower, encode_inj]

end ComponentLoader.Text.Utf8
