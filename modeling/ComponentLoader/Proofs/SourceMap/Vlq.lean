import Mathlib.Tactic.Ring
import ComponentLoader.SourceMap.Vlq

/-! Numbers in base 64 are read as they were written, one after the other, if they
leave a bit for their sign and one for the shift that makes room for it. Nothing
then leaves the 64 bits in which all of it takes place: reading and writing are
described in plain arithmetic, each step with the bounds of what it computes, and the
numbers that are cut to 64 bits are the same. Digits are no separators. -/
namespace ComponentLoader.Vlq

def Held (n : Int) : Prop := -2 ^ 63 ≤ n ∧ n < 2 ^ 63

/-- The number can be written in 64 bits with its sign in the lowest one. -/
def Fits (n : Int) : Prop := -2 ^ 62 < n ∧ n < 2 ^ 62

instance (n : Int) : Decidable (Fits n) := inferInstanceAs (Decidable (_ ∧ _))

theorem Held.wrap {n : Int} (h : Held n) : wrap n = n := by
  obtain ⟨low, high⟩ := h
  apply Int.bmod_eq_of_le
  · norm_num
    omega
  · norm_num
    omega

theorem held_natCast {n : Nat} (h : n < 2 ^ 63) : Held n := by
  constructor <;> omega

theorem Fits.wrap {n : Int} (h : Fits n) : wrap n = n := by
  obtain ⟨low, high⟩ := h
  apply Held.wrap
  constructor <;> omega

theorem fits_natCast {n : Nat} (h : n < 2 ^ 62) : Fits n := by
  constructor <;> omega

theorem value?_digit : ∀ n < 64, value? (digit n) = some n := by decide +kernel

theorem digit_mem_alphabet (n : Nat) : digit n ∈ alphabet := by
  unfold digit
  rw [List.getD_eq_getElem?_getD]
  cases found : alphabet[n]? with
  | none => decide
  | some c => exact List.mem_of_getElem? found

theorem mem_alphabet_of_mem_encodeNat {n : Nat} {c : Char} (h : c ∈ encodeNat n) :
    c ∈ alphabet := by
  fun_induction encodeNat n with
  | case1 n small =>
    obtain rfl := List.mem_singleton.mp h
    exact digit_mem_alphabet n
  | case2 n large ih =>
    rcases List.mem_cons.mp h with rfl | later
    · exact digit_mem_alphabet _
    · exact ih later

theorem encode_ne_nil (n : Int) : encode n ≠ [] := by
  unfold encode
  split
  · rw [encodeNat]
    split <;> exact List.cons_ne_nil _ _
  · exact List.cons_ne_nil _ _

/-- A number is written with digits only. -/
theorem mem_alphabet_of_mem_encode {n : Int} {c : Char} (h : c ∈ encode n) : c ∈ alphabet := by
  unfold encode at h
  split at h
  · exact mem_alphabet_of_mem_encodeNat h
  · obtain rfl := List.mem_singleton.mp h
    exact digit_mem_alphabet _

/-- The number without sign that stands for a number: its double, with the sign in the lowest bit.
Neither the negation nor the shift that is made on the way leaves 64 bits. -/
inductive Signed : Int → Nat → Prop
  | positive {n : Nat} (doubled : Held (2 * n)) : Signed n (2 * n)
  | negative {n : Nat} (some : 0 < n) (negated : Held n) (doubled : Held (2 * n)) :
      Signed (-n) (2 * n + 1)

/-- The number whose sign is in the lowest bit. -/
def signed (m : Nat) : Int := if m % 2 = 1 then -(m / 2 : Nat) else (m / 2 : Nat)

/-- Digits that are read as numbers, where the lowest `shift` bits of the first number are known.
No shift, no sum and no negation that is made on the way leaves 64 bits. -/
inductive Exact : (known shift : Nat) → List Char → List Int → Prop
  | done {known shift : Nat} : Exact known shift [] []
  | more {known shift v : Nat} {c : Char} {s : List Char} {ns : List Int} (digit : value? c = some v)
      (goesOn : 32 ≤ v) (narrow : shift < 64) (shifted : Held (v % 32 * 2 ^ shift : Nat))
      (summed : Held (known + v % 32 * 2 ^ shift : Nat))
      (rest : Exact (known + v % 32 * 2 ^ shift) (shift + 5) s ns) : Exact known shift (c :: s) ns
  | last {known shift v : Nat} {c : Char} {s : List Char} {ns : List Int} (digit : value? c = some v)
      (ends : v < 32) (narrow : shift < 64) (shifted : Held (v % 32 * 2 ^ shift : Nat))
      (summed : Held (known + v % 32 * 2 ^ shift : Nat))
      (negated : Held (-((known + v % 32 * 2 ^ shift) / 2 : Nat))) (rest : Exact 0 0 s ns) :
      Exact known shift (c :: s) (signed (known + v % 32 * 2 ^ shift) :: ns)

theorem Signed.encode {n : Int} {m : Nat} (h : Signed n m) : encode n = encodeNat m := by
  have same : withSign n = m := by
    cases h with
    | positive doubled =>
      rw [withSign, if_neg (by omega), doubled.wrap]
      rfl
    | @negative n some negated doubled =>
      rw [withSign, if_pos (by omega), Int.neg_neg, doubled.wrap]
      rfl
  rw [Vlq.encode, same]

theorem Held.withoutSign {m : Nat} (h : Held (-(m / 2 : Nat))) : withoutSign m = signed m := by
  have half : (m : Int) / 2 = (m / 2 : Nat) := rfl
  unfold Vlq.withoutSign signed
  rw [half, h.wrap]
  by_cases odd : m % 2 = 1
  · rw [if_pos odd, if_pos (by omega)]
  · rw [if_neg odd, if_neg (by omega)]

/-- Where nothing leaves 64 bits nothing is cut. -/
theorem Exact.decodeFrom {known shift : Nat} {s : List Char} {ns : List Int}
    (h : Exact known shift s ns) : decodeFrom known shift s = some ns := by
  have sum {known shift v : Nat} (narrow : shift < 64) (shifted : Held (v % 32 * 2 ^ shift : Nat))
      (summed : Held (known + v % 32 * 2 ^ shift : Nat)) :
      wrap (known + wrap ((v % 32) <<< (shift % 64) : Nat)) =
        (known + v % 32 * 2 ^ shift : Nat) := by
    rw [Nat.shiftLeft_eq, Nat.mod_eq_of_lt narrow, shifted.wrap, ← Int.natCast_add, summed.wrap]
  induction h with
  | done => rfl
  | more digit goesOn narrow shifted summed rest ih =>
    simp only [Vlq.decodeFrom, digit, sum narrow shifted summed, if_neg (Nat.not_lt.mpr goesOn), ih,
      Option.bind_eq_bind, Option.bind_some]
  | last digit ends narrow shifted summed negated rest ih =>
    have ih : Vlq.decodeFrom 0 0 _ = _ := ih
    simp only [Vlq.decodeFrom, digit, sum narrow shifted summed, if_pos ends, ih,
      negated.withoutSign, Option.bind_eq_bind, Option.bind_some, Option.map_some]

/-- The digits of a number without sign are read on top of the bits that are known. -/
theorem Exact.encodeNat {n known shift : Nat} {s : List Char} {ns : List Int} (rest : Exact 0 0 s ns)
    (fits : known + n * 2 ^ shift < 2 ^ 63) (narrow : shift < 64) :
    Exact known shift (encodeNat n ++ s) (signed (known + n * 2 ^ shift) :: ns) := by
  fun_induction Vlq.encodeNat n generalizing known shift with
  | case1 n small =>
    have low : n % 32 = n := Nat.mod_eq_of_lt small
    have digit : value? (digit n) = some n := value?_digit n (by omega)
    have held : known + n % 32 * 2 ^ shift < 2 ^ 63 := by rwa [low]
    have last : Exact known shift (Vlq.digit n :: s) (signed (known + n % 32 * 2 ^ shift) :: ns) := by
      apply Exact.last digit small narrow
      · exact held_natCast (by omega)
      · exact held_natCast (by omega)
      · constructor <;> omega
      · exact rest
    rw [low] at last
    exact last
  | case2 n large ih =>
    have lowest : (n % 32 + 32) % 32 = n % 32 := by omega
    have parts : known + n % 32 * 2 ^ shift + n / 32 * 2 ^ (shift + 5) = known + n * 2 ^ shift := by
      have whole : n % 32 + 32 * (n / 32) = n := Nat.mod_add_div n 32
      calc
        _ = known + (n % 32 + 32 * (n / 32)) * 2 ^ shift := by ring
        _ = known + n * 2 ^ shift := by rw [whole]
    -- there is a digit to come, so what it is shifted by is within the bound
    have within : shift + 5 < 64 := by
      have power : 2 ^ (shift + 5) < 2 ^ 63 :=
        calc
          2 ^ (shift + 5) ≤ n / 32 * 2 ^ (shift + 5) := Nat.le_mul_of_pos_left _ (by omega)
          _ ≤ known + n * 2 ^ shift := parts ▸ Nat.le_add_left _ _
          _ < 2 ^ 63 := fits
      have := (Nat.pow_lt_pow_iff_right (by decide : 1 < 2)).mp power
      omega
    have digit : value? (digit (n % 32 + 32)) = some (n % 32 + 32) := value?_digit _ (by omega)
    rw [← parts] at fits ⊢
    rw [List.cons_append]
    apply Exact.more digit (Nat.le_add_left 32 _) narrow
    · rw [lowest]
      exact held_natCast (by omega)
    · rw [lowest]
      exact held_natCast (by omega)
    · rw [lowest]
      exact ih fits within

theorem exists_signed {n : Int} (h : Fits n) :
    ∃ m : Nat, Signed n m ∧ m < 2 ^ 63 ∧ signed m = n := by
  obtain ⟨low, high⟩ := h
  rcases Int.lt_or_le n 0 with below | above
  · obtain ⟨k, rfl⟩ : ∃ k : Nat, n = -k := ⟨n.natAbs, by omega⟩
    refine ⟨2 * k + 1, .negative (by omega) ?_ ?_, by omega, ?_⟩
    · constructor <;> omega
    · constructor <;> omega
    · rw [signed, if_pos (by omega)]
      omega
  · obtain ⟨k, rfl⟩ := Int.eq_ofNat_of_zero_le above
    refine ⟨2 * k, .positive ?_, by omega, ?_⟩
    · constructor <;> omega
    · rw [signed, if_neg (by omega)]
      omega

/-- The digits of numbers are read as these numbers. -/
theorem exact_flatMap_encode {ns : List Int} (fits : ∀ n ∈ ns, Fits n) :
    Exact 0 0 (ns.flatMap encode) ns := by
  induction ns with
  | nil => exact .done
  | cons n ns ih =>
    obtain ⟨m, written, small, same⟩ := exists_signed (fits n List.mem_cons_self)
    have rest := ih fun k hk => fits k (List.mem_cons_of_mem n hk)
    have plain : 0 + m * 2 ^ 0 = m := by omega
    have first : Exact 0 0 (encodeNat m ++ ns.flatMap encode) (signed (0 + m * 2 ^ 0) :: ns) :=
      rest.encodeNat (by omega) (by decide)
    rw [plain, same] at first
    rw [List.flatMap_cons, written.encode]
    exact first

/-- Numbers are read back from their digits. -/
theorem decode_flatMap_encode {ns : List Int} (h : ∀ n ∈ ns, Fits n) :
    decode (ns.flatMap encode) = some ns :=
  (exact_flatMap_encode h).decodeFrom

/-- Numbers of less than 2 ^ 62 in absolute value are written and read back in 64 bits. Writing a
number neither negates nor shifts beyond them, and all that reading shifts, adds up and negates
stays within them, from the first digit to the last. Every digit is one of base 64, and none is
what separates segments or lines. -/
theorem numbers_round_trip {ns : List Int} (fits : ∀ n ∈ ns, Fits n) :
    (∀ n ∈ ns, ∃ m, Signed n m ∧ encode n = encodeNat m) ∧
      Exact 0 0 (ns.flatMap encode) ns ∧
      decode (ns.flatMap encode) = some ns ∧
      ∀ c ∈ ns.flatMap encode, c ∈ alphabet ∧ c ≠ ',' ∧ c ≠ ';' := by
  refine ⟨?_, exact_flatMap_encode fits, decode_flatMap_encode fits, ?_⟩
  · intro n hn
    obtain ⟨m, written, -, -⟩ := exists_signed (fits n hn)
    exact ⟨m, written, written.encode⟩
  · intro c hc
    obtain ⟨n, -, digit⟩ := List.mem_flatMap.mp hc
    have base : c ∈ alphabet := mem_alphabet_of_mem_encode digit
    refine ⟨base, ?_, ?_⟩
    · rintro rfl
      exact absurd base (by decide)
    · rintro rfl
      exact absurd base (by decide)

/-- The widest numbers of either sign take thirteen digits each. -/
theorem numbers_round_trip_widest :
    let ns : List Int := [2 ^ 62 - 1, -(2 ^ 62 - 1), 0, -1]
    let digits := "+///////////H////////////HAD".toList
    (∀ n ∈ ns, Fits n) ∧ ns.flatMap encode = digits ∧ Exact 0 0 digits ns ∧
      decode digits = some ns := by
  intro ns digits
  have fits : ∀ n ∈ ns, Fits n := by decide
  have written : ns.flatMap encode = digits := by decide +kernel
  obtain ⟨-, exact, read, -⟩ := numbers_round_trip fits
  rw [written] at exact read
  exact ⟨fits, written, exact, read⟩

end ComponentLoader.Vlq
