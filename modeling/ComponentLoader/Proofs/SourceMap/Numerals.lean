import ComponentLoader.Proofs.SourceMap.Vlq
import Mathlib.Data.List.SplitBy
import Mathlib.Data.List.TakeWhile
import Mathlib.Data.Nat.Digits.Defs

/-! What any digits at all are read as. Digits fall into numerals, each up to the first digit that
says that no more follow; of the last one that digit may be missing, and then it counts for nothing.
A numeral is read as the number that it stands for if it has at most thirteen digits and that number
leaves the sign bit free, and there is no other way to stay within 64 bits. -/
namespace ComponentLoader.Vlq

/-- The digit says that more follow. -/
def goesOn (c : Char) : Bool := (value? c).any (32 ≤ ·)

def bits (c : Char) : Nat := (value? c).getD 0 % 32

def numerals (s : List Char) : List (List Char) := s.splitBy fun c _ => goesOn c

def ended (g : List Char) : Bool := g.getLast?.any (!goesOn ·)

def magnitude (g : List Char) : Nat := Nat.ofDigits 32 (g.map bits)

/-- The numeral stays within 64 bits. -/
def Short (g : List Char) : Prop := g.length ≤ 13 ∧ magnitude g < 2 ^ 63

/-- The sum of digits each shifted by five more than the one before, where a shift by 64 is none. -/
def rotated (shift : Nat) : List Char → Nat
  | [] => 0
  | c :: g => bits c <<< (shift % 64) + rotated (shift + 5) g

def number (g : List Char) : Int := withoutSign (wrap (rotated 0 g))

def Digits (s : List Char) : Prop := ∀ c ∈ s, c ∈ alphabet

instance (s : List Char) : Decidable (Digits s) :=
  inferInstanceAs (Decidable (∀ c ∈ s, c ∈ alphabet))

variable {c : Char} {g s : List Char} {known : Int} {shift : Nat}

theorem value?_eq_none_iff : value? c = none ↔ c ∉ alphabet := by
  rw [value?, List.findIdx?_eq_none_iff]
  constructor
  · intro h mem
    cases beq_self_eq_true c ▸ h c mem
  · intro absent d mem
    exact beq_false_of_ne fun same => absent (same ▸ mem)

/-- A digit has a value, which says whether more follow and what its bits are. -/
theorem exists_value? (h : c ∈ alphabet) :
    ∃ v, value? c = some v ∧ bits c = v % 32 ∧ goesOn c = decide (32 ≤ v) := by
  have there : value? c ≠ none := fun none => value?_eq_none_iff.mp none h
  obtain ⟨v, read⟩ := Option.ne_none_iff_exists'.mp there
  refine ⟨v, read, ?_, ?_⟩
  · rw [bits, read, Option.getD_some]
  · rw [goesOn, read, Option.any_some]

theorem decodeFrom_foreign (h : c ∉ alphabet) : decodeFrom known shift (c :: s) = none := by
  rw [decodeFrom, value?_eq_none_iff.mpr h]
  rfl

theorem decodeFrom_goesOn (digit : c ∈ alphabet) (more : goesOn c = true) :
    decodeFrom known shift (c :: s) =
      decodeFrom (wrap (known + wrap (bits c <<< (shift % 64) : Nat))) (shift + 5) s := by
  obtain ⟨v, read, low, goes⟩ := exists_value? digit
  have large : ¬ v < 32 := Nat.not_lt.mpr (of_decide_eq_true (goes ▸ more))
  rw [decodeFrom, read, low]
  exact if_neg large

theorem decodeFrom_ends (digit : c ∈ alphabet) (last : goesOn c = false) :
    decodeFrom known shift (c :: s) = (decodeFrom 0 0 s).map
      (withoutSign (wrap (known + wrap (bits c <<< (shift % 64) : Nat))) :: ·) := by
  obtain ⟨v, read, low, goes⟩ := exists_value? digit
  have small : v < 32 := Nat.lt_of_not_le (of_decide_eq_false (goes ▸ last))
  rw [decodeFrom, read, low]
  exact if_pos small

/-- Nothing but a character that is no digit keeps a text from being read. -/
theorem decodeFrom_eq_none_iff : decodeFrom known shift s = none ↔ ¬ Digits s := by
  induction s generalizing known shift with
  | nil => simp [decodeFrom, Digits]
  | cons c s ih =>
    rw [Digits, List.forall_mem_cons]
    by_cases digit : c ∈ alphabet
    · cases more : goesOn c with
      | true => rw [decodeFrom_goesOn digit more, ih, Digits, and_iff_right digit]
      | false =>
        rw [decodeFrom_ends digit more, Option.map_eq_none_iff, ih, Digits, and_iff_right digit]
    · rw [decodeFrom_foreign digit]
      exact iff_of_true rfl fun h => digit h.1

/-- Digits are a numeral that never ends or, up to one that ends, a numeral and further digits. -/
theorem numeral_induction {motive : List Char → Prop}
    (unfinished : ∀ g, (∀ c ∈ g, goesOn c = true) → motive g)
    (whole : ∀ g c s, (∀ d ∈ g, goesOn d = true) → goesOn c = false → motive s →
      motive (g ++ c :: s)) (s : List Char) : motive s := by
  have parts : s.takeWhile goesOn ++ s.dropWhile goesOn = s := List.takeWhile_append_dropWhile
  have start : ∀ c ∈ s.takeWhile goesOn, goesOn c = true := fun c mem => List.mem_takeWhile_imp mem
  have stops := List.head?_dropWhile_not goesOn s
  cases rest : s.dropWhile goesOn with
  | nil =>
    rw [rest, List.append_nil] at parts
    exact parts ▸ unfinished _ start
  | cons c t =>
    rw [rest] at parts stops
    have shorter : t.length < s.length := by
      rw [← parts, List.length_append, List.length_cons]
      omega
    exact parts ▸ whole _ c t start (by simpa using stops) (numeral_induction unfinished whole t)
termination_by s.length

theorem isChain_goesOn (more : ∀ d ∈ g, goesOn d = true) (c : Char) :
    (g ++ [c]).IsChain fun d _ => goesOn d = true := by
  induction g with
  | nil => exact List.isChain_singleton c
  | cons d g ih =>
    obtain ⟨first, later⟩ := List.forall_mem_cons.mp more
    exact List.isChain_cons.mpr ⟨fun _ _ => first, ih later⟩

theorem numerals_unfinished (there : g ≠ []) (more : ∀ d ∈ g, goesOn d = true) :
    numerals g = [g] := by
  obtain ⟨h, c, rfl⟩ := (List.eq_nil_or_concat' g).resolve_left there
  exact List.splitBy_of_isChain there
    (isChain_goesOn (fun d mem => more d (List.mem_append_left _ mem)) c)

theorem numerals_append (more : ∀ d ∈ g, goesOn d = true) (last : goesOn c = false) :
    numerals (g ++ c :: s) = (g ++ [c]) :: numerals s := by
  have cut : ∀ x ∈ (g ++ [c]).getLast?, ∀ y ∈ s.head?, goesOn x = false := by
    intro x mem _ _
    rw [List.getLast?_concat] at mem
    exact Option.mem_some_iff.mp mem ▸ last
  have one : (g ++ [c]).splitBy (fun d _ => goesOn d) = [g ++ [c]] :=
    List.splitBy_of_isChain (by simp) (isChain_goesOn more c)
  rw [List.append_cons, numerals, List.splitBy_append cut, one]
  rfl

theorem ended_concat (g : List Char) (last : goesOn c = false) : ended (g ++ [c]) = true := by
  rw [ended, List.getLast?_concat, Option.any_some, last]
  rfl

theorem ended_unfinished (more : ∀ d ∈ g, goesOn d = true) : ended g = false := by
  rw [ended]
  cases last : g.getLast? with
  | none => rfl
  | some c => rw [Option.any_some, more c (List.mem_of_getLast? last), Bool.not_true]

def endedNumerals (s : List Char) : List (List Char) := (numerals s).filter ended

theorem endedNumerals_unfinished (more : ∀ d ∈ g, goesOn d = true) : endedNumerals g = [] := by
  by_cases there : g = []
  · exact there ▸ rfl
  · rw [endedNumerals, numerals_unfinished there more]
    exact List.filter_cons_of_neg (by simp [ended_unfinished more])

theorem endedNumerals_append (more : ∀ d ∈ g, goesOn d = true) (last : goesOn c = false) :
    endedNumerals (g ++ c :: s) = (g ++ [c]) :: endedNumerals s := by
  rw [endedNumerals, numerals_append more last, List.filter_cons_of_pos (ended_concat g last)]
  rfl

/-- What is known of a number and what its digits add are put together in 64 bits. -/
theorem wrap_known_add (known : Int) (a b : Nat) :
    wrap (wrap (known + wrap a) + b) = wrap (known + (a + b : Nat)) := by
  simp only [wrap, Int.bmod_add_bmod, Int.add_bmod_bmod]
  rw [Int.natCast_add, Int.add_assoc]

/-- Digits that all go on add to what is known of the number. -/
theorem decodeFrom_numeral (digits : Digits g) (more : ∀ d ∈ g, goesOn d = true)
    (digit : c ∈ alphabet) (last : goesOn c = false) :
    decodeFrom known shift (g ++ c :: s) = (decodeFrom 0 0 s).map
      (withoutSign (wrap (known + rotated shift (g ++ [c]))) :: ·) := by
  induction g generalizing known shift with
  | nil =>
    rw [List.nil_append, decodeFrom_ends digit last, wrap, wrap, Int.add_bmod_bmod]
    rfl
  | cons d g ih =>
    obtain ⟨first, later⟩ := List.forall_mem_cons.mp more
    obtain ⟨head, tail⟩ := List.forall_mem_cons.mp digits
    rw [List.cons_append, decodeFrom_goesOn head first, ih tail later, wrap_known_add]
    rfl

theorem decodeFrom_unfinished (digits : Digits g) (more : ∀ d ∈ g, goesOn d = true) :
    decodeFrom known shift g = some [] := by
  induction g generalizing known shift with
  | nil => rfl
  | cons d g ih =>
    obtain ⟨first, later⟩ := List.forall_mem_cons.mp more
    obtain ⟨head, tail⟩ := List.forall_mem_cons.mp digits
    rw [decodeFrom_goesOn head first, ih tail later]

/-- Digits are read numeral by numeral, except for one that does not end. -/
theorem decode_digits (digits : Digits s) : decode s = some ((endedNumerals s).map number) := by
  induction s using numeral_induction with
  | unfinished g more =>
    rw [decode, decodeFrom_unfinished digits more, endedNumerals_unfinished more]
    rfl
  | whole g c s more last ih =>
    obtain ⟨first, digit, later⟩ : Digits g ∧ c ∈ alphabet ∧ Digits s := by
      simpa [Digits, or_imp, forall_and] using digits
    have rest : decodeFrom 0 0 s = some ((endedNumerals s).map number) := ih later
    rw [decode, decodeFrom_numeral first more digit last, rest, endedNumerals_append more last,
      List.map_cons, number, Int.zero_add]
    rfl

theorem held_natCast_iff {n : Nat} : Held n ↔ n < 2 ^ 63 := by
  refine ⟨fun h => ?_, held_natCast⟩
  have := h.2
  omega

variable {base : Nat} {ns : List Int}

theorem exact_goesOn_iff (digit : c ∈ alphabet) (more : goesOn c = true) :
    Exact base shift (c :: s) ns ↔ shift < 64 ∧ base + bits c * 2 ^ shift < 2 ^ 63 ∧
      Exact (base + bits c * 2 ^ shift) (shift + 5) s ns := by
  obtain ⟨v, read, low, goes⟩ := exists_value? digit
  have large : 32 ≤ v := of_decide_eq_true (goes ▸ more)
  rw [low]
  constructor
  · intro exact
    cases exact with
    | more digit' _ narrow _ summed rest =>
      cases read.symm.trans digit'
      exact ⟨narrow, held_natCast_iff.mp summed, rest⟩
    | last digit' small =>
      cases read.symm.trans digit'
      omega
  · rintro ⟨narrow, bound, rest⟩
    exact .more read large narrow (held_natCast (by omega)) (held_natCast bound) rest

theorem exact_ends_iff (digit : c ∈ alphabet) (last : goesOn c = false) :
    Exact base shift (c :: s) ns ↔ shift < 64 ∧ base + bits c * 2 ^ shift < 2 ^ 63 ∧
      ∃ rest, ns = signed (base + bits c * 2 ^ shift) :: rest ∧ Exact 0 0 s rest := by
  obtain ⟨v, read, low, goes⟩ := exists_value? digit
  have small : v < 32 := Nat.lt_of_not_le (of_decide_eq_false (goes ▸ last))
  rw [low]
  constructor
  · intro exact
    cases exact with
    | more digit' large =>
      cases read.symm.trans digit'
      omega
    | last digit' _ narrow _ summed _ rest =>
      cases read.symm.trans digit'
      exact ⟨narrow, held_natCast_iff.mp summed, _, rfl, rest⟩
  · rintro ⟨narrow, bound, rest, rfl, exact⟩
    exact .last read small narrow (held_natCast (by omega)) (held_natCast bound)
      (by constructor <;> omega) exact

theorem magnitude_cons (c : Char) (g : List Char) :
    magnitude (c :: g) = bits c + 32 * magnitude g := Nat.ofDigits_cons ..

theorem add_magnitude_cons (base shift : Nat) (c : Char) (g : List Char) :
    base + bits c * 2 ^ shift + magnitude g * 2 ^ (shift + 5) =
      base + magnitude (c :: g) * 2 ^ shift := by
  rw [magnitude_cons]
  ring

/-- A numeral that ends stays within 64 bits if its last shift and its number do. -/
theorem exact_numeral_iff (digits : Digits g) (more : ∀ d ∈ g, goesOn d = true)
    (digit : c ∈ alphabet) (last : goesOn c = false) :
    Exact base shift (g ++ c :: s) ns ↔ shift + 5 * g.length < 64 ∧
      base + magnitude (g ++ [c]) * 2 ^ shift < 2 ^ 63 ∧
      ∃ rest, ns = signed (base + magnitude (g ++ [c]) * 2 ^ shift) :: rest ∧ Exact 0 0 s rest := by
  induction g generalizing base shift with
  | nil =>
    have alone : magnitude ([] ++ [c]) = bits c := by
      rw [List.nil_append, magnitude_cons]
      rfl
    rw [List.nil_append, exact_ends_iff digit last, alone]
    rfl
  | cons d g ih =>
    obtain ⟨first, later⟩ := List.forall_mem_cons.mp more
    obtain ⟨head, tail⟩ := List.forall_mem_cons.mp digits
    rw [List.cons_append, exact_goesOn_iff head first, ih tail later, add_magnitude_cons,
      List.length_cons, List.cons_append]
    have parts := add_magnitude_cons base shift d (g ++ [c])
    constructor
    · rintro ⟨-, -, narrow, bound, rest⟩
      exact ⟨by omega, bound, rest⟩
    · rintro ⟨narrow, bound, rest⟩
      exact ⟨by omega, by omega, by omega, bound, rest⟩

theorem exact_unfinished_iff (digits : Digits g) (more : ∀ d ∈ g, goesOn d = true) :
    Exact base shift g ns ↔ (g ≠ [] → shift + 5 * g.length < 69 ∧
      base + magnitude g * 2 ^ shift < 2 ^ 63) ∧ ns = [] := by
  induction g generalizing base shift with
  | nil =>
    constructor
    · rintro ⟨⟩
      exact ⟨fun h => absurd rfl h, rfl⟩
    · rintro ⟨-, rfl⟩
      exact .done
  | cons d g ih =>
    obtain ⟨first, later⟩ := List.forall_mem_cons.mp more
    obtain ⟨head, tail⟩ := List.forall_mem_cons.mp digits
    have parts := add_magnitude_cons base shift d g
    rw [exact_goesOn_iff head first, ih tail later, parts, List.length_cons]
    constructor
    · rintro ⟨narrow, bound, condition, rfl⟩
      refine ⟨fun _ => ?_, rfl⟩
      by_cases rest : g = []
      · have none : magnitude g = 0 := rest ▸ rfl
        rw [none, Nat.zero_mul] at parts
        exact ⟨by rw [rest, List.length_nil]; omega, by omega⟩
      · obtain ⟨narrow, bound⟩ := condition rest
        exact ⟨by omega, bound⟩
    · rintro ⟨condition, rfl⟩
      obtain ⟨narrow, bound⟩ := condition (List.cons_ne_nil d g)
      exact ⟨by omega, by omega, fun _ => ⟨by omega, bound⟩, rfl⟩

/-- Digits are read within 64 bits if every numeral stays within them, and the numbers that are read
are then those that the numerals stand for. -/
theorem exact_iff (digits : Digits s) :
    Exact 0 0 s ns ↔
      (∀ g ∈ numerals s, Short g) ∧ ns = (endedNumerals s).map fun g => signed (magnitude g) := by
  induction s using numeral_induction generalizing ns with
  | unfinished g more =>
    rw [exact_unfinished_iff digits more, endedNumerals_unfinished more, List.map_nil]
    by_cases there : g = []
    · subst there
      exact and_congr_left fun _ => iff_of_true (fun h => absurd rfl h) (by simp [numerals])
    · rw [numerals_unfinished there more, List.forall_mem_singleton, Short, Nat.zero_add,
        Nat.zero_add, pow_zero, Nat.mul_one, forall_prop_of_true there]
      exact and_congr_left fun _ => and_congr_left fun _ => by omega
  | whole g c s more last ih =>
    obtain ⟨first, digit, later⟩ : Digits g ∧ c ∈ alphabet ∧ Digits s := by
      simpa [Digits, or_imp, forall_and] using digits
    have narrow : 5 * g.length < 64 ↔ (g ++ [c]).length ≤ 13 := by
      rw [List.length_append, List.length_singleton]
      omega
    rw [exact_numeral_iff first more digit last, endedNumerals_append more last,
      numerals_append more last, List.forall_mem_cons, Short, List.map_cons, Nat.zero_add,
      Nat.zero_add, pow_zero, Nat.mul_one, narrow]
    constructor
    · rintro ⟨short, bound, rest, rfl, exact⟩
      obtain ⟨all, rfl⟩ := (ih later).mp exact
      exact ⟨⟨⟨short, bound⟩, all⟩, rfl⟩
    · rintro ⟨⟨⟨short, bound⟩, all⟩, rfl⟩
      exact ⟨short, bound, _, rfl, (ih later).mpr ⟨all, rfl⟩⟩

end ComponentLoader.Vlq
