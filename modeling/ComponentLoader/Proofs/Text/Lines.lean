import Mathlib.Data.List.Induction
import ComponentLoader.Position

/-! The lines of a text, and those of a part of it. A part begins in the line of the
place at which it begins, after what that line holds before, and goes on with whole
lines. -/
namespace ComponentLoader

namespace Text

/-- The lines of a text, without the breaks that end them; never none. -/
def lines (s : List Char) : List (List Char) := splitOn '\n' s

def line? (s : List Char) : Nat → Option (List Char)
  | 0 => none
  | n + 1 => (lines s)[n]?

/-- What a text holds of its last line. -/
def lastLine (s : List Char) : List Char := (s.reverse.takeWhile (· != '\n')).reverse

theorem lastLine_append_break (s : List Char) : lastLine (s ++ ['\n']) = [] := by
  simp [lastLine]

theorem lastLine_append_of_ne {c : Char} (h : c ≠ '\n') (s : List Char) :
    lastLine (s ++ [c]) = lastLine s ++ [c] := by
  simp [lastLine, h]

theorem exists_lines_cons (s : List Char) : ∃ first rest, lines s = first :: rest := by
  induction s with
  | nil => exact ⟨[], [], rfl⟩
  | cons c s ih =>
    obtain ⟨first, rest, parted⟩ := ih
    unfold lines at parted
    rw [lines, splitOn, parted]
    dsimp only
    split
    · exact ⟨[], first :: rest, rfl⟩
    · exact ⟨c :: first, rest, rfl⟩

theorem lines_cons_break (s : List Char) : lines ('\n' :: s) = [] :: lines s := by
  obtain ⟨first, rest, parted⟩ := exists_lines_cons s
  unfold lines at parted ⊢
  rw [splitOn, parted]
  rfl

theorem lines_cons_of_ne {c : Char} (h : c ≠ '\n') {s first : List Char} {rest : List (List Char)}
    (parted : lines s = first :: rest) : lines (c :: s) = (c :: first) :: rest := by
  unfold lines at parted ⊢
  rw [splitOn, parted]
  exact if_neg h

/-- Where two texts meet, the last line of the one goes on with the first line of the
other. -/
theorem lines_append {s t last first : List Char} {whole rest : List (List Char)}
    (hs : lines s = whole ++ [last]) (ht : lines t = first :: rest) :
    lines (s ++ t) = whole ++ (last ++ first) :: rest := by
  induction s generalizing whole last with
  | nil =>
    have single : lines [] = [[]] := rfl
    obtain ⟨rfl, rfl⟩ : whole = [] ∧ last = [] := by
      rw [single] at hs
      rcases List.append_eq_singleton_iff.mp hs.symm with ⟨none, ends⟩ | ⟨-, ends⟩
      · exact ⟨none, (List.cons.inj ends).1⟩
      · cases ends
    exact ht
  | cons c s ih =>
    by_cases ends : c = '\n'
    · subst ends
      rw [lines_cons_break] at hs
      rw [List.cons_append, lines_cons_break]
      cases whole with
      | nil =>
        obtain ⟨f, r, parted⟩ := exists_lines_cons s
        simp [parted] at hs
      | cons w whole =>
        obtain ⟨rfl, further⟩ := List.cons.inj hs
        rw [ih further]
        rfl
    · obtain ⟨f, r, parted⟩ := exists_lines_cons s
      rw [lines_cons_of_ne ends parted] at hs
      cases whole with
      | nil =>
        obtain ⟨rfl, rfl⟩ := List.cons.inj hs
        have further : lines (s ++ t) = [] ++ (f ++ first) :: rest := ih parted
        exact lines_cons_of_ne ends further
      | cons w whole =>
        obtain ⟨rfl, rfl⟩ := List.cons.inj hs
        have further : lines (s ++ t) = (f :: whole) ++ (last ++ first) :: rest := ih parted
        exact lines_cons_of_ne ends further

/-- A text has one line more than it has breaks, the last of which it may not have read to the
end. -/
theorem exists_lines_concat (s : List Char) :
    ∃ whole, lines s = whole ++ [lastLine s] ∧ whole.length = s.count '\n' := by
  induction s using List.reverseRecOn with
  | nil => exact ⟨[], rfl, rfl⟩
  | append_singleton s c ih =>
    obtain ⟨whole, parted, count⟩ := ih
    by_cases ends : c = '\n'
    · subst ends
      refine ⟨whole ++ [lastLine s], ?_, by simp [count]⟩
      rw [lines_append parted (show lines ['\n'] = [] :: [[]] from rfl), lastLine_append_break]
      simp
    · refine ⟨whole, ?_, by simp [count, ends]⟩
      have single : lines [c] = [[c]] := lines_cons_of_ne ends (show lines [] = [] :: [] from rfl)
      rw [lines_append parted single, lastLine_append_of_ne ends]

theorem length_lines (s : List Char) : (lines s).length = s.count '\n' + 1 := by
  obtain ⟨whole, parted, count⟩ := exists_lines_concat s
  simp [parted, count]

/-- A line goes on with what follows the text. -/
theorem line_append {s line : List Char} {n : Nat} (h : (lines s)[n]? = some line)
    (t : List Char) : ∃ more, (lines (s ++ t))[n]? = some (line ++ more) := by
  obtain ⟨whole, parted, -⟩ := exists_lines_concat s
  obtain ⟨first, rest, more⟩ := exists_lines_cons t
  rw [parted] at h
  rw [lines_append parted more]
  by_cases inside : n < whole.length
  · rw [List.getElem?_append_left inside] at h ⊢
    exact ⟨[], by simpa using h⟩
  · rw [List.getElem?_append_right (by omega)] at h ⊢
    obtain ⟨here, ends⟩ := List.getElem?_eq_some_iff.mp h
    have last : n - whole.length = 0 := Nat.lt_one_iff.mp here
    simp only [last, List.getElem_cons_zero] at ends
    exact ⟨first, by simp [last, ends]⟩

/-- The lines of a part are lines of the whole text from the line on in which the part begins. The
first of them is preceded there by what the line holds before the part. -/
theorem line_of_part {part line : List Char} {n : Nat} (h : (lines part)[n]? = some line)
    (before after : List Char) :
    ∃ more, (lines (before ++ part ++ after))[before.count '\n' + n]? =
      some ((if n = 0 then lastLine before else []) ++ line ++ more) := by
  obtain ⟨whole, parted, count⟩ := exists_lines_concat before
  obtain ⟨first, rest, own⟩ := exists_lines_cons part
  refine line_append ?_ after
  rw [lines_append parted own, ← count, List.getElem?_append_right (Nat.le_add_right _ _),
    Nat.add_sub_cancel_left]
  rw [own] at h
  cases n with
  | zero =>
    obtain rfl := Option.some.inj h
    rfl
  | succ n => exact h

theorem utf16Length_append (s t : List Char) :
    utf16Length (s ++ t) = utf16Length s + utf16Length t := by
  induction s with
  | nil => simp [utf16Length]
  | cons c s ih => simp only [List.cons_append, utf16Length, ih, Nat.add_assoc]

theorem utf16Length_reverse (s : List Char) : utf16Length s.reverse = utf16Length s := by
  induction s with
  | nil => rfl
  | cons c s ih =>
    rw [List.reverse_cons, utf16Length_append, ih, utf16Length, utf16Length, utf16Length]
    omega

theorem utf16Length_lastLine_le (s : List Char) : utf16Length (lastLine s) ≤ utf16Length s := by
  have parts := congrArg utf16Length
    (List.takeWhile_append_dropWhile (p := (· != '\n')) (l := s.reverse))
  rw [utf16Length_append, utf16Length_reverse] at parts
  rw [lastLine, utf16Length_reverse]
  omega

/-- A character takes no more code units in UTF-16 than bytes in UTF-8. -/
theorem utf16Length_le (s : List Char) : utf16Length s ≤ utf8Length s := by
  induction s with
  | nil => exact Nat.le_refl 0
  | cons c s ih =>
    rw [utf16Length, utf8Length]
    have units : (if c.toNat < 0x10000 then 1 else 2) ≤ c.utf8Size := by
      have positive := Char.utf8Size_pos c
      split
      · exact positive
      · next wide =>
        have : ¬ c.val ≤ 0x7F ∧ ¬ c.val ≤ 0x7FF ∧ ¬ c.val ≤ 0xFFFF := by
          simp only [UInt32.le_iff_toNat_le]
          have : c.val.toNat = c.toNat := rfl
          refine ⟨?_, ?_, ?_⟩ <;> simp <;> omega
        simp [Char.utf8Size, this]
    omega

theorem count_le_utf8Length (c : Char) (s : List Char) : s.count c ≤ utf8Length s := by
  induction s with
  | nil => exact Nat.le_refl 0
  | cons a s ih =>
    have := Char.utf8Size_pos a
    rw [List.count_cons, utf8Length]
    split <;> omega

end Text

/-- Every break begins a line. -/
theorem Position.line_advance (p : Position) (s : List Char) :
    (p.advance s).line = p.line + s.count '\n' := by
  induction s generalizing p with
  | nil => rfl
  | cons c s ih =>
    rw [advance_cons, ih, step]
    by_cases ends : c = '\n'
    · simp [ends]
      omega
    · simp [ends]

end ComponentLoader
