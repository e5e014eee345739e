import ComponentLoader.Text.Space
import Mathlib.Data.List.DropRight

/-! What is left at the edges of a text whose white space is trimmed. On the side that is trimmed
there is no white space, and on the other side all is as before, unless nothing is left. -/
namespace ComponentLoader.Text

variable {s : List Char} {c : Char}

def AllSpace (s : List Char) : Prop := ∀ c ∈ s, isSpace c = true

theorem allSpace_nil : AllSpace [] := List.forall_mem_nil _

theorem trimStart_eq_nil_iff : trimStart s = [] ↔ AllSpace s := List.dropWhile_eq_nil_iff

theorem trimEnd_eq_nil_iff : trimEnd s = [] ↔ AllSpace s := List.rdropWhile_eq_nil_iff

theorem isSpace_head?_trimStart (h : (trimStart s).head? = some c) : isSpace c = false := by
  have stops := List.head?_dropWhile_not isSpace s
  rw [trimStart] at h
  rw [h] at stops
  simpa using stops

theorem isSpace_getLast?_trimEnd (h : (trimEnd s).getLast? = some c) : isSpace c = false := by
  rw [trimEnd, List.getLast?_reverse] at h
  exact isSpace_head?_trimStart h

theorem getLast?_trimStart (some : ¬ AllSpace s) : (trimStart s).getLast? = s.getLast? := by
  have parts : s.takeWhile isSpace ++ trimStart s = s := List.takeWhile_append_dropWhile
  have left : trimStart s ≠ [] := mt trimStart_eq_nil_iff.mp some
  rw [← List.getLast?_append_of_ne_nil (s.takeWhile isSpace) left, parts]

theorem head?_trimEnd (some : ¬ AllSpace s) : (trimEnd s).head? = s.head? := by
  have turned : ¬ AllSpace s.reverse := fun all => some fun c hc => all c (List.mem_reverse.mpr hc)
  rw [trimEnd, List.head?_reverse, ← List.getLast?_reverse]
  exact getLast?_trimStart turned

theorem allSpace_trimStart_iff : AllSpace (trimStart s) ↔ AllSpace s := by
  constructor
  · intro all
    rw [← trimStart_eq_nil_iff]
    cases left : trimStart s with
    | nil => rfl
    | cons c rest =>
      have bare : isSpace c = false := isSpace_head?_trimStart (s := s) (by rw [left]; rfl)
      rw [left] at all
      rw [all c List.mem_cons_self] at bare
      cases bare
  · intro all c hc
    exact all c (List.dropWhile_subset _ hc)

theorem trimStart_append {a : List Char} (space : AllSpace a) (s : List Char) :
    trimStart (a ++ s) = trimStart s := List.dropWhile_append_of_pos space

theorem trimEnd_append {b : List Char} (space : AllSpace b) (s : List Char) :
    trimEnd (s ++ b) = trimEnd s := by
  have turned : AllSpace b.reverse := fun c hc => space c (List.mem_reverse.mp hc)
  rw [trimEnd, List.reverse_append]
  exact congrArg List.reverse (trimStart_append turned s.reverse)

/-- White space around a text is no part of what it is trimmed to. -/
theorem trim_append {a b : List Char} (before : AllSpace a) (after : AllSpace b) (s : List Char) :
    trim (a ++ s ++ b) = trim s := by
  rw [trim, List.append_assoc, trimStart_append before]
  by_cases all : AllSpace s
  · have whole : AllSpace (s ++ b) := List.forall_mem_append.mpr ⟨all, after⟩
    rw [trimStart_eq_nil_iff.mpr whole, trim, trimStart_eq_nil_iff.mpr all]
  · have left : (s.dropWhile isSpace).isEmpty = false :=
      List.isEmpty_eq_false_iff.mpr (mt trimStart_eq_nil_iff.mp all)
    rw [trimStart, List.dropWhile_append, left]
    exact trimEnd_append after (trimStart s)

/-- A text is what it is trimmed to and white space on either side. -/
theorem exists_trim (s : List Char) :
    ∃ a b, s = a ++ trim s ++ b ∧ AllSpace a ∧ AllSpace b := by
  refine ⟨s.takeWhile isSpace, ((trimStart s).reverse.takeWhile isSpace).reverse, ?_, ?_, ?_⟩
  · rw [List.append_assoc, trim, trimEnd, ← List.reverse_append, List.takeWhile_append_dropWhile,
      List.reverse_reverse]
    exact List.takeWhile_append_dropWhile.symm
  · exact fun c hc => List.mem_takeWhile_imp hc
  · exact fun c hc => List.mem_takeWhile_imp (List.mem_reverse.mp hc)

theorem trim_eq_nil_iff : trim s = [] ↔ AllSpace s :=
  trimEnd_eq_nil_iff.trans allSpace_trimStart_iff

theorem isSpace_head?_trim (h : (trim s).head? = some c) : isSpace c = false := by
  by_cases all : AllSpace (trimStart s)
  · rw [trim, trimEnd_eq_nil_iff.mpr all] at h
    cases h
  · rw [trim, head?_trimEnd all] at h
    exact isSpace_head?_trimStart h

theorem isSpace_getLast?_trim (h : (trim s).getLast? = some c) : isSpace c = false :=
  isSpace_getLast?_trimEnd h

/-- A text with no white space at either end is trimmed to itself. -/
theorem trim_eq_self (first : ∀ c, s.head? = some c → isSpace c = false)
    (last : ∀ c, s.getLast? = some c → isSpace c = false) : trim s = s := by
  have stays {t : List Char} (bare : ∀ c, t.head? = some c → isSpace c = false) :
      t.dropWhile isSpace = t := by
    cases t with
    | nil => rfl
    | cons c t => exact List.dropWhile_cons_of_neg (by simp [bare c rfl])
  have turned : ∀ c, s.reverse.head? = some c → isSpace c = false := by
    intro c h
    exact last c (List.head?_reverse ▸ h)
  rw [trim, trimStart, stays first, trimEnd, stays turned, List.reverse_reverse]

theorem trim_trim (s : List Char) : trim (trim s) = trim s :=
  trim_eq_self (fun _ h => isSpace_head?_trim h) fun _ h => isSpace_getLast?_trim h

/-- What follows a character that is no white space is all that is trimmed at the end. -/
theorem trimEnd_append_cons (bare : isSpace c = false) (s t : List Char) :
    trimEnd (s ++ c :: t) = s ++ c :: trimEnd t := by
  have stays : ((s ++ [c]).reverse.dropWhile isSpace).reverse = s ++ [c] := by
    rw [List.reverse_append, List.reverse_singleton, List.singleton_append,
      List.dropWhile_cons_of_neg (by simp [bare]), List.reverse_cons, List.reverse_reverse]
  rw [List.append_cons s c t, List.append_cons s c (trimEnd t), trimEnd, List.reverse_append,
    List.dropWhile_append]
  split
  · next none =>
    have empty : trimEnd t = [] := by
      rw [trimEnd, List.isEmpty_iff.mp none, List.reverse_nil]
    rw [stays, empty, List.append_nil]
  · rw [List.reverse_append, List.reverse_reverse]
    rfl

theorem trimStart_trimEnd (s : List Char) : trimStart (trimEnd s) = trim s := by
  have parts : s.takeWhile isSpace ++ trimStart s = s := List.takeWhile_append_dropWhile
  have blank : AllSpace (s.takeWhile isSpace) := fun _ hc => List.mem_takeWhile_imp hc
  rw [trim]
  cases front : trimStart s with
  | nil =>
    rw [trimEnd_eq_nil_iff.mpr (trimStart_eq_nil_iff.mp front)]
    rfl
  | cons c t =>
    have bare : isSpace c = false := isSpace_head?_trimStart (s := s) (by rw [front]; rfl)
    have alone : trimEnd (c :: t) = c :: trimEnd t := trimEnd_append_cons bare [] t
    rw [front] at parts
    rw [← parts, trimEnd_append_cons bare, trimStart_append blank, alone]
    exact List.dropWhile_cons_of_neg (by simp [bare])

end ComponentLoader.Text
