import Mathlib.Data.Option.Basic
import ComponentLoader.Json.Input
import ComponentLoader.Json.Value

/-! Strings and numbers in JSON are read as they are written, whatever follows them. A string is
read to its own closing quote: what stands for a quote in it does not end it, and no character
below U+0020 is left in it. -/
namespace ComponentLoader.Json

/-- A character is escaped by a letter or by its number, or stands for itself. -/
theorem escapeChar_cases (c : Char) :
    (∃ e, e ≠ 'u' ∧ e.toNat ≥ 0x20 ∧ escapeChar c = ['\\', e] ∧ Input.escape? e = some c) ∨
    (c.toNat < 0x20 ∧
      escapeChar c = ['\\', 'u', '0', '0', hexDigit (c.toNat / 16), hexDigit c.toNat]) ∨
    (0x20 ≤ c.toNat ∧ c ≠ '"' ∧ c ≠ '\\' ∧ escapeChar c = [c]) := by
  by_cases short : c ∈ ['"', '\\', '\x08', '\t', '\n', '\x0c', '\r']
  · left
    simp only [List.mem_cons, List.not_mem_nil, or_false] at short
    rcases short with rfl | rfl | rfl | rfl | rfl | rfl | rfl
    · exact ⟨'"', by decide⟩
    · exact ⟨'\\', by decide⟩
    · exact ⟨'b', by decide⟩
    · exact ⟨'t', by decide⟩
    · exact ⟨'n', by decide⟩
    · exact ⟨'f', by decide⟩
    · exact ⟨'r', by decide⟩
  · right
    simp only [List.mem_cons, List.not_mem_nil, or_false, not_or] at short
    obtain ⟨quote, backslash, b, t, n, f, r⟩ := short
    by_cases low : c.toNat < 0x20
    · exact .inl ⟨low, by simp [escapeChar, *]⟩
    · exact .inr ⟨Nat.le_of_not_lt low, quote, backslash, by simp [escapeChar, *]⟩

theorem unit?_hexDigit {n : Nat} (h : n < 0x20) :
    Input.unit? '0' '0' (hexDigit (n / 16)) (hexDigit n) = some n := by
  have all : ∀ n < 0x20, Input.unit? '0' '0' (hexDigit (n / 16)) (hexDigit n) = some n := by
    decide
  exact all n h

/-- One character is read as it is written, and the rest as it would be. -/
theorem units_escapeChar (c : Char) (s : List Char) :
    ∃ u, Input.units (escapeChar c ++ s) = (Input.units s).map (fun (us, r) => (u :: us, r)) ∧
      ∀ us, Input.textOfUnits (u :: us) = (Input.textOfUnits us).map (c :: ·) := by
  rcases escapeChar_cases c with ⟨e, other, -, escaped, back⟩ | ⟨low, escaped⟩ |
    ⟨plain, quote, backslash, escaped⟩
  · refine ⟨.inl c, ?_, fun us => rfl⟩
    rw [escaped]
    simp only [List.cons_append, List.nil_append]
    rw [Input.units]
    · rw [back]
      cases Input.units s <;> rfl
    · exact fun _ _ _ _ _ numbered _ => other numbered
  · refine ⟨.inr c.toNat, ?_, fun us => ?_⟩
    · rw [escaped]
      simp only [List.cons_append, List.nil_append]
      rw [Input.units, unit?_hexDigit low]
      cases Input.units s <;> rfl
    · have small : c.toNat < 0xD800 := Nat.lt_trans low (by decide)
      rw [Input.textOfUnits.eq_def]
      simp [small]
  · refine ⟨.inl c, ?_, fun us => rfl⟩
    rw [escaped]
    simp only [List.cons_append, List.nil_append]
    rw [Input.units]
    · have allowed : (0x20 ≤ c.toNat && c != '\\') = true := by simp [plain, backslash]
      rw [allowed]
      cases Input.units s <;> rfl
    · exact quote
    · exact fun _ _ _ _ _ escapes _ => backslash escapes
    · exact fun _ _ escapes _ => backslash escapes

/-- A string is read as it is written, to its closing quote. -/
theorem readString_escaped (text rest : List Char) :
    Input.readString (text.flatMap escapeChar ++ '"' :: rest) =
      some (some (String.ofList text), rest) := by
  have parted : ∃ us, Input.units (text.flatMap escapeChar ++ '"' :: rest) = some (us, rest) ∧
      Input.textOfUnits us = some text := by
    induction text with
    | nil => exact ⟨[], by simp [Input.units], rfl⟩
    | cons c text ih =>
      obtain ⟨us, read, back⟩ := ih
      obtain ⟨u, first, own⟩ := units_escapeChar c (text.flatMap escapeChar ++ '"' :: rest)
      refine ⟨u :: us, ?_, ?_⟩
      · rw [List.flatMap_cons, List.append_assoc, first, read]
        rfl
      · rw [own, back]
        rfl
  obtain ⟨us, read, back⟩ := parted
  simp only [Input.readString, read, Option.map_some, back]

theorem quote_append (s : String) (rest : List Char) :
    (quote s).toList ++ rest = '"' :: (s.toList.flatMap escapeChar ++ '"' :: rest) := by
  simp [quote]

theorem readString_quote (s : String) (rest : List Char) :
    Input.readString (s.toList.flatMap escapeChar ++ '"' :: rest) = some (some s, rest) := by
  rw [readString_escaped, String.ofList_toList]

theorem toNat_hexDigit (n : Nat) : 0x20 ≤ (hexDigit n).toNat := by
  have all : ∀ n < 16, 0x20 ≤ (Nat.digitChar n).toNat := by decide
  exact all (n % 16) (Nat.mod_lt n (by decide))

theorem toNat_of_mem_escapeChar {c x : Char} (h : c ∈ escapeChar x) : 0x20 ≤ c.toNat := by
  rcases escapeChar_cases x with ⟨e, -, printed, escaped, -⟩ | ⟨-, escaped⟩ |
    ⟨printed, -, -, escaped⟩
  · simp only [escaped, List.mem_cons, List.not_mem_nil, or_false] at h
    rcases h with rfl | rfl
    · decide
    · exact printed
  · simp only [escaped, List.mem_cons, List.not_mem_nil, or_false] at h
    rcases h with rfl | rfl | rfl | rfl | rfl | rfl
    · decide
    · decide
    · decide
    · decide
    · exact toNat_hexDigit _
    · exact toNat_hexDigit _
  · rw [escaped, List.mem_singleton] at h
    rw [h]
    exact printed

/-- Neither a line break nor any other character below U+0020 is left in a string. -/
theorem notMem_quote {c : Char} (low : c.toNat < 0x20) (s : String) : c ∉ (quote s).toList := by
  rw [quote, String.toList_ofList, List.cons_append]
  intro mem
  rcases List.mem_cons.mp mem with rfl | mem
  · exact absurd low (by decide)
  · rcases List.mem_append.mp mem with inside | closing
    · obtain ⟨x, -, own⟩ := List.mem_flatMap.mp inside
      exact Nat.not_lt.mpr (toNat_of_mem_escapeChar own) low
    · obtain rfl := List.mem_singleton.mp closing
      exact absurd low (by decide)

theorem numberOf_toDigits (n : Nat) : Input.numberOf (Nat.toDigits 10 n) = n := by
  have read : Nat.ofDigitChars 10 (Nat.toDigits 10 n) 0 = n := Nat.ofDigitChars_ten_toDigits
  rw [Nat.ofDigitChars_eq_foldl] at read
  simpa only [Input.numberOf, Nat.mul_comm] using read

/-- No zero is written before other digits. -/
theorem head?_toDigits {n : Nat} (h : 0 < n) : (Nat.toDigits 10 n).head? ≠ some '0' := by
  induction n using Nat.strongRecOn with
  | ind n ih =>
    rcases Nat.lt_or_ge n 10 with small | large
    · rw [Nat.toDigits_of_lt_base small]
      have all : ∀ n < 10, 0 < n → [n.digitChar].head? ≠ some '0' := by decide
      exact all n small h
    · have front : (Nat.toDigits 10 n).head? = (Nat.toDigits 10 (n / 10)).head? := by
        obtain ⟨c, more, digits⟩ :=
          List.exists_cons_of_ne_nil (Nat.toDigits_ne_nil (n := n / 10) (b := 10))
        rw [Nat.toDigits_of_base_le (by decide) large, digits]
        rfl
      rw [front]
      exact ih (n / 10) (by omega) (by omega)

end ComponentLoader.Json
