import ComponentLoader.Proofs.Markup.TagTails
import ComponentLoader.Proofs.Markup.RawText

/-! Tags as they are commonly written: a name alone, or with one attribute in double quotes,
and a bracket. Each is read for what it says, and reading goes on after the bracket. -/
namespace ComponentLoader.Markup.Cursor

variable {c : Cursor} {n a v t : List Char}

theorem readTag_of_bracket
    (rest : ((c.takeWhile isNameChar).2.readAttributes []).2.rest = '>' :: t) :
    c.readTag.1 = ⟨String.ofList (c.rest.takeWhile isNameChar),
        ((c.takeWhile isNameChar).2.readAttributes []).1, false⟩ ∧
      c.readTag.2.rest = t := by
  have bracket : c.tagEnd.rest = '>' :: t := rest
  obtain ⟨done, -⟩ | ⟨r, solidus, -⟩ | ⟨r, closed, read⟩ := c.readTag_cases
  · rw [bracket] at done
    cases done
  · rw [bracket] at solidus
    cases solidus
  · rw [read]
    exact ⟨rfl, by rw [rest_skip, bracket]; rfl⟩

theorem readTag_name_only (name : ∀ ch ∈ n, isNameChar ch = true) (rest : c.rest = n ++ '>' :: t) :
    c.readTag.1 = ⟨String.ofList n, [], false⟩ ∧ c.readTag.2.rest = t := by
  have named : c.rest.takeWhile isNameChar = n := by
    rw [rest]
    exact takeWhile_isNameChar name fun ch head => .inr (.inr (Option.some.inj head).symm)
  have left : (c.takeWhile isNameChar).2.rest = '>' :: t := by
    rw [rest_takeWhile, rest, List.dropWhile_append_of_pos name]
    rfl
  have skipped : (c.takeWhile isNameChar).2.skipSpace.rest = '>' :: t := by
    rw [rest_skipSpace, left]
    rfl
  have ends : Markup.endsTag (c.takeWhile isNameChar).2.skipSpace.rest = true := by
    rw [skipped]
    rfl
  have read := readAttributes_ended ends []
  obtain ⟨tag, after⟩ := c.readTag_of_bracket (t := t) (by rw [read]; exact skipped)
  rw [named, read] at tag
  exact ⟨tag, after⟩

theorem readQuoted_closed (rest : c.rest = '"' :: (v ++ '"' :: '>' :: t)) (plain : '"' ∉ v) :
    (c.readQuoted '"').1 = some (String.ofList v) ∧ (c.readQuoted '"').2.2.rest = '>' :: t := by
  have inside : ∀ ch ∈ v, (ch != '"') = true := by
    intro ch hch
    simpa using fun same : ch = '"' => plain (same ▸ hch)
  have value : ((c.skip 1).takeWhile (· != '"')).1 = v := by
    show (c.rest.drop 1).takeWhile _ = v
    rw [rest, List.drop_one, List.tail_cons, List.takeWhile_append_of_pos inside]
    exact List.append_nil v
  have left : ((c.skip 1).takeWhile (· != '"')).2.skipNext.rest = '>' :: t := by
    rw [rest_skipNext, rest_takeWhile, rest_skip, rest, List.drop_succ_cons, List.drop_zero,
      List.dropWhile_append_of_pos inside]
    rfl
  have ends : Markup.endsTag ((c.skip 1).takeWhile (· != '"')).2.skipNext.rest = true := by
    rw [left]
    rfl
  unfold readQuoted afterQuoted
  dsimp only
  rw [value, if_pos ends]
  exact ⟨rfl, left⟩

theorem readAttributeName_eq (name : ∀ ch ∈ a, isAttributeNameChar ch = true) (some : a ≠ [])
    (rest : c.rest = a ++ '=' :: t) :
    c.readAttributeName.1 = String.ofList a ∧ c.readAttributeName.2.rest = '=' :: t := by
  have front : c.rest.head? ≠ .some '=' := by
    obtain ⟨ch, a, rfl⟩ := List.exists_cons_of_ne_nil some
    rw [rest]
    intro same
    obtain rfl : ch = '=' := Option.some.inj same
    exact absurd (name '=' List.mem_cons_self) (by decide)
  unfold readAttributeName
  rw [if_neg front]
  have taken : (c.takeWhile isAttributeNameChar).1 = a := by
    show c.rest.takeWhile _ = a
    rw [rest, List.takeWhile_append_of_pos name]
    exact List.append_nil a
  dsimp only
  rw [taken, rest_reportIf, rest_takeWhile, rest, List.dropWhile_append_of_pos name]
  exact ⟨rfl, rfl⟩

theorem readAttributeValue_quoted (rest : c.rest = '"' :: (v ++ '"' :: '>' :: t))
    (plain : '"' ∉ v) :
    c.readAttributeValue.1 = some (String.ofList v) ∧
      c.readAttributeValue.2.2.rest = '>' :: t := by
  have skipped : c.skipSpace.rest = '"' :: (v ++ '"' :: '>' :: t) := by
    rw [rest_skipSpace, rest]
    rfl
  have read : c.readAttributeValue = c.skipSpace.readQuoted '"' := by
    rw [readAttributeValue_eq, skipped]
    rfl
  rw [read]
  exact readQuoted_closed skipped plain

theorem readAttribute_quoted (name : ∀ ch ∈ a, isAttributeNameChar ch = true) (some : a ≠ [])
    (rest : c.rest = a ++ '=' :: '"' :: (v ++ '"' :: '>' :: t)) (plain : '"' ∉ v) :
    c.readAttribute.1.name = String.ofList a ∧ c.readAttribute.1.value = .some (String.ofList v) ∧
      c.readAttribute.2.rest = '>' :: t := by
  obtain ⟨named, left⟩ := readAttributeName_eq name some rest
  have skipped : c.readAttributeName.2.skipSpace.rest = '=' :: '"' :: (v ++ '"' :: '>' :: t) := by
    rw [rest_skipSpace, left]
    rfl
  have goesOn : ¬ Markup.endsTag c.readAttributeName.2.skipSpace.rest = true := by
    rw [skipped]
    nofun
  have noSolidus : c.readAttributeName.2.skipSpace.skipSolidus? = none := by
    rw [skipSolidus_eq, skipped]
    rfl
  have equals : c.readAttributeName.2.skipSpace.rest.head? = .some '=' := by
    rw [skipped]
    rfl
  obtain ⟨value, after⟩ := readAttributeValue_quoted (c := c.readAttributeName.2.skipSpace.skip 1)
    (by rw [rest_skip, skipped]; rfl) plain
  unfold readAttribute
  dsimp only
  rw [if_neg goesOn, noSolidus]
  dsimp only
  rw [if_pos equals]
  exact ⟨named, value, after⟩

theorem isMarkupSpace_of_isNameChar {ch : Char} (name : isNameChar ch = true) :
    Text.isMarkupSpace ch = false := by
  cases space : Text.isMarkupSpace ch with
  | false => rfl
  | true =>
    rw [isNameChar_eq_false_iff.mpr (.inl space)] at name
    cases name

theorem skipSolidus_of_isNameChar {ch : Char} (name : isNameChar ch = true)
    (rest : c.rest = ch :: t) : c.skipSolidus? = none := by
  rw [skipSolidus_eq, rest, if_neg]
  intro same
  obtain rfl : ch = '/' := Option.some.inj same
  cases name

theorem endsTag_of_isNameChar {ch : Char} (name : isNameChar ch = true) :
    Markup.endsTag (ch :: t) = false := by
  unfold Markup.endsTag
  split
  · next same => cases same
  · next same =>
    obtain ⟨rfl, -⟩ := List.cons.inj same
    cases name
  · next same =>
    obtain ⟨rfl, -⟩ := List.cons.inj same
    cases name
  · rfl

/-- Of a tag with one attribute the value is read as it stands between the quotes. -/
theorem readTag_quoted (tagName : ∀ ch ∈ n, isNameChar ch = true)
    (name : ∀ ch ∈ a, isAttributeNameChar ch = true) (some : a ≠ [])
    (rest : c.rest = n ++ ' ' :: (a ++ '=' :: '"' :: (v ++ '"' :: '>' :: t))) (plain : '"' ∉ v) :
    (∃ span, c.readTag.1 =
      ⟨String.ofList n, [⟨String.ofList a, .some (String.ofList v), span⟩], false⟩) ∧
      c.readTag.2.rest = t := by
  obtain ⟨ch, a', rfl⟩ := List.exists_cons_of_ne_nil some
  have first : isNameChar ch = true := (Bool.and_eq_true_iff.mp (name ch List.mem_cons_self)).1
  have named : c.rest.takeWhile isNameChar = n := by
    rw [rest]
    refine takeWhile_isNameChar tagName fun ch head => .inl ?_
    obtain rfl := Option.some.inj head
    rfl
  have left : (c.takeWhile isNameChar).2.rest =
      ' ' :: (ch :: a' ++ '=' :: '"' :: (v ++ '"' :: '>' :: t)) := by
    rw [rest_takeWhile, rest, List.dropWhile_append_of_pos tagName]
    rfl
  have skipped : (c.takeWhile isNameChar).2.skipSpace.rest =
      ch :: a' ++ '=' :: '"' :: (v ++ '"' :: '>' :: t) := by
    rw [rest_skipSpace, left, List.dropWhile_cons_of_pos rfl, List.cons_append,
      List.dropWhile_cons_of_neg (by simp [isMarkupSpace_of_isNameChar first])]
  have goesOn : ¬ Markup.endsTag (c.takeWhile isNameChar).2.skipSpace.rest = true := by
    rw [skipped, List.cons_append, endsTag_of_isNameChar first]
    exact Bool.false_ne_true
  obtain ⟨attributeName, value, after⟩ := readAttribute_quoted name some skipped plain
  have next := readAttributes_attribute goesOn (skipSolidus_of_isNameChar first skipped) []
  generalize (c.takeWhile isNameChar).2.skipSpace.readAttribute = read
    at attributeName value after next
  have bracket : read.2.skipSpace.rest = '>' :: t := by
    rw [rest_skipSpace, after]
    rfl
  have ends : Markup.endsTag read.2.skipSpace.rest = true := by
    rw [bracket]
    rfl
  have attributes : (c.takeWhile isNameChar).2.readAttributes [] = ([read.1], read.2.skipSpace) :=
    next.trans (readAttributes_ended ends _)
  obtain ⟨tag, left⟩ := c.readTag_of_bracket (t := t) (by rw [attributes]; exact bracket)
  rw [named, attributes] at tag
  refine ⟨⟨read.1.span, ?_⟩, left⟩
  rw [tag, ← attributeName, ← value]

end ComponentLoader.Markup.Cursor
