import ComponentLoader.Proofs.Json.Literals
import ComponentLoader.Proofs.Request.Percent
import ComponentLoader.Request.Query

/-! A query that selects a block is read as it is written. Each key that is added
is read before those that are there, since the last one is the first parameter. -/
namespace ComponentLoader

namespace Text

theorem splitOn_ne_nil (sep : Char) (s : List Char) : splitOn sep s ≠ [] := by
  cases s with
  | nil => simp [splitOn]
  | cons c s =>
    unfold splitOn
    split
    · simp
    · split <;> simp

/-- The separator parts what is before it from what is after it. -/
theorem splitOn_append (sep : Char) (s t : List Char) :
    splitOn sep (s ++ sep :: t) = splitOn sep s ++ splitOn sep t := by
  induction s with
  | nil =>
    cases parted : splitOn sep t with
    | nil => exact absurd parted (splitOn_ne_nil sep t)
    | cons part parts => simp [splitOn, parted]
  | cons c s ih =>
    cases parted : splitOn sep s with
    | nil => exact absurd parted (splitOn_ne_nil sep s)
    | cons part parts =>
      rw [List.cons_append, splitOn, splitOn, ih, parted]
      simp only [List.cons_append]
      split <;> rfl

theorem splitOn_of_notMem {sep : Char} {s : List Char} (h : sep ∉ s) : splitOn sep s = [s] := by
  induction s with
  | nil => rfl
  | cons c s ih =>
    obtain ⟨other, rest⟩ := not_or.mp (mt List.mem_cons.mpr h)
    simp [splitOn, ih rest, Ne.symm other]

theorem splitOnce_of_notMem {sep : Char} {s : List Char} (h : sep ∉ s) :
    splitOnce [sep] s = none := by
  induction s with
  | nil => simp [splitOnce, stripStart]
  | cons c s ih =>
    obtain ⟨other, rest⟩ := not_or.mp (mt List.mem_cons.mpr h)
    simp [splitOnce, stripStart, other, ih rest]

theorem splitOnce_append {sep : Char} {s : List Char} (h : sep ∉ s) (t : List Char) :
    splitOnce [sep] (s ++ sep :: t) = some (s, t) := by
  induction s with
  | nil => simp [splitOnce, stripStart]
  | cons c s ih =>
    obtain ⟨other, rest⟩ := not_or.mp (mt List.mem_cons.mpr h)
    simp [splitOnce, stripStart, other, ih rest]

end Text

namespace Query

structure IsKey (key : String) : Prop where
  nonempty : key ≠ ""
  alphanumeric : key.toList.all Char.isAlphanum = true

instance (key : String) : Decidable (IsKey key) :=
  decidable_of_iff (key ≠ "" ∧ key.toList.all Char.isAlphanum = true)
    ⟨fun ⟨filled, plain⟩ => ⟨filled, plain⟩, fun ⟨filled, plain⟩ => ⟨filled, plain⟩⟩

theorem IsKey.notMem {key : String} (h : IsKey key) {c : Char} (other : ¬ c.isAlphanum) :
    c ∉ key.toList :=
  fun mem => other (List.all_eq_true.mp h.alphanumeric c mem)

theorem IsKey.decode {key : String} (h : IsKey key) :
    Percent.decode key.toList = key.toList := by
  have read := Percent.decode_encode key.toList
  rwa [Percent.encode_alphanumeric h.alphanumeric] at read

theorem readPart_flag {key : String} (h : IsKey key) : readPart key.toList = [(key, "")] := by
  have single : readPair key.toList = (key.toList, []) := by
    rw [readPair, Text.splitOnce_of_notMem (h.notMem (by decide))]
    simp only [h.decode]
  have plain : '-' ∉ key.toList := h.notMem (by decide)
  simp [readPart, single, plain]

theorem readPart_param {key : String} (h : IsKey key) (value : List Char) :
    readPart (key.toList ++ '=' :: Percent.encode value) = [(key, String.ofList value)] := by
  have pair : readPair (key.toList ++ '=' :: Percent.encode value) = (key.toList, value) := by
    rw [readPair, Text.splitOnce_append (h.notMem (by decide))]
    simp only [h.decode, Percent.decode_encode]
  have plain : '-' ∉ key.toList := h.notMem (by decide)
  simp [readPart, pair, plain]

/-- The question mark is at the beginning, so it is left out alike with more
parts. -/
theorem unmarked_append (s t : List Char) :
    (Text.stripStart ['?'] (s ++ '&' :: t)).getD (s ++ '&' :: t) =
      (Text.stripStart ['?'] s).getD s ++ '&' :: t := by
  cases s with
  | nil => simp [Text.stripStart]
  | cons c s =>
    simp only [List.cons_append, Text.stripStart]
    split <;> rfl

/-- One more part is read before the others. -/
theorem parse_append (text : String) {part : List Char} (filled : part ≠ [])
    (single : '&' ∉ part) :
    parse (text ++ String.ofList ('&' :: part)) =
      ⟨readPart part ++ (parse text).parameters⟩ := by
  have kept : part.isEmpty = false := by simpa using filled
  simp [parse, unmarked_append, Text.splitOn_append, Text.splitOn_of_notMem single, kept]

theorem parse_flag (q : BlockQuery) {key : String} (h : IsKey key) :
    parse (q.flag key).text = ⟨(key, "") :: (parse q.text).parameters⟩ := by
  have part : (q.flag key).text = q.text ++ String.ofList ('&' :: key.toList) := by
    apply String.toList_injective
    simp [BlockQuery.flag]
  rw [part, parse_append q.text (by simpa using h.nonempty) (h.notMem (by decide)),
    readPart_flag h]
  rfl

theorem parse_param (q : BlockQuery) {key : String} (h : IsKey key) (value : String) :
    parse (q.param key value).text = ⟨(key, value) :: (parse q.text).parameters⟩ := by
  have part : (q.param key value).text =
      q.text ++ String.ofList ('&' :: (key.toList ++ '=' :: Percent.encode value.toList)) := by
    apply String.toList_injective
    simp [BlockQuery.param]
  have single : '&' ∉ key.toList ++ '=' :: Percent.encode value.toList := by
    have inKey : '&' ∉ key.toList := h.notMem (by decide)
    have inValue : '&' ∉ Percent.encode value.toList :=
      Percent.notMem_encode (by decide) value.toList
    simp [inKey, inValue]
  rw [part, parse_append q.text (by simp) single, readPart_param h, String.ofList_toList]
  rfl

theorem isDigit_of_mem_toString {n : Nat} {c : Char} (h : c ∈ (toString n).toList) :
    c.isDigit := by
  rw [Nat.toString_eq_ofList_toDigits, String.toList_ofList] at h
  exact Nat.isDigit_of_mem_toDigits (by decide) (by decide) h

/-- An index is read as it is written, unless it is too great. -/
theorem parseIndex?_toString {n : Nat} (h : n ≤ maxIndex) : parseIndex? (toString n) = some n := by
  have digits : (toString n).toList = Nat.toDigits 10 n := by simp
  have unsigned : Text.stripStart ['+'] (Nat.toDigits 10 n) = none := by
    cases stripped : Text.stripStart ['+'] (Nat.toDigits 10 n) with
    | none => rfl
    | some rest =>
      have sign : '+' ∈ Nat.toDigits 10 n := by simp [Text.stripStart_eq_some_iff.mp stripped]
      exact absurd (isDigit_of_mem_toString (digits ▸ sign)) (by decide)
  have filled : (Nat.toDigits 10 n).isEmpty = false := by simp
  have all : (Nat.toDigits 10 n).all Char.isDigit = true :=
    List.all_eq_true.mpr fun c hc => isDigit_of_mem_toString (digits ▸ hc)
  simp [parseIndex?, unsigned, filled, all, Json.numberOf_toDigits, h]

/-- The start of a query is made of parameters as well. -/
theorem ofBlock_eq (kind : BlockKind) (index : Nat) :
    BlockQuery.ofBlock kind index =
      ((⟨"?san"⟩ : BlockQuery).param "type" kind.tag).param "index" (toString index) := by
  have tag : Percent.encode kind.tag.toList = kind.tag.toList := by
    cases kind <;> exact Percent.encode_alphanumeric (by decide)
  have digits : Percent.encode (toString index).toList = (toString index).toList :=
    Percent.encode_alphanumeric <| List.all_eq_true.mpr fun c hc => by
      simp [Char.isAlphanum, isDigit_of_mem_toString hc]
  rw [BlockQuery.param, BlockQuery.param, tag, digits, String.ofList_toList, String.ofList_toList]
  apply congrArg BlockQuery.mk
  have same (text : String) : toString text = text := rfl
  apply String.toList_injective
  simp [same]

theorem parse_ofBlock (kind : BlockKind) (index : Nat) :
    parse (BlockQuery.ofBlock kind index).text =
      ⟨[("index", toString index), ("type", kind.tag), ("san", "")]⟩ := by
  have mark : parse "?san" = ⟨[("san", "")]⟩ := by decide +kernel
  rw [ofBlock_eq, parse_param _ (by decide), parse_param _ (by decide), mark]

theorem get?_cons (key value : String) (parameters : List (String × String)) (other : String) :
    (Query.mk ((key, value) :: parameters)).get? other =
      if other = key then some value else (Query.mk parameters).get? other := by
  rw [get?, List.lookup_cons]
  by_cases same : other = key
  · simp [same]
  · rw [if_neg same, beq_false_of_ne same]
    rfl

/-- A key that is added has its value, and no other key changes. -/
theorem get?_param (q : BlockQuery) {key : String} (h : IsKey key) (value other : String) :
    (parse (q.param key value).text).get? other =
      if other = key then some value else (parse q.text).get? other := by
  rw [parse_param q h, get?_cons]

theorem get?_flag (q : BlockQuery) {key : String} (h : IsKey key) (other : String) :
    (parse (q.flag key).text).get? other =
      if other = key then some "" else (parse q.text).get? other := by
  rw [parse_flag q h, get?_cons]

end Query

namespace BlockQuery

def Marked (q : BlockQuery) : Prop := q.text.toList.head? = some '?'

theorem marked_ofBlock (kind : BlockKind) (index : Nat) : (ofBlock kind index).Marked := by
  rw [Query.ofBlock_eq]
  simp [Marked, param]

variable {q : BlockQuery}

theorem Marked.param (h : q.Marked) (key value : String) : (q.param key value).Marked := by
  unfold Marked at h ⊢
  simp [BlockQuery.param, h]

theorem Marked.flag (h : q.Marked) (key : String) : (q.flag key).Marked := by
  unfold Marked at h ⊢
  simp [BlockQuery.flag, h]

/-- A request is taken apart where its query begins, if the path has no question
mark. -/
theorem Marked.splitRequest (h : q.Marked) {path : String} (plain : '?' ∉ path.toList) :
    splitRequest (q.request path) = (path, q.text) := by
  have passed : ∀ c ∈ path.toList, (c != '?') = true := by
    intro c hc
    exact bne_iff_ne.mpr fun same => plain (same ▸ hc)
  obtain ⟨rest, marked⟩ := List.head?_eq_some_iff.mp h
  have taken : (path.toList ++ q.text.toList).takeWhile (· != '?') = path.toList := by
    rw [List.takeWhile_append_of_pos passed, marked]
    simp
  have left : (path.toList ++ q.text.toList).dropWhile (· != '?') = q.text.toList := by
    rw [List.dropWhile_append_of_pos passed, marked]
    simp
  simp [ComponentLoader.splitRequest, request, taken, left]

end BlockQuery

end ComponentLoader
