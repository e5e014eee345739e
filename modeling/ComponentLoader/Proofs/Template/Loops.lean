import ComponentLoader.Proofs.Text.Edges
import ComponentLoader.Proofs.Text.Leftmost
import ComponentLoader.Template.Attribute
import Mathlib.Data.Option.Basic

/-! The grammar of loops. Every separator is looked for from the left, so that it may stand in the
parts after it and not in those before it. A loop is read if and only if it has such a spelling, and
what is read are its parts. -/
namespace ComponentLoader

namespace Text

/-- White space is neither a letter nor a digit. -/
theorem isAlphanumeric_of_isSpace {c : Char} (h : isSpace c = true) : isAlphanumeric c = false := by
  have ascii : ∀ n ∈ 0x20 :: List.range' 0x9 5, (Char.ofNat n).isAlphanum = false := by
    decide
  have beyond : ∀ n ∈ [0x85, 0xA0, 0x1680, 0x2028, 0x2029, 0x202F, 0x205F, 0x3000] ++
      List.range' 0x2000 11,
      (alphanumericRanges.any fun range => range.1 ≤ n && n ≤ range.2) = false := by
    decide +kernel
  simp only [isSpace, Bool.or_eq_true, Bool.and_eq_true, decide_eq_true_eq, beq_iff_eq] at h
  rw [isAlphanumeric]
  split
  · refine Char.ofNat_toNat c ▸ ascii c.toNat ?_
    simp only [List.mem_cons, List.mem_range'_1]
    omega
  · refine beyond c.toNat ?_
    simp only [List.mem_append, List.mem_cons, List.not_mem_nil, or_false, List.mem_range'_1]
    omega

def Trimmed (s : List Char) : Prop := trim s = s

instance (s : List Char) : Decidable (Trimmed s) := inferInstanceAs (Decidable (trim s = s))

/-- The second text is the first with white space around it. -/
def Padded (part s : List Char) : Prop := ∃ a b, s = a ++ part ++ b ∧ AllSpace a ∧ AllSpace b

theorem Padded.trim_eq {part s : List Char} (h : Padded part s) (trimmed : Trimmed part) :
    trim s = part := by
  obtain ⟨a, b, rfl, before, after⟩ := h
  exact (trim_append before after part).trans trimmed

theorem padded_trim (s : List Char) : Padded (trim s) s := exists_trim s

theorem Padded.refl (s : List Char) : Padded s s :=
  ⟨[], [], by simp, allSpace_nil, allSpace_nil⟩

theorem trimmed_of_forall {s : List Char} (bare : ∀ c ∈ s, isSpace c = false) : Trimmed s :=
  trim_eq_self (fun _ h => bare _ (List.mem_of_mem_head? h))
    fun _ h => bare _ (List.mem_of_getLast? h)

theorem Trimmed.trimStart_eq {s : List Char} (h : Trimmed s) : trimStart s = s := by
  rw [← h, ← trimStart_trimEnd]
  exact List.dropWhile_idempotent _ _

theorem Trimmed.trimEnd_eq {s : List Char} (h : Trimmed s) : trimEnd s = s := by
  rw [← h, trim]
  exact List.rdropWhile_idempotent _ _

/-- A text up to the leftmost occurrence of a separator, and what follows it if there is one. -/
inductive Parted (sep s : List Char) : List Char → Option (List Char) → Prop
  | whole (absent : ¬ sep <:+: s) : Parted sep s s none
  | parts {before after : List Char} (h : First sep s before after) :
    Parted sep s before (some after)

/-- The parts on either side of the leftmost separator, or the whole. -/
def parted (sep s : List Char) : List Char × Option (List Char) :=
  ((splitOnce sep s).map fun (before, after) => (before, some after)).getD (s, none)

theorem parted_eq_iff {sep s before : List Char} {after : Option (List Char)} :
    parted sep s = (before, after) ↔ Parted sep s before after := by
  rw [parted]
  cases found : splitOnce sep s with
  | none =>
    have absent := splitOnce_eq_none_iff.mp found
    constructor
    · rintro ⟨⟩
      exact .whole absent
    · rintro (- | h)
      · rfl
      · exact absurd ⟨_, _, h.parts.symm⟩ absent
  | some parts =>
    have first := first_of_splitOnce found
    constructor
    · rintro ⟨⟩
      exact .parts first
    · rintro (absent | h)
      · exact absurd ⟨_, _, first.parts.symm⟩ absent
      · obtain ⟨rfl, rfl⟩ := first.unique h
        rfl

end Text

namespace Template

open Text (AllSpace First Padded Parted Trimmed parted)

structure Loop where
  item : List Char
  index : Option (List Char)
  list : List Char
  key : Option (List Char)

namespace Loop

def clause (lead : String) (part : Option (List Char)) : List Char :=
  part.elim [] (lead.toList ++ ·)

def text (p : Loop) : List Char :=
  p.item ++ clause ", " p.index ++ " in ".toList ++ (p.list ++ clause " trackBy " p.key)

def directive (p : Loop) : Directive where
  value := some (.raw (String.ofList p.list))
  item := some (String.ofList p.item)
  index := p.index.map String.ofList
  trackBy := p.key.map String.ofList

structure Accepted (p : Loop) : Prop where
  item : isIdentifier p.item = true
  index : ∀ i ∈ p.index, isIdentifier i = true
  list : Trimmed p.list ∧ p.list ≠ []
  key : ∀ k ∈ p.key, Trimmed k

/-- The parts are of a kind that is read back from how the loop is written. -/
structure Proper (p : Loop) : Prop where
  item : isIdentifier p.item = true
  index : ∀ i ∈ p.index, isIdentifier i = true ∧ i ≠ "in".toList
  list : Trimmed p.list ∧ p.list ≠ [] ∧ ¬ "trackBy".toList <:+: p.list
  key : ∀ k ∈ p.key, Trimmed k ∧ k ≠ []

/-- The text is the loop with white space around its parts, each separator being the leftmost. -/
def Spells (value : List Char) (p : Loop) : Prop :=
  ∃ names source item index list key,
    First " in ".toList value names source ∧
    Parted [','] names item index ∧ Parted " trackBy ".toList source list key ∧
    Padded p.item item ∧ Option.Rel Padded p.index index ∧
    Padded p.list list ∧ Option.Rel Padded p.key key

def ofSides (names source : List Char) : Loop where
  item := Text.trim (parted [','] names).1
  index := (parted [','] names).2.map Text.trim
  list := Text.trim (parted " trackBy ".toList source).1
  key := (parted " trackBy ".toList source).2.map Text.trim

def readable (p : Loop) : Bool :=
  isIdentifier p.item && p.index.all isIdentifier && !p.list.isEmpty

theorem ofLoop?_of_first {value names source : List Char}
    (h : First " in ".toList value names source) :
    Directive.ofLoop? value =
      if (ofSides names source).readable then some (ofSides names source).directive else none := by
  rw [Directive.ofLoop?, Text.splitOnce_eq_some_iff.mpr h, ofSides, parted, parted]
  simp only [Option.bind_eq_bind, Option.bind_some]
  generalize Text.splitOnce [','] names = a
  generalize Text.splitOnce " trackBy ".toList source = b
  have guarded (ok : Bool) (d : Directive) :
      ((guard (ok = true) : Option Unit).bind fun _ => some d) = if ok then some d else none := by
    cases ok <;> rfl
  cases a <;> cases b <;> exact guarded _ _

/-- A loop is read exactly if it is the accepted parts of what stands around its ` in `. -/
theorem ofLoop?_eq_some_iff {value : List Char} {d : Directive} :
    Directive.ofLoop? value = some d ↔
      ∃ names source, First " in ".toList value names source ∧
        (ofSides names source).readable = true ∧ d = (ofSides names source).directive := by
  constructor
  · intro read
    by_cases occurs : " in ".toList <:+: value
    · obtain ⟨names, source, first⟩ := Text.exists_first occurs
      rw [ofLoop?_of_first first, Option.ite_none_right_eq_some] at read
      exact ⟨names, source, first, read.1, (Option.some.inj read.2).symm⟩
    · rw [Directive.ofLoop?, Text.splitOnce_eq_none_iff.mpr occurs] at read
      cases read
  · rintro ⟨names, source, first, readable, rfl⟩
    rw [ofLoop?_of_first first, if_pos readable]

theorem readable_iff {p : Loop} (trimmed : Trimmed p.list) (key : ∀ k ∈ p.key, Trimmed k) :
    p.readable = true ↔ p.Accepted := by
  rw [readable, Bool.and_eq_true, Bool.and_eq_true, Option.all_eq_true, Bool.not_eq_true',
    List.isEmpty_eq_false_iff]
  exact ⟨fun ⟨⟨item, index⟩, list⟩ => ⟨item, index, ⟨trimmed, list⟩, key⟩,
    fun h => ⟨⟨h.item, h.index⟩, h.list.2⟩⟩

theorem alphanumeric_of_isIdentifier {s : List Char} (h : isIdentifier s = true) {c : Char}
    (there : c ∈ s) : c = '$' ∨ c = '_' ∨ Text.isAlphanumeric c = true := by
  rw [isIdentifier, Bool.and_eq_true, List.all_eq_true] at h
  have ok := h.2 c there
  rwa [Bool.or_eq_true, Bool.or_eq_true, beq_iff_eq, beq_iff_eq, or_assoc] at ok

theorem isSpace_of_isIdentifier {s : List Char} (h : isIdentifier s = true) {c : Char}
    (there : c ∈ s) : Text.isSpace c = false := by
  rcases alphanumeric_of_isIdentifier h there with rfl | rfl | letter
  · decide
  · decide
  · by_contra space
    rw [Text.isAlphanumeric_of_isSpace (eq_true_of_ne_false space)] at letter
    cases letter

theorem trimmed_of_isIdentifier {s : List Char} (h : isIdentifier s = true) : Trimmed s :=
  Text.trimmed_of_forall fun _ there => isSpace_of_isIdentifier h there

theorem space_not_mem_of_isIdentifier {s : List Char} (h : isIdentifier s = true) : ' ' ∉ s := by
  intro there
  cases isSpace_of_isIdentifier h there

theorem comma_not_mem_of_isIdentifier {s : List Char} (h : isIdentifier s = true) : ',' ∉ s := by
  intro there
  rcases alphanumeric_of_isIdentifier h there with comma | comma | comma <;>
    exact absurd comma (by decide)

theorem rel_padded_map (s : Option (List Char)) : Option.Rel Padded (s.map Text.trim) s := by
  cases s with
  | none => exact .none
  | some s => exact .some (Text.padded_trim s)

theorem eq_map_of_rel_padded {part s : Option (List Char)} (h : Option.Rel Padded part s)
    (trimmed : ∀ p ∈ part, Trimmed p) : s.map Text.trim = part := by
  cases h with
  | none => rfl
  | some h => exact congrArg some (h.trim_eq (trimmed _ rfl))

theorem ofSides_trimmed (names source : List Char) :
    Trimmed (ofSides names source).list ∧ ∀ k ∈ (ofSides names source).key, Trimmed k := by
  refine ⟨Text.trim_trim _, fun k there => ?_⟩
  obtain ⟨key, -, rfl⟩ := Option.map_eq_some_iff.mp there
  exact Text.trim_trim key

/-- Accepted parts that a text spells are those that are found in it. -/
theorem spells_iff {value : List Char} {p : Loop} (accepted : p.Accepted) :
    p.Spells value ↔ ∃ names source, First " in ".toList value names source ∧
      ofSides names source = p := by
  constructor
  · rintro ⟨names, source, item, index, list, key, first, left, right, hitem, hindex, hlist, hkey⟩
    refine ⟨names, source, first, ?_⟩
    obtain ⟨item', index', list', key'⟩ := p
    rw [ofSides, Text.parted_eq_iff.mpr left, Text.parted_eq_iff.mpr right,
      hitem.trim_eq (trimmed_of_isIdentifier accepted.item), hlist.trim_eq accepted.list.1,
      eq_map_of_rel_padded hkey accepted.key,
      eq_map_of_rel_padded hindex fun i h => trimmed_of_isIdentifier (accepted.index i h)]
  · rintro ⟨names, source, first, rfl⟩
    exact ⟨names, source, _, _, _, _, first, Text.parted_eq_iff.mp rfl, Text.parted_eq_iff.mp rfl,
      Text.padded_trim _, rel_padded_map _, Text.padded_trim _, rel_padded_map _⟩

/-- A loop is read exactly if it has accepted parts that it spells, and then it says them. -/
theorem ofLoop?_iff_spells {value : List Char} {d : Directive} :
    Directive.ofLoop? value = some d ↔
      ∃ p : Loop, d = p.directive ∧ p.Accepted ∧ p.Spells value := by
  rw [ofLoop?_eq_some_iff]
  constructor
  · rintro ⟨names, source, first, readable, rfl⟩
    have trimmed := ofSides_trimmed names source
    have accepted := (readable_iff trimmed.1 trimmed.2).mp readable
    exact ⟨_, rfl, accepted, (spells_iff accepted).mpr ⟨names, source, first, rfl⟩⟩
  · rintro ⟨p, rfl, accepted, spells⟩
    obtain ⟨names, source, first, rfl⟩ := (spells_iff accepted).mp spells
    exact ⟨names, source, first, (readable_iff accepted.list.1 accepted.key).mpr accepted, rfl⟩

theorem in_toList : " in ".toList = ' ' :: ("in".toList ++ [' ']) := by decide

theorem trackBy_toList : " trackBy ".toList = ' ' :: ("trackBy".toList ++ [' ']) := by decide

/-- What leads to the list is not found earlier, where no index is the word `in`. -/
theorem in_not_beginsIn {p : Loop} (h : p.Proper) (source : List Char) :
    ¬ Text.BeginsIn " in ".toList (p.item ++ clause ", " p.index) (" in ".toList ++ source) := by
  have item := space_not_mem_of_isIdentifier h.item
  rw [Text.beginsIn_append_iff, in_toList]
  rintro (begins | begins)
  · exact Text.not_beginsIn_of_not_mem item begins
  cases there : p.index with
  | none =>
    rw [there] at begins
    exact Text.not_beginsIn_nil begins
  | some i =>
    obtain ⟨identifier, different⟩ := h.index i there
    have bare := space_not_mem_of_isIdentifier identifier
    have lead : clause ", " (some i) = ',' :: ' ' :: i := rfl
    rw [there, lead, Text.beginsIn_cons_iff, Text.beginsIn_cons_iff, List.cons_prefix_cons,
      List.cons_prefix_cons] at begins
    rcases begins with ⟨comma, -⟩ | ⟨-, t, word⟩ | later
    · cases comma
    · have here : First [' '] ("in".toList ++ [' '] ++ t) "in".toList t :=
        Text.first_of_not_mem (by decide)
      have there : First [' '] (i ++ [' '] ++ ("in".toList ++ [' '] ++ source)) i _ :=
        Text.first_of_not_mem bare
      rw [word, List.append_assoc i] at *
      exact different (here.unique there).1.symm
    · exact Text.not_beginsIn_of_not_mem bare later

theorem first_in {p : Loop} (h : p.Proper) :
    First " in ".toList p.text (p.item ++ clause ", " p.index)
      (p.list ++ clause " trackBy " p.key) :=
  Text.first_of_not_beginsIn (in_not_beginsIn h _)

theorem parted_names {p : Loop} (h : p.Proper) :
    Parted [','] (p.item ++ clause ", " p.index) p.item (p.index.map (' ' :: ·)) := by
  have item := comma_not_mem_of_isIdentifier h.item
  cases p.index with
  | none =>
    rw [clause, Option.elim, List.append_nil]
    exact .whole fun ⟨a, b, parts⟩ => item (by simp [← parts])
  | some i =>
    have lead : p.item ++ clause ", " (some i) = p.item ++ [','] ++ ' ' :: i :=
      (List.append_assoc _ [','] _).symm
    exact .parts (lead ▸ Text.first_of_not_mem item)

theorem trackBy_not_beginsIn {list rest : List Char} (absent : ¬ "trackBy".toList <:+: list) :
    ¬ Text.BeginsIn " trackBy ".toList list (" trackBy ".toList ++ rest) := by
  rintro ⟨x, y, rfl, there, begins⟩
  cases y with
  | nil => exact there rfl
  | cons c y =>
    rw [trackBy_toList, List.cons_append, List.cons_prefix_cons] at begins
    have inside := Text.prefix_of_prefix_append (by decide)
      ((List.prefix_append _ _).trans begins.2)
    exact absent (inside.isInfix.trans ⟨x ++ [c], [], by simp⟩)

theorem parted_source {p : Loop} (h : p.Proper) :
    Parted " trackBy ".toList (p.list ++ clause " trackBy " p.key) p.list p.key := by
  cases p.key with
  | none =>
    rw [clause, Option.elim, List.append_nil]
    exact .whole fun occurs => h.list.2.2 (.trans ⟨[' '], [' '], rfl⟩ occurs)
  | some k =>
    rw [clause, Option.elim, ← List.append_assoc]
    exact .parts (Text.first_of_not_beginsIn (trackBy_not_beginsIn h.list.2.2))

theorem Proper.accepted {p : Loop} (h : p.Proper) : p.Accepted where
  item := h.item
  index := fun i there => (h.index i there).1
  list := ⟨h.list.1, h.list.2.1⟩
  key := fun k there => (h.key k there).1

theorem Proper.spells {p : Loop} (h : p.Proper) : p.Spells p.text := by
  refine ⟨_, _, _, _, _, _, first_in h, parted_names h, parted_source h, .refl _, ?_, .refl _, ?_⟩
  · cases p.index with
    | none => exact .none
    | some i =>
      exact .some ⟨[' '], [], by simp, List.forall_mem_singleton.mpr rfl, Text.allSpace_nil⟩
  · cases p.key with
    | none => exact .none
    | some k => exact .some (.refl k)

/-- Reading a loop is sound and complete. Proper parts are read back from how the loop is written,
and a text is read as a loop exactly if there are accepted parts that it spells, which are then what
is read. -/
theorem ofLoop?_sound_complete :
    (∀ p : Loop, p.Proper → Directive.ofLoop? p.text = some p.directive) ∧
      ∀ value d, Directive.ofLoop? value = some d ↔
        ∃ p : Loop, d = p.directive ∧ p.Accepted ∧ p.Spells value :=
  ⟨fun p h => ofLoop?_iff_spells.mpr ⟨p, rfl, h.accepted, h.spells⟩,
    fun _ _ => ofLoop?_iff_spells⟩

/-- The parts of a loop with an index and a key, `item, i in list trackBy item.id`, are read. -/
theorem read_with_index_and_key :
    let p : Loop := ⟨"item".toList, some ['i'], "list".toList, some "item.id".toList⟩
    p.Proper ∧ Directive.ofLoop? p.text = some p.directive := by
  have proper : Proper ⟨"item".toList, some ['i'], "list".toList, some "item.id".toList⟩ :=
    { item := by decide
      index := by decide
      list := ⟨by decide +kernel, by decide, by decide⟩
      key := by decide +kernel }
  exact ⟨proper, ofLoop?_sound_complete.1 _ proper⟩

/-- The word `in` is read as an index where no space leads to it, so that not all that is read has
an index other than that word. -/
theorem index_may_be_in :
    ¬ ∀ value d, Directive.ofLoop? value = some d →
      ∀ i ∈ d.index, isIdentifier i.toList = true ∧ i ≠ "in" := by
  intro other
  have read : (Directive.ofLoop? "item,in in list".toList).map (·.index) = some (some "in") := by
    decide +kernel
  obtain ⟨d, read, index⟩ := Option.map_eq_some_iff.mp read
  exact (other _ d read "in" index).2 rfl

end Loop

end Template

end ComponentLoader
