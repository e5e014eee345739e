import ComponentLoader.Proofs.Component.Arrival
import ComponentLoader.Proofs.Component.Partition
import ComponentLoader.Proofs.Markup.StartTags
import Mathlib.Data.List.Nodup

/-! What the blocks of a component hold. A block is written from a start tag to an end tag of its
name; its attributes are those of the start tag, no two of one name, and its content is the text
between the two tags. -/
namespace ComponentLoader

open Markup (Dialect Lexeme Tag)

namespace Block

/-- A block contains a text within another: a start tag of the block's name, with its attributes,
ends where the content begins, and an end tag of the name begins where the content ends. A tag that
is self-closing is all of the block, which then holds nothing. -/
structure Contains (source : String) (b : Block) (content : String) : Prop where
  between : ∃ before opening closing after,
    source.toList = before ++ opening ++ content.toList ++ closing ++ after ∧
    b.span = ⟨Position.start.advance before,
      Position.start.advance (before ++ opening ++ content.toList ++ closing)⟩ ∧
    b.content = ⟨Position.start.advance (before ++ opening),
      Position.start.advance (before ++ opening ++ content.toList)⟩
  tagged : ∃ l ∈ Dialect.component.lexemes source, ∃ tag, l.token = .startTag tag ∧
    l.span = ⟨b.span.start, b.content.start⟩ ∧ tag.name = b.kind.tag ∧
    b.attributes = (tag.attributes.map fun a => ⟨a.name, a.value⟩) ∧
    (tag.selfClosing = true ∧ content = "" ∧ b.content.stop = b.span.stop ∨
      tag.selfClosing = false ∧ ∃ m ∈ Dialect.component.lexemes source,
        m.ends b.kind.tag = true ∧ m.span = ⟨b.content.stop, b.span.stop⟩)

def unmarked (b : Block) : Block := { b with synthetic := false }

def HasValue (b : Block) (name value : String) : Prop := ⟨name, some value⟩ ∈ b.attributes

variable {source content : String} {b : Block}

/-- There is one content that a block holds in a text. -/
theorem Contains.text_eq (h : b.Contains source content) : b.content.text source = content := by
  obtain ⟨before, opening, closing, after, parts, -, place⟩ := h.between
  rw [place, Span.text_of_parts (b := closing ++ after) (by simp [parts]), String.ofList_toList]

theorem Contains.distinct (h : b.Contains source content) : (b.attributes.map (·.name)).Nodup := by
  obtain ⟨l, listed, tag, token, -, -, attributes, -⟩ := h.tagged
  rw [attributes, List.map_map]
  exact (Markup.proper_of_mem_lexemes listed token).distinct

/-- Where no two attributes have one name, the one that is found under a name is the one that has
it. -/
theorem attribute?_eq_some_iff (distinct : (b.attributes.map (·.name)).Nodup) {name : String}
    {a : BlockAttribute} : b.attribute? name = some a ↔ a ∈ b.attributes ∧ a.name = name := by
  rw [attribute?]
  constructor
  · intro found
    have named := List.find?_some found
    exact ⟨List.mem_of_find?_eq_some found, eq_of_beq named⟩
  · rintro ⟨listed, rfl⟩
    have some : (b.attributes.find? (·.name == a.name)).isSome :=
      List.find?_isSome.mpr ⟨a, listed, by simp⟩
    obtain ⟨first, found⟩ := Option.isSome_iff_exists.mp some
    have named := List.find?_some found
    rw [found, List.inj_on_of_nodup_map distinct (List.mem_of_find?_eq_some found) listed
      (eq_of_beq named)]

theorem value?_eq_some_iff (distinct : (b.attributes.map (·.name)).Nodup) {name value : String} :
    b.value? name = some value ↔ b.HasValue name value := by
  rw [value?, Option.bind_eq_some_iff]
  constructor
  · rintro ⟨⟨own, given⟩, found, rfl⟩
    obtain ⟨listed, rfl⟩ := (attribute?_eq_some_iff distinct).mp found
    exact listed
  · intro listed
    exact ⟨_, (attribute?_eq_some_iff distinct).mpr ⟨listed, rfl⟩, rfl⟩

end Block

namespace Component

variable {o : ComponentOptions} {source : String} {c : Component} {b : Block}

/-- Every block of a component is read from the lexemes of its text, and perhaps marked. -/
theorem exists_readBlock (h : Component.read o source = .ok c) (hb : b ∈ c.blocks) :
    ∃ before l rest after tag kind,
      Dialect.component.lexemes c.source = before ++ l :: rest ∧ l.token = .startTag tag ∧
      Layout.blockKind? o.kinds tag = some kind ∧
      Layout.readBlock kind tag l rest = .ok (b.unmarked, after) := by
  obtain ⟨layout, laid, -, alike⟩ := layout_of_read h
  rw [Layout.read_eq_onePass] at laid
  have listed : b.unmarked ∈ c.blocks.map Block.unmarked := List.mem_map_of_mem hb
  rw [alike Block.unmarked fun _ => rfl] at listed
  obtain ⟨b', hb', same⟩ := List.mem_map.mp listed
  obtain ⟨passed, later, parts⟩ := List.mem_iff_append.mp hb'
  have arrives := Layout.arrives_of_ok laid
  rw [parts] at arrives
  obtain ⟨l, rest, after, tag, kind, arrived, token, recognized, read, -⟩ := arrives.at_block
  obtain ⟨before, cut⟩ := arrived.suffix
  obtain ⟨-, -, -, unmarked, -⟩ := Layout.readBlock_inversion read
  refine ⟨before, l, rest, after, tag, kind, cut.symm, token, recognized, ?_⟩
  rw [read, ← same, Block.unmarked, ← unmarked]

/-- A block of a component holds its content in the text of the component. -/
theorem contains_of_read (h : Component.read o source = .ok c) (hb : b ∈ c.blocks) :
    b.Contains c.source (c.contentOf b) := by
  obtain ⟨before, opening, part, closing, after, parts, span, content, text⟩ :=
    ((covers_of_read h).2 b hb).exists_around
  rw [contentOf, text]
  refine ⟨⟨before, opening, closing, after, ?_, ?_, ?_⟩, ?_⟩
  · rw [String.toList_ofList, parts]
  · rw [String.toList_ofList, span]
  · rw [String.toList_ofList, content]
  obtain ⟨earlier, l, rest, after', tag, kind, cut, token, recognized, read⟩ :=
    exists_readBlock h hb
  obtain ⟨-, own, attributes, -, ends⟩ := Layout.readBlock_inversion read
  obtain ⟨start, inner⟩ := Layout.start_of_readBlock read
  have name : tag.name = b.kind.tag := own ▸ Layout.name_of_blockKind recognized
  dsimp only [Block.unmarked] at attributes start inner ends
  refine ⟨l, by simp [cut], tag, token, ?_, name, attributes, ?_⟩
  · rw [start, inner]
  rcases ends with ⟨alone, whole, point, -⟩ | ⟨opens, inside, m, rfl, closes, whole, place⟩
  · refine .inl ⟨alone, ?_, ?_⟩
    · have empty : b.content.text c.source = "" := by
        rw [point]
        simp [Span.text, Span.point, Text.slice, Text.takeBytes]
      rw [← text, empty]
    · rw [point, whole]
      rfl
  · refine .inr ⟨opens, m, by simp [cut], name ▸ closes.ends, ?_⟩
    rw [whole, place]

end Component

end ComponentLoader
