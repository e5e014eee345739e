import ComponentLoader.Proofs.Component.Laid
import ComponentLoader.Proofs.Component.Reading
import ComponentLoader.Proofs.Markup.Tiles

/-! The top level of a component partitions its text. The lexemes tile the
text, and each piece of the top level takes a run of them, so the pieces tile it
as well, with or without a script put in. -/
namespace ComponentLoader

open Markup (Lexeme Tag Token)

/-- The number of the block that a piece of the top level is. -/
def LayoutNode.block? : LayoutNode → Option Nat
  | .block index => some index
  | _ => none

/-- A block lies in the text and holds its content, which begins after its
beginning. -/
structure Block.Placed (source : String) (b : Block) : Prop where
  span : b.span.In source
  content : b.content.In source
  start_lt : b.span.start.offset < b.content.start.offset
  content_le : b.content.start.offset ≤ b.content.stop.offset
  stop_le : b.content.stop.offset ≤ b.span.stop.offset

/-- The text is made of what is before a block, the two ends of the block with its content between
them, and what is after it. -/
theorem Block.Placed.exists_around {source : String} {b : Block} (h : b.Placed source) :
    ∃ before opening part closing after,
      source.toList = before ++ opening ++ part ++ closing ++ after ∧
      b.span = ⟨Position.start.advance before,
        Position.start.advance (before ++ opening ++ part ++ closing)⟩ ∧
      b.content = ⟨Position.start.advance (before ++ opening),
        Position.start.advance (before ++ opening ++ part)⟩ ∧
      b.content.text source = String.ofList part := by
  obtain ⟨before, rest, parts, begins⟩ := h.span.1
  obtain ⟨opening, rest, rfl, opened⟩ :=
    h.content.1.after parts (begins ▸ Nat.le_of_lt h.start_lt)
  rw [← List.append_assoc] at parts
  obtain ⟨part, rest, rfl, closed⟩ := h.content.2.after parts (opened ▸ h.content_le)
  rw [← List.append_assoc] at parts
  obtain ⟨closing, after, rfl, ended⟩ := h.span.2.after parts (closed ▸ h.stop_le)
  have place : b.content = ⟨Position.start.advance (before ++ opening),
      Position.start.advance (before ++ opening ++ part)⟩ := by
    rw [← opened, ← closed]
  refine ⟨before, opening, part, closing, after, ?_, ?_, place, ?_⟩
  · rw [parts, ← List.append_assoc]
  · rw [← begins, ← ended]
  · rw [place]
    exact Span.text_of_parts parts

/-- The content of a block is a part of the text. -/
theorem Block.Placed.exists_parts {source : String} {b : Block} (h : b.Placed source) :
    ∃ before part after, source.toList = before ++ part ++ after ∧
      b.content = ⟨Position.start.advance before, Position.start.advance (before ++ part)⟩ ∧
      b.content.text source = String.ofList part := by
  obtain ⟨before, opening, part, closing, after, parts, -, content, text⟩ := h.exists_around
  exact ⟨before ++ opening, part, closing ++ after, by simp [parts], content, text⟩

/-- Past any of the stretches that tile a way, the others tile the rest of
it. -/
theorem Span.Tiles.split {p q : Position} {before after : List Span} {s : Span}
    (h : Tiles p (before ++ s :: after) q) :
    p.offset ≤ s.start.offset ∧ s.start.offset < s.stop.offset ∧ Tiles s.stop after q := by
  induction before generalizing p with
  | nil =>
    obtain ⟨rfl, positive, tail⟩ := h
    exact ⟨Nat.le_refl _, positive, tail⟩
  | cons t before ih =>
    obtain ⟨rfl, positive, tail⟩ := h
    obtain ⟨lower, own, rest⟩ := ih tail
    exact ⟨Nat.le_trans (Nat.le_of_lt positive) lower, own, rest⟩

/-- What is left of a tiling is one again. -/
theorem Span.Tiles.of_suffix {p q : Position} {spans rest : List Span} (h : Tiles p spans q)
    (tail : rest <:+ spans) : ∃ r, Tiles r rest q := by
  obtain ⟨before, rfl⟩ := tail
  induction before generalizing p with
  | nil => exact ⟨p, h⟩
  | cons s before ih => exact ih h.2.2

namespace Layout

variable {kinds : BlockKinds} {awaited : List Nat} {index : Nat} {ls : List Lexeme}
  {layout : Layout} {source : String}

/-- A block that is read is placed in the text, and what follows it is tiled on
from its end. -/
theorem placed_of_readBlock {kind : BlockKind} {tag : Tag} {l : Lexeme} {b : Block}
    {rest after : List Lexeme} {p q : Position}
    (read : readBlock kind tag l rest = .ok (b, after))
    (tiles : Span.Tiles p ((l :: rest).map (·.span)) q)
    (ends : ∀ m ∈ l :: rest, m.span.In source) :
    b.Placed source ∧ b.span.start = p ∧ Span.Tiles b.span.stop (after.map (·.span)) q ∧
      ∀ m ∈ after, m.span.In source := by
  obtain ⟨rfl, positive, tail⟩ := tiles
  have own := ends l (by simp)
  rcases readBlock_cases read with ⟨span, content, rfl⟩ | ⟨inside, m, rfl, span, content⟩
  · refine ⟨?_, by rw [span], by rw [span]; exact tail, fun m hm => ends m (by simp [hm])⟩
    constructor <;> simp only [span, content, Span.point]
    · exact own
    · exact ⟨own.2, own.2⟩
    · exact positive
    · exact Nat.le_refl _
    · exact Nat.le_refl _
  · simp only [List.map_append, List.map_cons] at tail
    obtain ⟨lower, width, others⟩ := tail.split
    have last := ends m (by simp)
    refine ⟨?_, by rw [span], by rw [span]; exact others, fun m hm => ends m (by simp [hm])⟩
    constructor <;> simp only [span, content]
    · exact ⟨own.1, last.2⟩
    · exact ⟨own.2, last.1⟩
    · exact positive
    · exact lower
    · exact Nat.le_of_lt width

/-- The blocks are placed in the text. -/
theorem Laid.placed (h : Laid kinds awaited index ls layout) {p q : Position}
    (tiles : Span.Tiles p (ls.map (·.span)) q) (ends : ∀ l ∈ ls, l.span.In source) :
    ∀ b ∈ layout.blocks, b.Placed source := by
  induction h generalizing p with
  | done index => simp
  | block token found read more ih =>
    obtain ⟨placed, -, rest, inText⟩ := placed_of_readBlock read tiles ends
    intro b hb
    cases hb with
    | head => exact placed
    | tail _ hb => exact ih rest inText b hb
  | element token plain waits ended more ih =>
    obtain ⟨inside, m, rfl, -⟩ := exists_of_elementEnd ended
    have tail := tiles.2.2
    simp only [List.map_append, List.map_cons] at tail
    exact ih tail.split.2.2 (fun l hl => ends l (by simp [hl]))
  | tag token plain alone more ih => exact ih tiles.2.2 (fun l hl => ends l (by simp [hl]))
  | comment token more ih => exact ih tiles.2.2 (fun l hl => ends l (by simp [hl]))
  | text noTag noComment more ih => exact ih tiles.2.2 (fun l hl => ends l (by simp [hl]))

/-- The pieces that are blocks count them. -/
theorem Laid.numbered (h : Laid kinds awaited index ls layout) :
    layout.nodes.filterMap LayoutNode.block? = List.range' index layout.blocks.length := by
  induction h with
  | done index => rfl
  | block token found read more ih =>
    simp only [List.filterMap_cons, LayoutNode.block?, List.length_cons, List.range'_succ, ih]
  | element token plain waits ended more ih => exact ih
  | tag token plain alone more ih => exact ih
  | comment token more ih => exact ih
  | text noTag noComment more ih => exact ih

end Layout

/-- Pieces of the top level are somewhere in the text, and tile the way from
`p` to `q`. -/
def Component.Covers (c : Component) (source : String) (nodes : List LayoutNode)
    (p q : Position) : Prop :=
  ∃ spans, nodes.map c.spanOf? = spans.map some ∧ Span.Tiles p spans q ∧
    ∀ s ∈ spans, s.In source

theorem Component.Covers.cons {c : Component} {source : String} {nodes : List LayoutNode}
    {node : LayoutNode} {s : Span} {p q : Position} (h : c.Covers source nodes s.stop q)
    (own : c.spanOf? node = some s) (here : s.start = p)
    (positive : s.start.offset < s.stop.offset) (within : s.In source) :
    c.Covers source (node :: nodes) p q := by
  obtain ⟨spans, same, tiles, others⟩ := h
  refine ⟨s :: spans, by simp [own, same], ⟨here, positive, tiles⟩, ?_⟩
  intro t ht
  cases ht with
  | head => exact within
  | tail _ ht => exact others t ht

/-- The pieces tile what the lexemes do. A piece that is a block is looked up
among all blocks of the component, of which those before it come first. -/
theorem Layout.Laid.covers {kinds : BlockKinds} {awaited : List Nat} {index : Nat}
    {ls : List Lexeme} {layout : Layout} {source : String} {c : Component} {p q : Position}
    (h : Laid kinds awaited index ls layout) (tiles : Span.Tiles p (ls.map (·.span)) q)
    (ends : ∀ l ∈ ls, l.span.In source) (before : List Span) (count : before.length = index)
    (blocks : c.blocks.map (·.span) = before ++ layout.blocks.map (·.span)) :
    c.Covers source layout.nodes p q := by
  induction h generalizing p before with
  | done index => exact ⟨[], rfl, tiles, by simp⟩
  | @block index l rest after tag kind b inner token found read more ih =>
    obtain ⟨placed, here, others, inText⟩ := placed_of_readBlock read tiles ends
    have tail := ih others inText (before ++ [b.span]) (by simp [count]) (by simpa using blocks)
    have own : c.spanOf? (.block index) = some b.span := by
      have := congrArg (·[index]?) blocks
      simpa [Component.spanOf?, ← count] using this
    exact tail.cons own here
      (Nat.lt_of_lt_of_le placed.start_lt (Nat.le_trans placed.content_le placed.stop_le))
      placed.span
  | @element index l rest after tag stop inner token plain waits ended more ih =>
    obtain ⟨inside, m, rfl, rfl⟩ := exists_of_elementEnd ended
    obtain ⟨rfl, positive, tail⟩ := tiles
    simp only [List.map_append, List.map_cons] at tail
    obtain ⟨lower, width, others⟩ := tail.split
    have covered := ih others (fun l hl => ends l (by simp [hl])) before count blocks
    exact Component.Covers.cons (s := ⟨l.span.start, m.span.stop⟩) covered rfl rfl
      (Nat.lt_trans (Nat.lt_of_lt_of_le positive lower) width)
      ⟨(ends l (by simp)).1, (ends m (by simp)).2⟩
  | @tag index l rest tag inner token plain alone more ih =>
    have covered := ih tiles.2.2 (fun l hl => ends l (by simp [hl])) before count blocks
    exact covered.cons rfl tiles.1 tiles.2.1 (ends l (by simp))
  | @comment index l rest content inner token more ih =>
    have covered := ih tiles.2.2 (fun l hl => ends l (by simp [hl])) before count blocks
    exact covered.cons rfl tiles.1 tiles.2.1 (ends l (by simp))
  | @text index l rest inner noTag noComment more ih =>
    have covered := ih tiles.2.2 (fun l hl => ends l (by simp [hl])) before count blocks
    exact covered.cons rfl tiles.1 tiles.2.1 (ends l (by simp))

namespace Component

/-- The pieces of a component that is read tile its text, and its blocks are
placed in it. -/
theorem covers_of_read {o : ComponentOptions} {source : String} {c : Component}
    (h : Component.read o source = .ok c) :
    c.Covers c.source c.layout.nodes .start (Position.start.advance c.source.toList) ∧
      ∀ b ∈ c.blocks, b.Placed c.source := by
  obtain ⟨layout, read, nodes, alike⟩ := layout_of_read h
  obtain ⟨awaited, laid⟩ := Layout.laid_of_read read
  have whole : c.source.toList = [] ++ c.source.toList := rfl
  obtain ⟨tiles, faithful⟩ := Markup.lexemesFrom_tile .component .data .start [] _ whole rfl
  have ends : ∀ l ∈ Markup.Dialect.component.lexemes c.source, l.span.In c.source :=
    fun l hl => (faithful l hl).ends
  refine ⟨nodes ▸ laid.covers tiles ends [] rfl (alike (·.span) fun _ => rfl), ?_⟩
  intro b hb
  have listed : (b.span, b.content) ∈ c.blocks.map fun b => (b.span, b.content) :=
    List.mem_map_of_mem hb
  rw [alike (fun b => (b.span, b.content)) fun _ => rfl] at listed
  obtain ⟨b', hb', sameSpans⟩ := List.mem_map.mp listed
  obtain ⟨span, content⟩ := Prod.mk.inj sameSpans
  have placed := laid.placed tiles ends b' hb'
  exact ⟨span ▸ placed.span, content ▸ placed.content, span ▸ content ▸ placed.start_lt,
    content ▸ placed.content_le, span ▸ content ▸ placed.stop_le⟩

/-- The pieces that are blocks are numbered from zero. -/
theorem numbered_of_read {o : ComponentOptions} {source : String} {c : Component}
    (h : Component.read o source = .ok c) :
    c.layout.nodes.filterMap LayoutNode.block? = List.range c.blocks.length := by
  obtain ⟨layout, read, nodes, alike⟩ := layout_of_read h
  obtain ⟨awaited, laid⟩ := Layout.laid_of_read read
  have count : c.blocks.length = layout.blocks.length := by
    simpa using congrArg List.length (alike (·.span) fun _ => rfl)
  rw [nodes, laid.numbered, count, List.range_eq_range']

/-- Every block takes some of the text. -/
theorem length_blocks_le {o : ComponentOptions} {source : String} {c : Component}
    (h : Component.read o source = .ok c) :
    c.blocks.length ≤ Text.utf8Length c.source.toList := by
  obtain ⟨⟨spans, same, tiled, -⟩, -⟩ := covers_of_read h
  calc c.blocks.length
      = (c.layout.nodes.filterMap LayoutNode.block?).length := by
        rw [numbered_of_read h, List.length_range]
    _ ≤ c.layout.nodes.length := List.length_filterMap_le _ _
    _ = spans.length := by simpa using congrArg List.length same
    _ ≤ Text.utf8Length c.source.toList := by
      have bound := tiled.length_le
      rw [Position.offset_start_advance] at bound
      exact Nat.le_trans (Nat.le_add_left _ _) bound

/-- The top level of a component that is read partitions its text. Each piece is
somewhere, none is empty, each begins where the one before it ends, and together
they are the text; there are none only if the text is empty. The pieces that are
blocks are numbered in order, and each block lies in the text with its content
inside. -/
theorem partition_of_read {o : ComponentOptions} {source : String} {c : Component}
    (h : Component.read o source = .ok c) :
    ∃ spans, c.layout.nodes.map c.spanOf? = spans.map some ∧
      Span.Tiles .start spans (Position.start.advance c.source.toList) ∧
      (∀ s ∈ spans, s.In c.source) ∧
      String.join (spans.map (·.text c.source)) = c.source ∧
      (c.layout.nodes = [] ↔ c.source = "") ∧
      c.layout.nodes.filterMap LayoutNode.block? = List.range c.blocks.length ∧
      ∀ b ∈ c.blocks, b.Placed c.source := by
  obtain ⟨⟨spans, same, tiled, within⟩, placed⟩ := covers_of_read h
  refine ⟨spans, same, tiled, within, ?_, ?_, numbered_of_read h, placed⟩
  · exact (tiled.join_text within (Position.start_in _)).trans (Span.text_whole _)
  · have empty : c.layout.nodes = [] ↔ spans = [] := by
      have := congrArg List.length same
      simp only [List.length_map] at this
      rw [← List.length_eq_zero_iff, ← List.length_eq_zero_iff, this]
    rw [empty, tiled.eq_nil_iff, Position.offset_start_advance]
    constructor
    · intro none
      exact String.toList_eq_nil_iff.mp (Text.utf8Length_eq_zero_iff.mp none.symm)
    · intro none
      rw [none]
      rfl

/-- A component with a script put in between two pieces. -/
theorem partition_of_read_inserted :
    ∃ (c : Component) (spans : List Span), Component.read {} "<template>é</template><p>" = .ok c ∧
      c.source = "<template>é</template>\n<script></script><p>" ∧
      c.layout.nodes.map c.spanOf? = spans.map some ∧
      String.join (spans.map (·.text c.source)) = c.source := by
  have evaluated : (Component.read {} "<template>é</template><p>").toOption.map (·.source) =
      some "<template>é</template>\n<script></script><p>" := by
    decide +kernel
  cases read : Component.read {} "<template>é</template><p>" with
  | error cause => simp [read, Except.toOption] at evaluated
  | ok c =>
    rw [read] at evaluated
    obtain ⟨spans, same, -, -, joined, -⟩ := partition_of_read read
    exact ⟨c, spans, rfl, Option.some.inj evaluated, same, joined⟩

end Component

end ComponentLoader
