import ComponentLoader.Proofs.Component.Partition
import ComponentLoader.Proofs.Loader.BlockAnswer
import ComponentLoader.Proofs.SourceMap.BlockMap

/-! What the map of an answer says. Text is handed out as it stands in the text of the
component, which the map holds, and each of its lines is where the map places it. -/
namespace ComponentLoader

namespace LoaderOptions

variable {o : LoaderOptions} {path source query : String} {r : Extracted}

/-- With maps, text that is handed out comes with one, which holds the text of the component. The
lines of what is handed out are where the map says: the first one begins in the column that is
recorded, and the others begin with their line. Nothing comes with a module that stands for a file
or where no block is selected. A text in memory is shorter than 2 ^ 63 bytes; places that cannot be
written lie past 2 ^ 62 of them. -/
theorem map_places_text (answered : o.run path source query = .ok (.block r))
    (maps : o.sourceMap = true) :
    ∃ c x, o.component path source = .ok c ∧ o.Asks path query x ∧
      (c.select x.kind x.selector = none → r.map = none) ∧
      ∀ b, c.select x.kind x.selector = some b →
        (b.source?.isSome → r.map = none) ∧
        ∀ t, b.source? = none → r.code = .text t →
          t = c.contentOf b ∧ ∃ m, r.map = some m ∧ m.sourcesContent = [c.source] ∧
            (Text.utf8Length c.source.toList < 2 ^ 63 →
              SourceMap.Writable c.source b.content.start →
              ∀ k, 1 ≤ k → k ≤ (Text.lines t.toList).length →
                ∃ line number column before more, Text.line? t.toList k = some line ∧
                  SourceMap.sourcePosition? m.mappings k = some (number, column) ∧
                  Text.line? c.source.toList number = some (before ++ line ++ more) ∧
                  (k = 1 → Text.utf16Length before = column) ∧ (1 < k → before = [])) := by
  obtain ⟨c, x, read, asks, extracted⟩ := block_of_run answered
  obtain ⟨none, selected⟩ := Component.map_of_extract extracted
  refine ⟨c, x, read, asks, none, ?_⟩
  intro b picked
  obtain ⟨forwarded, plain⟩ := selected b picked
  refine ⟨forwarded, ?_⟩
  intro t inFile text
  obtain ⟨map, content⟩ := plain inFile
  have own : x.mapOf c b = some (.ofBlock x.filename c.source b.content.start) := by
    obtain ⟨name, kind, -, -, extraction⟩ := asks
    obtain ⟨-, -, -, options⟩ := Extraction.fields_of_ofQuery extraction
    rw [Extraction.mapOf, options, if_pos maps]
  refine ⟨content t text, _, map.trans own, rfl, ?_⟩
  intro held writable k positive within
  have inside : b ∈ c.blocks := (List.mem_filter.mp (Component.mem_of_select picked)).1
  have placed := (Component.covers_of_read (component_ok read)).2 b inside
  obtain ⟨before, part, after, parts, own, slice⟩ := placed.exists_parts
  have start := congrArg Span.start own
  have said : t.toList = part := by
    rw [content t text, Component.contentOf, slice, String.toList_ofList]
  rw [said] at within ⊢
  rw [start] at writable ⊢
  obtain ⟨n, rfl⟩ : ∃ n, k = n + 1 := ⟨k - 1, by omega⟩
  obtain ⟨line, found⟩ : ∃ line, (Text.lines part)[n]? = some line :=
    ⟨_, List.getElem?_eq_getElem within⟩
  obtain ⟨more, position, whole⟩ :=
    SourceMap.sourcePosition?_ofBlock x.filename parts writable held found
  refine ⟨line, _, _, _, more, found, position, whole, ?_, ?_⟩
  · intro first
    obtain rfl : n = 0 := Nat.succ_injective first
    rfl
  · intro later
    exact if_neg (by omega)

/-- A style of two lines. The first one begins in column 22 of the second line of the component, in
which a letter takes one unit and an emoji two. -/
theorem map_places_text_of_style :
    let o : LoaderOptions := { sourceMap := true }
    let source := "\n<i>é</i><style a=\"😀\">b\x7b\n\x7d</style>"
    let whole := source ++ "\n<script></script>"
    let m : SourceMap := ⟨3, "App.san", ["App.san"], [whole], [], "AACsB"⟩
    o.run "App.san" source "?san&type=style" = .ok (.block ⟨.text "b\x7b\n\x7d", some m⟩) ∧
      SourceMap.sourcePosition? m.mappings 1 = some (2, 22) ∧
      SourceMap.sourcePosition? m.mappings 2 = some (3, 22) ∧
      ∀ k, 1 ≤ k → k ≤ 2 →
        ∃ line number column before more, Text.line? "b\x7b\n\x7d".toList k = some line ∧
          SourceMap.sourcePosition? m.mappings k = some (number, column) ∧
          Text.line? whole.toList number = some (before ++ line ++ more) ∧
          (k = 1 → Text.utf16Length before = column) ∧ (1 < k → before = []) := by
  intro o source whole m
  have made : (match o.run "App.san" source "?san&type=style" with
      | .ok (.block r) => some (r.code.text?, r.map)
      | _ => none) = some (some "b\x7b\n\x7d", some m) := by
    decide +kernel
  split at made
  · next r answered =>
    obtain ⟨code, map⟩ := r
    obtain ⟨text, rfl⟩ := Prod.mk.inj (Option.some.inj made)
    cases code with
    | tree node => cases text
    | packed pack => cases text
    | text t =>
      obtain rfl : t = "b\x7b\n\x7d" := Option.some.inj text
      refine ⟨answered, by decide +kernel, by decide +kernel, ?_⟩
      obtain ⟨c, x, read, -, none, selected⟩ := map_places_text answered rfl
      cases picked : c.select x.kind x.selector with
      | none => cases none picked
      | some b =>
        obtain ⟨forwarded, places⟩ := selected b picked
        cases file : b.source? with
        | some f => cases forwarded (by rw [file]; rfl)
        | none =>
          obtain ⟨-, m', same, held, lines⟩ := places _ file rfl
          obtain rfl : m = m' := Option.some.inj same
          have own : c.source = whole := (List.cons.inj held).1.symm
          have short : Text.utf8Length c.source.toList < 2 ^ 62 := by
            rw [own]
            decide +kernel
          have inside : b ∈ c.blocks := (List.mem_filter.mp (Component.mem_of_select picked)).1
          have placed := (Component.covers_of_read (component_ok read)).2 b inside
          rw [← own]
          exact lines (by omega) (SourceMap.writable_of_lt placed.content.1 short)
  · cases made

end LoaderOptions

end ComponentLoader
