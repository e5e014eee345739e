import ComponentLoader.Proofs.Loader.Uncompiled

/-! The requests of the entry module lead back to the blocks that it takes in. The
file is read again for each of them, as it was read for the entry module, so the
place of a block among those of its kind is the same. -/
namespace List

theorem getElem?_zero_of_mem_take {α : Type} {xs : List α} {x : α} (h : x ∈ xs.take 1) :
    xs[0]? = some x := by
  cases xs with
  | nil => cases h
  | cons y ys => simpa using (mem_singleton.mp h).symm

end List

namespace ComponentLoader

/-- The bytes of a text in memory are counted by a signed number of 64 bits. -/
def Text.maxBytes : Nat := 0x7FFFFFFFFFFFFFFF

namespace LoaderOptions

variable {o : LoaderOptions} {path source request : String} {c : Component} {b : Block}
  {index : Nat} {target : Option Target}

/-- A request is for a file, and its query picks a block of the component there. -/
def Picks (o : LoaderOptions) (path : String) (c : Component) (request : String) (b : Block) :
    Prop :=
  ∃ query x, splitRequest request = (path, query) ∧
    (Query.parse query).blockType? = some b.kind.tag ∧
    Extraction.ofQuery b.kind o (Query.parse query) path = .ok x ∧
    c.select x.kind x.selector = some b

theorem picks_of_requests {q : BlockQuery} (h : q.Requests b index target)
    (plain : '?' ∉ path.toList) (small : index ≤ Query.maxIndex)
    (listed : (c.blocksOf b.kind)[index]? = some b) : o.Picks path c (q.request path) b :=
  ⟨q.text, .ofBlock o path b index target, h.marked.splitRequest plain, h.asks.blockType?,
    h.asks.ofQuery small o path, BlockSelector.select_ofBlock listed⟩

theorem delivers_of_requests {q : BlockQuery} (h : q.Requests b index target)
    (plain : '?' ∉ path.toList) (read : o.component path source = .ok c)
    (small : index ≤ Query.maxIndex) (listed : (c.blocksOf b.kind)[index]? = some b)
    (uncompiled : b.kind ≠ .template) : o.Delivers source (q.request path) c b := by
  have answer : o.resolve (q.request path) source =
      .ok (c.extractText (.ofBlock o path b index target)) :=
    (resolve_of_requests h plain read small).trans (if_neg uncompiled)
  exact delivers_of_plainCode read (List.mem_of_mem_filter (List.mem_of_getElem? listed)) answer
    (Component.code_extractText (BlockSelector.select_ofBlock listed) rfl)

theorem index_le {kind : BlockKind} (read : o.component path source = .ok c)
    (fits : Text.utf8Length source.toList ≤ Text.maxBytes)
    (listed : (c.blocksOf kind)[index]? = some b) : index ≤ Query.maxIndex := by
  obtain ⟨inside, -⟩ := List.getElem?_eq_some_iff.mp listed
  have placeholder : Text.utf8Length Component.scriptPlaceholder.toList = 18 := by decide +kernel
  calc index
      ≤ (c.blocksOf kind).length := Nat.le_of_lt inside
    _ ≤ c.blocks.length := List.length_filter_le _ _
    _ ≤ Text.utf8Length c.source.toList := Component.length_blocks_le (component_ok read)
    _ ≤ Text.utf8Length source.toList + 18 :=
      placeholder ▸ Component.utf8Length_source_le (component_ok read)
    _ ≤ Query.maxIndex := by
      unfold Text.maxBytes at fits
      unfold Query.maxIndex
      omega

/-- The requests of the entry module are one for the first template, unless it is
taken in as it is, one for each style in order, and one for the first script. Each
of them picks the block that it is made for. Those for styles and the script are
answered with what is written in the block, or with a line that quotes the file
that its start tag names. A file that fits into memory has no more blocks than
there are indices. -/
theorem requests_pick_blocks {code : String} {requests : List String}
    (plain : '?' ∉ path.toList) (fits : Text.utf8Length source.toList ≤ Text.maxBytes)
    (h : o.run path source "" = .ok (.entry code requests)) :
    ∃ c templates styles scripts, o.component path source = .ok c ∧
      requests = templates ++ styles ++ scripts ∧
      (templates = [] ∨ List.Forall₂ (o.Picks path c) templates
        ((c.blocks.filter (·.kind == .template)).take 1)) ∧
      List.Forall₂ (fun r b => o.Picks path c r b ∧ o.Delivers source r c b) styles
        (c.blocks.filter (·.kind == .style)) ∧
      List.Forall₂ (fun r b => o.Picks path c r b ∧ o.Delivers source r c b) scripts
        ((c.blocks.filter (·.kind == .script)).take 1) := by
  obtain ⟨c, template, read, imported, rfl⟩ := requests_of_run h
  have name : c.filename = path := filename_of_component read
  refine ⟨c, _, _, _, read, rfl, ?_, ?_, ?_⟩
  · rcases Component.importTemplate_cases imported with none | ⟨b, t, first, -, -, one⟩
    · exact .inl none
    · obtain ⟨rest, listed⟩ := List.head?_eq_some_iff.mp first
      have kind : b.kind = .template :=
        Component.kind_of_mem_blocksOf (List.mem_of_mem_head? first)
      have only : (c.blocks.filter (·.kind == .template)).take 1 = [b] :=
        congrArg (List.take 1) listed
      rw [one, only, name]
      refine .inr (.cons ?_ .nil)
      exact picks_of_requests (Block.requests_templateQuery kind t) plain (Nat.zero_le _)
        (by simp [kind, listed])
  · rw [Component.requests_importStyles, List.forall₂_map_left_iff, name]
    refine List.forall₂_zipIdx fun b i listed => ?_
    have kind : b.kind = .style := Component.kind_of_mem_blocksOf (List.mem_of_getElem? listed)
    have small : i ≤ Query.maxIndex := index_le read fits listed
    have asks := Block.requests_styleQuery kind i
    rw [Component.styles, ← kind] at listed
    exact ⟨picks_of_requests asks plain small listed,
      delivers_of_requests asks plain read small listed (by simp [kind])⟩
  · change List.Forall₂ _ _ ((c.blocksOf .script).take 1)
    rw [Component.requests_importScript, List.forall₂_map_left_iff, List.forall₂_same, name]
    intro b mem
    have kind : b.kind = .script := Component.kind_of_mem_blocksOf (List.mem_of_mem_take mem)
    have listed : (c.blocksOf b.kind)[0]? = some b := by
      rw [kind]
      exact List.getElem?_zero_of_mem_take mem
    have asks := Block.requests_scriptQuery kind
    exact ⟨picks_of_requests asks plain (Nat.zero_le _) listed,
      delivers_of_requests asks plain read (Nat.zero_le _) listed (by simp [kind])⟩

/-- A component whose attributes hold what separates the parts of a query. -/
theorem requests_pick_blocks_separators :
    let source :=
      "<style lang='a&b'>p\x7b\x7d</style><style src='é=+%.css' module/><script lang=''/>"
    let requests := ["A.san?san&type=style&index=0&lang=a%26b",
      "A.san?san&type=style&index=1&lang=css&module=%24style&src=%C3%A9%3D%2B%25.css",
      "A.san?san&type=script&index=0&lang="]
    ∃ code c templates styles scripts, run {} "A.san" source "" = .ok (.entry code requests) ∧
      requests = templates ++ styles ++ scripts ∧
      List.Forall₂ (fun r b => Picks {} "A.san" c r b ∧ Delivers {} source r c b) styles
        (c.blocks.filter (·.kind == .style)) ∧
      List.Forall₂ (fun r b => Picks {} "A.san" c r b ∧ Delivers {} source r c b) scripts
        ((c.blocks.filter (·.kind == .script)).take 1) ∧
      requests.map (fun r => (resolve {} r source).toOption.bind (·.code.text?)) =
        [some "p\x7b\x7d", some "@import \"é=+%.css\";\n", some ""] := by
  intro source requests
  have evaluated : (match run {} "A.san" source "" with
      | .ok (.entry _ requests) => some requests
      | _ => none) = some requests := by
    decide +kernel
  split at evaluated
  · next code made answer =>
    cases evaluated
    obtain ⟨c, templates, styles, scripts, -, parts, -, forStyles, forScript⟩ :=
      requests_pick_blocks (by decide) (by decide +kernel) answer
    exact ⟨code, c, templates, styles, scripts, answer, parts, forStyles, forScript,
      by decide +kernel⟩
  · cases evaluated

end LoaderOptions

end ComponentLoader
