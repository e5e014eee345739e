import ComponentLoader.Proofs.Loader.Entry

/-! Answers that are blocks. The query names the kind of the block and selects one of
them; what is handed out is the text of that block with its map, the module that
stands for its file, or its template compiled. -/
namespace ComponentLoader

namespace Extraction

variable {kind : BlockKind} {o : LoaderOptions} {query : Query} {path : String} {x : Extraction}

/-- What a query asks for is of the kind, for the path and with the options that are given. It alone
says which block is selected. -/
theorem fields_of_ofQuery (h : ofQuery kind o query path = .ok x) :
    x.kind = kind ∧ query.selector = .ok x.selector ∧ x.filename = path ∧ x.options = o := by
  obtain ⟨named, -, h⟩ := exists_of_bind h
  obtain ⟨selector, selected, h⟩ := exists_of_bind h
  cases h
  exact ⟨rfl, selected, rfl, rfl⟩

end Extraction

namespace Component

variable {c : Component} {x : Extraction} {r : Extracted} {b : Block}

theorem map_extractText (c : Component) (x : Extraction) :
    (c.select x.kind x.selector = none → (c.extractText x).map = none) ∧
      ∀ b, c.select x.kind x.selector = some b →
        (b.source?.isSome → (c.extractText x).map = none) ∧
        (b.source? = none → (c.extractText x).map = x.mapOf c b ∧
          ∀ t, (c.extractText x).code = .text t → t = c.contentOf b) := by
  unfold extractText
  cases c.select x.kind x.selector with
  | none => exact ⟨fun _ => rfl, nofun⟩
  | some b =>
    refine ⟨nofun, ?_⟩
    rintro _ ⟨⟩
    dsimp only
    cases b.source? with
    | none =>
      refine ⟨nofun, fun _ => ⟨rfl, ?_⟩⟩
      rintro t ⟨⟩
      rfl
    | some file => exact ⟨fun _ => rfl, nofun⟩

/-- A template that is handed out is one of the component. -/
theorem map_of_extractTemplate (h : c.extractTemplate x = .ok r) :
    ∃ b, c.select .template x.selector = some b ∧
      (b.source?.isSome → r.map = none) ∧
      (b.source? = none → r.map = x.mapOf c b ∧ ∀ t, r.code = .text t → t = c.contentOf b) := by
  unfold extractTemplate at h
  cases selected : c.select .template x.selector with
  | none =>
    rw [selected] at h
    cases h
  | some b =>
    refine ⟨b, rfl, ?_⟩
    simp only [selected] at h
    cases file : b.source? with
    | some file =>
      simp only [file] at h
      split at h
      · cases h
        exact ⟨fun _ => rfl, nofun⟩
      · cases h
    | none =>
      refine ⟨nofun, fun _ => ?_⟩
      simp only [file] at h
      split at h
      · cases h
        refine ⟨rfl, ?_⟩
        rintro t ⟨⟩
        rfl
      · split at h
        · cases h
        · obtain ⟨node, -, h⟩ := exists_of_bind h
          cases h
          refine ⟨rfl, fun t text => ?_⟩
          dsimp only at text
          split at text <;> cases text

/-- What comes with a block that is handed out: nothing where none is selected or its content is in
another file, and otherwise its map. Text that is handed out is the content. -/
theorem map_of_extract (h : c.extract x = .ok r) :
    (c.select x.kind x.selector = none → r.map = none) ∧
      ∀ b, c.select x.kind x.selector = some b →
        (b.source?.isSome → r.map = none) ∧
        (b.source? = none → r.map = x.mapOf c b ∧ ∀ t, r.code = .text t → t = c.contentOf b) := by
  unfold extract at h
  split at h
  · next template =>
    obtain ⟨b, selected, own⟩ := map_of_extractTemplate h
    rw [template, selected]
    refine ⟨nofun, ?_⟩
    rintro _ ⟨⟩
    exact own
  · cases h
    exact map_extractText c x

theorem mem_of_select {kind : BlockKind} {s : BlockSelector} (h : c.select kind s = some b) :
    b ∈ c.blocksOf kind := by
  unfold select BlockSelector.select at h
  split at h
  · exact List.mem_of_getElem? (Option.filter_eq_some_iff.mp h).1
  · exact List.mem_of_find?_eq_some h

end Component

namespace LoaderOptions

variable {o : LoaderOptions} {path source query : String} {r : Extracted}

/-- The query asks for a block in the way that is given: by a name of a kind, and with a selector
and a target that can be read. -/
def Asks (o : LoaderOptions) (path query : String) (x : Extraction) : Prop :=
  ∃ name kind, (Query.parse query).blockType? = some name ∧ BlockKind.ofName name = .ok kind ∧
    Extraction.ofQuery kind o (Query.parse query) path = .ok x

/-- An answer that is a block is handed out from the component in the way that the query asks
for. -/
theorem block_of_run (h : o.run path source query = .ok (.block r)) :
    ∃ c x, o.component path source = .ok c ∧ o.Asks path query x ∧ c.extract x = .ok r := by
  obtain ⟨c, read, h⟩ := exists_of_bind h
  dsimp only at h
  split at h
  · next name asked =>
    obtain ⟨kind, named, h⟩ := exists_of_bind h
    obtain ⟨x, extraction, h⟩ := exists_of_bind h
    obtain ⟨result, extracted, h⟩ := exists_of_bind h
    cases h
    exact ⟨c, x, read, ⟨name, kind, asked, named, extraction⟩, extracted⟩
  · obtain ⟨template, -, h⟩ := exists_of_bind h
    cases h

end LoaderOptions

end ComponentLoader
