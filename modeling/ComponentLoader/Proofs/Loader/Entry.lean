import ComponentLoader.Proofs.Component.Reading
import ComponentLoader.Proofs.Loader.Resolution
import Mathlib.Data.List.Forall2

/-! The requests of the entry module: which blocks they are made for, and that their
queries are read as requests for these blocks. -/
/-- A list and its elements with their places match if each element matches itself at
its place. -/
theorem List.forall₂_zipIdx {α : Type} {xs : List α} {R : α × Nat → α → Prop}
    (h : ∀ x i, xs[i]? = some x → R (x, i) x) :
    Forall₂ R xs.zipIdx xs := by
  have paired : List.Forall₂ R xs.zipIdx (xs.zipIdx.map Prod.fst) := by
    rw [List.forall₂_map_right_iff, List.forall₂_same]
    rintro ⟨x, i⟩ mem
    exact h x i (List.mem_zipIdx_iff_getElem?.mp mem)
  rwa [List.zipIdx_map_fst] at paired

namespace ComponentLoader

section Steps

variable {α β : Type}

/-- What is computed in two steps comes of a result of the first. -/
theorem exists_of_bind {x : Except LoadError α} {f : α → Except LoadError β} {b : β}
    (h : (x >>= f) = .ok b) : ∃ a, x = .ok a ∧ f a = .ok b := by
  cases x with
  | error e => cases h
  | ok a => exact ⟨a, rfl, h⟩

/-- What is computed in two steps goes wrong in the first, or in the second on a result of the
first. -/
theorem error_of_bind {x : Except LoadError α} {f : α → Except LoadError β} {e : LoadError}
    (h : (x >>= f) = .error e) : x = .error e ∨ ∃ a, x = .ok a ∧ f a = .error e := by
  cases x with
  | error e' => exact .inl (congrArg Except.error (Except.error.inj h))
  | ok a => exact .inr ⟨a, rfl, h⟩

end Steps

namespace Block

variable {b : Block}

theorem requests_styleQuery (h : b.kind = .style) (index : Nat) :
    (b.styleQuery index).Requests b index none := by
  have placed := BlockQuery.requests_ofBlock b index
  rw [h] at placed
  unfold styleQuery
  generalize (BlockQuery.ofBlock .style index).param "lang" b.language = q at placed ⊢
  have flagged : (if b.isScoped then q.flag "scoped" else q).Requests b index none := by
    split
    · exact placed.flag (by decide) (by decide)
    · exact placed
  apply BlockQuery.Requests.src
  cases b.moduleName? with
  | none => exact flagged
  | some name => exact flagged.param (by decide) (by decide) name

theorem requests_scriptQuery (h : b.kind = .script) : b.scriptQuery.Requests b 0 none := by
  have placed := BlockQuery.requests_ofBlock b 0
  rw [h] at placed
  exact placed.src b.source?

/-- The query for a template names its target, but for the text. -/
theorem requests_templateQuery (h : b.kind = .template) (target : Target) :
    (b.templateQuery target).Requests b 0 (if target = .source then none else some target) := by
  have placed := BlockQuery.requests_ofBlock b 0
  rw [h] at placed
  apply BlockQuery.Requests.src
  split
  · exact placed
  · exact placed.compileTemplate target

end Block

namespace Component

variable {c : Component} {kind : BlockKind} {b : Block}

theorem kind_of_mem_blocksOf (h : b ∈ c.blocksOf kind) : b.kind = kind :=
  eq_of_beq (List.mem_filter.mp h).2

theorem requests_importStyles (c : Component) (o : LoaderOptions) :
    (c.importStyles o).requests =
      c.styles.zipIdx.map fun (b, i) => (b.styleQuery i).request c.filename := by
  unfold importStyles
  split
  · next none => rw [none]; rfl
  · rfl

theorem requests_importScript (c : Component) (o : LoaderOptions) :
    (c.importScript o).requests =
      ((c.blocksOf .script).take 1).map fun b => b.scriptQuery.request c.filename := by
  unfold importScript script?
  cases c.blocksOf .script <;> rfl

/-- What the entry module does about the template. -/
theorem importTemplate_cases {o : LoaderOptions} {s : Snippet}
    (h : c.importTemplate o = .ok s) :
    s.requests = [] ∨ ∃ b t, c.template? = some b ∧ b.targetIn o = .ok t ∧
      b.isDeferred t = true ∧ s.requests = [(b.templateQuery t).request c.filename] := by
  unfold importTemplate at h
  split at h
  · cases h
    exact .inl rfl
  · next b found =>
    obtain ⟨t, chosen, h⟩ := exists_of_bind h
    split at h
    · next deferred =>
      cases h
      exact .inr ⟨b, t, found, chosen, deferred, rfl⟩
    · cases h
      exact .inl rfl

end Component

namespace LoaderOptions

variable {o : LoaderOptions} {path source : String} {c : Component}

theorem component_ok (h : o.component path source = .ok c) :
    Component.read ⟨path, .all, o.addScript⟩ source = .ok c := by
  unfold component at h
  cases read : Component.read ⟨path, .all, o.addScript⟩ source with
  | error cause =>
    rw [read] at h
    cases h
  | ok c' =>
    rw [read] at h
    cases h
    rfl

theorem filename_of_component (h : o.component path source = .ok c) : c.filename = path :=
  Component.filename_of_read (component_ok h)

/-- Without a query, an answer is the entry module, which is put together from its pieces and makes
their requests. -/
theorem entry_of_run {code : String} {requests : List String}
    (h : o.run path source "" = .ok (.entry code requests)) :
    ∃ c template, o.component path source = .ok c ∧ c.importTemplate o = .ok template ∧
      code = assemble o template.code (c.importStyles o).code (c.importScript o).code ∧
      requests = template.requests ++ (c.importStyles o).requests ++
        (c.importScript o).requests := by
  have noQuery : (Query.parse "").blockType? = none := by decide
  obtain ⟨c, read, h⟩ := exists_of_bind h
  simp only [noQuery, entry] at h
  obtain ⟨template, imported, h⟩ := exists_of_bind h
  cases h
  exact ⟨c, template, read, imported, rfl, rfl⟩

theorem requests_of_run {code : String} {requests : List String}
    (h : o.run path source "" = .ok (.entry code requests)) :
    ∃ c template, o.component path source = .ok c ∧ c.importTemplate o = .ok template ∧
      requests = template.requests ++ (c.importStyles o).requests ++
        (c.importScript o).requests := by
  obtain ⟨c, template, read, imported, -, made⟩ := entry_of_run h
  exact ⟨c, template, read, imported, made⟩

end LoaderOptions

end ComponentLoader
