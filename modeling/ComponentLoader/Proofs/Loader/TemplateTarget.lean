import ComponentLoader.Proofs.Loader.Uncompiled

/-! The target of a template that the entry module defers. The request names the
target unless it is the text, and a request without a target is answered with that of
the options. So the choice of the text is lost where the options have another target,
and as only a template that cannot be compiled is deferred as text, such a request is
refused. -/
namespace ComponentLoader

/-- Why a template is not compiled: its content is in another file, or not in HTML. -/
def Block.refusal (b : Block) : LoadError :=
  match b.source? with
  | some file => .compiledSource file
  | none => .compiledLanguage b.language

namespace Component

variable {c : Component} {b : Block} {x : Extraction}

theorem extractTemplate_refused (selected : c.select .template x.selector = some b)
    (language : x.selector.language.getD b.language = b.language)
    (deferred : b.source?.isSome ∨ b.language ≠ "html") (h : x.target ≠ .source) :
    c.extractTemplate x = .error b.refusal := by
  simp only [extractTemplate, selected, if_neg h, Block.refusal, language]
  cases file : b.source? with
  | none =>
    have foreign : b.language ≠ "html" := by simpa [file] using deferred
    simp only [if_pos foreign]
    rfl
  | some file => rfl

end Component

namespace LoaderOptions

variable {o : LoaderOptions} {path source : String}

/-- A request for the template is answered with the target that the entry module has
chosen, unless this is the text and the options have another. The text is answered as
it is where the options have no other target, and refused where they have. -/
theorem target_of_template_request {code : String} {requests : List String}
    (plain : '?' ∉ path.toList) (h : o.run path source "" = .ok (.entry code requests)) :
    ∃ c templates, o.component path source = .ok c ∧
      requests = templates ++ (c.importStyles o).requests ++ (c.importScript o).requests ∧
      ∀ r ∈ templates, ∃ b t query x, c.template? = some b ∧ b.targetIn o = .ok t ∧
        splitRequest r = (path, query) ∧
        Extraction.ofQuery .template o (Query.parse query) path = .ok x ∧
        c.select .template x.selector = some b ∧ o.resolve r source = c.extractTemplate x ∧
        (x.target = t ↔ t ≠ .source ∨ o.target = .source) ∧
        (t = .source → o.target = .source → o.Delivers source r c b) ∧
        (t = .source → o.target ≠ .source → o.resolve r source = .error b.refusal) := by
  obtain ⟨c, template, read, imported, rfl⟩ := requests_of_run h
  have name : c.filename = path := filename_of_component read
  refine ⟨c, template.requests, read, rfl, ?_⟩
  rcases Component.importTemplate_cases imported with none | ⟨b, t, first, chosen, deferred, one⟩
  · simp [none]
  obtain ⟨rest, listed⟩ := List.head?_eq_some_iff.mp first
  have kind : b.kind = .template := Component.kind_of_mem_blocksOf (List.mem_of_mem_head? first)
  have asks := Block.requests_templateQuery kind t
  generalize asked : (if t = .source then none else some t) = named at asks
  have selected : c.select .template (.ofBlock b 0) = some b :=
    BlockSelector.select_ofBlock (by simp [listed])
  have resolved : o.resolve ((b.templateQuery t).request path) source =
      c.extractTemplate (.ofBlock o path b 0 named) :=
    (resolve_of_requests asks plain read (Nat.zero_le _)).trans (if_pos kind)
  rw [one, name]
  intro r mem
  obtain rfl := List.mem_singleton.mp mem
  refine ⟨b, t, _, .ofBlock o path b 0 named, first, chosen, asks.marked.splitRequest plain,
    kind ▸ asks.asks.ofQuery (Nat.zero_le _) o path, selected, resolved, ?_, ?_, ?_⟩
  · subst asked
    by_cases text : t = .source <;> simp [Extraction.ofBlock, text]
  · rintro rfl unchanged
    subst asked
    obtain ⟨y, extracted, code⟩ := Component.extractTemplate_source
      (x := .ofBlock o path b 0 none) selected kind unchanged
    have inside : b ∈ c.blocks := List.mem_of_mem_filter (List.mem_of_mem_head? first)
    exact delivers_of_plainCode read inside (resolved.trans extracted) code
  · rintro rfl other
    rw [resolved]
    subst asked
    refine Component.extractTemplate_refused selected (BlockSelector.language_ofBlock b 0) ?_ other
    simpa [Block.isDeferred, BlockKind.defaultLanguage] using deferred

/-- A template that is to stay text, which the target of the options keeps from being
answered. -/
theorem target_of_template_request_lost :
    let o : LoaderOptions := { target := .pack, addScript := false }
    let source := "<template compileTemplate='none' lang='pug'>p</template>"
    let request := "App.san?san&type=template&index=0&lang=pug"
    ∃ (code : String) (b : Block), o.run "App.san" source "" = .ok (.entry code [request]) ∧
      b.targetIn o = .ok .source ∧ o.resolve request source = .error (.compiledLanguage "pug") := by
  intro o source request
  have answered : (match o.run "App.san" source "" with
      | .ok (.entry _ requests) => some requests
      | _ => none) = some [request] := by
    decide +kernel
  have inside : (o.component "App.san" source).toOption.map (fun c =>
      ((c.importStyles o).requests ++ (c.importScript o).requests,
        c.template?.map fun b => ((b.targetIn o).toOption, b.refusal))) =
      some ([], some (some .source, .compiledLanguage "pug")) := by
    decide +kernel
  split at answered
  · next code made answer =>
    cases answered
    obtain ⟨c, templates, read, parts, resolved⟩ :=
      target_of_template_request (by decide) answer
    simp only [read, Except.toOption, Option.map_some, Option.some.injEq, Prod.mk.injEq] at inside
    obtain ⟨nothingElse, template⟩ := inside
    rw [List.append_assoc, nothingElse, List.append_nil] at parts
    obtain ⟨b, t, query, x, first, chosen, -, -, -, -, -, -, refused⟩ :=
      resolved request (by simp [← parts])
    obtain ⟨rfl, refusal⟩ : t = .source ∧ b.refusal = .compiledLanguage "pug" := by
      simpa only [first, chosen, Option.map_some, Option.some.injEq, Prod.mk.injEq] using template
    exact ⟨code, b, answer, chosen, (refused rfl (by decide)).trans (congrArg _ refusal)⟩
  · cases answered

end LoaderOptions

end ComponentLoader
