import ComponentLoader.Proofs.Loader.BlockAnswer
import ComponentLoader.Proofs.Template.Trimming

/-! The trees that a template is compiled to with and without the properties of its root. The root
that is filled is read with the options of the loader. The bare root around all nodes is not: texts
keep their space there, and interpolations have the usual delimiters. -/
namespace ComponentLoader

namespace Template.Node

def asRoot (n : Node) : Node :=
  (if n.tag = some "template" then { n with tag := none } else n).fill

theorem fill_componentRoot {root first : Node} (here : root.children.head? = some first)
    (element : first.isText = false) : root.componentRoot.fill = first.asRoot := by
  obtain ⟨rest, listed⟩ := List.head?_eq_some_iff.mp here
  simp only [componentRoot, asRoot, listed, element, Bool.false_eq_true, if_false]

theorem children_fillProperty (n : Node) (name : String) (filter : Option String) :
    (n.fillProperty name filter).children = n.children := by
  unfold fillProperty
  split <;> rfl

theorem children_fill (n : Node) : n.fill.children = n.children := by
  simp only [fill, rootProperties, List.foldl_cons, List.foldl_nil, children_fillProperty]

/-- The root of a component has the children of the element. -/
theorem children_asRoot (n : Node) : n.asRoot.children = n.children := by
  rw [asRoot, children_fill]
  split <;> rfl

end Template.Node

theorem Template.Parsed.node_of_checked {p : Parsed} {n : Node} (h : p.checked = .ok n) :
    n = p.node := by
  unfold checked at h
  split at h
  · exact (Except.ok.inj h).symm
  · cases h

theorem Template.node_parseComponent (o : Template.Options) (source : String) :
    (parseComponent o true source).node = (parse o source).node.componentRoot.fill := by
  simp only [parseComponent, if_true]

section Compile

variable {x : Extraction} {c : Component} {b : Block} {node : Template.Node}

theorem parsed_of_compileTemplate (h : compileTemplate x c b = .ok node) :
    node = if x.options.fillRoot then
        (Template.parse x.options.templateOptions (c.contentOf b)).node.componentRoot.fill
      else (Template.parse {} (c.contentOf b)).node := by
  unfold compileTemplate at h
  dsimp only at h
  split at h
  · next whole =>
    obtain rfl := Except.ok.inj h
    rw [Template.Parsed.node_of_checked whole, apply_ite Template.Parsed.node,
      Template.node_parseComponent]
  · cases h

/-- A tree is handed out for the content of a template that is selected. -/
theorem Component.compileTemplate_of_extract {map : Option SourceMap}
    (h : c.extract x = .ok ⟨.tree node, map⟩) :
    ∃ b, c.select .template x.selector = some b ∧ compileTemplate x c b = .ok node := by
  unfold extract at h
  split at h
  · unfold extractTemplate at h
    cases selected : c.select .template x.selector with
    | none =>
      rw [selected] at h
      cases h
    | some b =>
      refine ⟨b, rfl, ?_⟩
      simp only [selected] at h
      split at h
      · split at h <;> cases h
      · split at h
        · cases h
        · split at h
          · cases h
          · obtain ⟨tree, compiled, h⟩ := exists_of_bind h
            obtain ⟨code, -⟩ := Extracted.mk.inj (Except.ok.inj h)
            split at code
            · cases code
            · rw [compiled, BlockCode.tree.inj code]
  · have text := Except.ok.inj h
    unfold extractText at text
    split at text
    · cases text
    · split at text <;> cases text

end Compile

namespace LoaderOptions

variable {o : LoaderOptions} {path source query : String} {filled wrapper node : Template.Node}
  {map map' : Option SourceMap}

/-- An answer that is a tree is compiled from a template of the component, which the query
selects. -/
theorem tree_of_run (h : o.run path source query = .ok (.block ⟨.tree node, map⟩)) :
    ∃ c x b, o.component path source = .ok c ∧ (Query.parse query).selector = .ok x.selector ∧
      x.options = o ∧ c.select .template x.selector = some b ∧
      compileTemplate x c b = .ok node := by
  obtain ⟨c, x, read, ⟨name, kind, -, -, extraction⟩, extracted⟩ := block_of_run h
  obtain ⟨-, selector, -, options⟩ := Extraction.fields_of_ofQuery extraction
  obtain ⟨b, selected, compiled⟩ := Component.compileTemplate_of_extract extracted
  exact ⟨c, x, b, read, selector, options, selected, compiled⟩

/-- A template that is compiled with its root filled and without. Filled, the tree is the root of
the template as the options say to read it. Else it holds all nodes of the template as the
usual options say to read it, whatever those of the loader are. With the usual delimiters the
two differ in more than the root where texts are trimmed: the root is then made from the
first of the nodes with the texts in it trimmed, and from that node itself where they are not. -/
theorem fill_changes_root
    (on : { o with fillRoot := true }.run path source query = .ok (.block ⟨.tree filled, map⟩))
    (off : { o with fillRoot := false }.run path source query =
      .ok (.block ⟨.tree wrapper, map'⟩)) :
    ∃ c b plain, o.component path source = .ok c ∧ b ∈ c.blocksOf .template ∧
      filled = (Template.parse o.templateOptions (c.contentOf b)).node.componentRoot.fill ∧
      wrapper = (Template.parse {} (c.contentOf b)).node ∧
      plain = (Template.parse ⟨.keep, o.delimiters⟩ (c.contentOf b)).node ∧
      (o.delimiters = {} → plain = wrapper) ∧
      ∀ first, plain.children.head? = some first → first.isText = false →
        ∃ first', Template.Trimmed o.trim o.delimiters [first] [first'] ∧
          filled = first'.asRoot ∧ (o.trim = .keep → first' = first) := by
  obtain ⟨c, x, b, read, selector, options, selected, compiled⟩ := tree_of_run on
  obtain ⟨c', x', b', read', selector', options', selected', compiled'⟩ := tree_of_run off
  obtain rfl : c = c' := Except.ok.inj (read.symm.trans read')
  have same : x.selector = x'.selector := Except.ok.inj (selector.symm.trans selector')
  obtain rfl : b = b' := by
    rw [← same, selected] at selected'
    exact Option.some.inj selected'
  have whole := parsed_of_compileTemplate compiled
  have given : templateOptions { o with fillRoot := true } = o.templateOptions := rfl
  rw [options, if_pos rfl, given] at whole
  have bare := parsed_of_compileTemplate compiled'
  rw [options', if_neg Bool.false_ne_true] at bare
  refine ⟨c, b, (Template.parse ⟨.keep, o.delimiters⟩ (c.contentOf b)).node, read,
    Component.mem_of_select selected, whole, bare, rfl, ?_, ?_⟩
  · intro usual
    rw [usual]
    exact bare.symm
  · intro first here element
    obtain ⟨first', here', element', trimmed⟩ :=
      Template.trimmed_parse o.trim o.delimiters here element
    refine ⟨first', trimmed, ?_, ?_⟩
    · rw [← Template.Node.fill_componentRoot here' element']
      exact whole
    · intro keep
      rw [keep] at trimmed
      exact List.singleton_inj.mp trimmed.eq_of_keep

/-- A blank text in the root, which is left out of the filled root but not of the bare one. The
first of its nodes, made the root of a component, is another tree. -/
theorem fill_changes_root_and_texts :
    let o : LoaderOptions := { target := .tree, addScript := false, trim := .all }
    let source := "<template><p> </p></template>"
    let query := "?san&type=template"
    ∃ filled wrapper first first' : Template.Node,
      { o with fillRoot := true }.run "App.san" source query =
        .ok (.block ⟨.tree filled, none⟩) ∧
      { o with fillRoot := false }.run "App.san" source query =
        .ok (.block ⟨.tree wrapper, none⟩) ∧
      wrapper.children.head? = some first ∧ first.isText = false ∧
      filled ≠ first.asRoot ∧ filled = first'.asRoot ∧
      Template.Trimmed .all {} [first] [first'] := by
  intro o source query
  have on : (match { o with fillRoot := true }.run "App.san" source query with
      | .ok (.block ⟨.tree filled, none⟩) => some (filled.children.map (·.isText))
      | _ => none) = some [] := by
    decide +kernel
  have off : (match { o with fillRoot := false }.run "App.san" source query with
      | .ok (.block ⟨.tree wrapper, none⟩) =>
        some (wrapper.children.map fun n => (n.isText, n.children.map (·.isText)))
      | _ => none) = some [(false, [true])] := by
    decide +kernel
  split at on
  · next filled answered =>
    split at off
    · next wrapper answered' =>
      obtain ⟨c, b, plain, -, -, -, -, -, usual, same⟩ := fill_changes_root answered answered'
      obtain ⟨first, listed, rest⟩ := List.map_eq_singleton_iff.mp (Option.some.inj off)
      obtain ⟨element, inner⟩ := Prod.mk.inj rest
      have here : wrapper.children.head? = some first := congrArg List.head? listed
      rw [← usual rfl] at here
      obtain ⟨first', trimmed, root, -⟩ := same first here element
      rw [usual rfl] at here
      refine ⟨filled, wrapper, first, first', answered, answered', here, element, ?_, root,
        trimmed⟩
      intro untouched
      have empty := List.map_eq_nil_iff.mp (Option.some.inj on)
      rw [untouched, Template.Node.children_asRoot] at empty
      rw [empty] at inner
      cases inner
    · cases off
  · cases on

end LoaderOptions

end ComponentLoader
