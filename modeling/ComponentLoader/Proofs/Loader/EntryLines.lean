import ComponentLoader.Proofs.Component.Written
import ComponentLoader.Proofs.Json.CodeLines
import ComponentLoader.Proofs.Loader.Entry
import Mathlib.Data.List.Forall2

/-! The lines of the entry module. How many there are, and what code is in them, comes of whether
modules are objects, of the styles and which of them have a name for their classes, and of whether
there are a template and a script. Every text that is taken from the component, its path or the
options is in a literal, and stands for itself there. A template that is in a literal is what the
component has between the tags of its first one. -/
namespace ComponentLoader

open Component (styleBinding)

/-- How the entry module takes in the template. -/
inductive TemplateForm where
  | absent
  | inline (content : String)
  | deferred (request : String)

/-- The texts in the literals of an entry module. A style has a request and, if it has one, the
name for its classes. -/
structure EntryTexts where
  normalize : String
  styles : List (String × Option String)
  template : TemplateForm
  script : Option String

def importLine (esModule : Bool) (binding request : String) : List Piece :=
  if esModule then
    Piece.ofCode ("import " ++ binding ++ " from ") ++ .literal request :: Piece.ofCode ";"
  else Piece.ofCode ("var " ++ binding ++ " = require(") ++ .literal request :: Piece.ofCode ");"

def moduleLine (index : Nat) (name : String) : List Piece :=
  Piece.ofCode "    this[" ++ .literal name ::
    Piece.ofCode ("] = " ++ ("style" ++ toString index) ++ ";")

def exportLine (esModule : Bool) : List Piece :=
  Piece.ofCode ((if esModule then "export default " else "module.exports.default = ") ++
    "normalize(script, template, injectStyles);")

def returnLine (count : Nat) : List Piece :=
  Piece.ofCode
    ("    return [" ++
      String.intercalate ", " ((List.range count).map fun i => "style" ++ toString i) ++ "];")

/-- The name that a style has for its classes: the value of its attribute for it, and a name of its
own where the attribute has no value. -/
inductive Block.ModuleName (b : Block) : Option String → Prop
  | given {name : String} (value : b.HasValue "module" name) : b.ModuleName (some name)
  | usual (bare : ⟨"module", none⟩ ∈ b.attributes) : b.ModuleName (some "$style")
  | none (missing : ∀ a ∈ b.attributes, a.name ≠ "module") : b.ModuleName none

namespace TemplateForm

def requests : TemplateForm → List String
  | deferred request => [request]
  | _ => []

def line (esModule : Bool) : TemplateForm → List Piece
  | absent => Piece.ofCode "var template = null;"
  | inline content => Piece.ofCode "var template = " ++ .literal content :: Piece.ofCode ";"
  | deferred request => importLine esModule "template" request

/-- The form that the template of a component has in the entry module. The first template is taken
in as it is written if it is in the component, in HTML and not to be compiled. -/
inductive Of (o : LoaderOptions) (c : Component) : TemplateForm → Prop
  | absent (missing : ∀ b ∈ c.blocks, b.kind ≠ .template) : Of o c absent
  | inline {b : Block} {content : String}
      (found : (c.blocks.filter (·.kind == .template)).head? = some b)
      (here : ∀ file, ¬ b.HasValue "src" file) (hypertext : b.language = "html")
      (plain : b.targetIn o = .ok .source) (between : b.Contains c.source content) :
      Of o c (inline content)
  | deferred {b : Block} {target : Target}
      (found : (c.blocks.filter (·.kind == .template)).head? = some b)
      (chosen : b.targetIn o = .ok target)
      (apart : (∃ file, b.HasValue "src" file) ∨ b.language ≠ "html" ∨ target ≠ .source)
      (request : String) : Of o c (deferred request)

end TemplateForm

namespace EntryTexts

def requests (t : EntryTexts) : List String :=
  t.template.requests ++ t.styles.map Prod.fst ++ t.script.toList

def styleLines (esModule : Bool) (styles : List (String × Option String)) : List (List Piece) :=
  if styles.isEmpty then [Piece.ofCode "var injectStyles = null;"]
  else
    (styles.zipIdx.map fun (style, i) => importLine esModule ("style" ++ toString i) style.1) ++
      Piece.ofCode "var injectStyles = function () \x7b" ::
      (styles.zipIdx.flatMap fun (style, i) => (style.2.map (moduleLine i)).toList) ++
      [returnLine styles.length, Piece.ofCode "\x7d;"]

def scriptLines (esModule : Bool) : Option String → List (List Piece)
  | none => [Piece.ofCode "var script = \x7b\x7d;"]
  | some request =>
    importLine esModule "script" request ::
      if esModule then []
      else [Piece.ofCode "script = script.__esModule ? script.default : script;"]

/-- The lines of an entry module. The last is that after the last line break, in which there is
nothing. -/
def lines (esModule : Bool) (t : EntryTexts) : List (List Piece) :=
  importLine esModule "normalize" t.normalize ::
    styleLines esModule t.styles ++ t.template.line esModule :: scriptLines esModule t.script ++
    [exportLine esModule, Piece.ofCode "/* san-hmr component */", []]

/-- The texts that the entry module of a component is to have in its literals. -/
structure Of (o : LoaderOptions) (c : Component) (t : EntryTexts) : Prop where
  normalize : t.normalize = o.normalizePath
  modules : List.Forall₂ (fun style b => b.ModuleName style.2) t.styles
    (c.blocks.filter (·.kind == .style))
  template : t.template.Of o c
  script : t.script.isSome = c.blocks.any (·.kind == .script)

end EntryTexts

theorem Block.moduleName_moduleName? {b : Block}
    (distinct : (b.attributes.map (·.name)).Nodup) : b.ModuleName b.moduleName? := by
  rw [moduleName?]
  cases found : b.attribute? "module" with
  | none =>
    refine .none fun a listed named => ?_
    rw [(attribute?_eq_some_iff distinct).mpr ⟨listed, named⟩] at found
    cases found
  | some a =>
    obtain ⟨listed, named⟩ := (attribute?_eq_some_iff distinct).mp found
    obtain ⟨name, value⟩ := a
    obtain rfl : name = "module" := named
    cases value with
    | none => exact .usual listed
    | some value => exact .given listed

theorem Block.isDeferred_iff {b : Block} {target : Target}
    (distinct : (b.attributes.map (·.name)).Nodup) :
    b.isDeferred target = true ↔
      (∃ file, b.HasValue "src" file) ∨ b.language ≠ "html" ∨ target ≠ .source := by
  simp only [isDeferred, source?, BlockKind.defaultLanguage, Bool.or_eq_true, bne_iff_ne, or_assoc,
    Option.isSome_iff_exists, value?_eq_some_iff distinct]

theorem plain_styleBinding (index : Nat) : Plain (styleBinding index) :=
  Plain.append (by decide) (Plain.toString index)

theorem lays_importStatement (esModule : Bool) {binding : String} (plain : Plain binding)
    (request : String) :
    Lays (importStatement esModule binding request) [importLine esModule binding request] := by
  cases esModule with
  | true =>
    have front : Plain ("import " ++ binding ++ " from ") :=
      (Plain.append (by decide) plain).append (by decide)
    exact Lays.ofLiteral _ ";" front (by decide) request
  | false =>
    have front : Plain ("var " ++ binding ++ " = require(") :=
      (Plain.append (by decide) plain).append (by decide)
    exact Lays.ofLiteral _ ");" front (by decide) request

theorem lays_moduleStatement (b : Block) (index : Nat) :
    Lays (Component.moduleStatement b index)
      (b.moduleName?.map (moduleLine index)).toList := by
  rw [Component.moduleStatement]
  cases b.moduleName? with
  | none => exact Lays.nil
  | some name =>
    have back : Plain ("] = " ++ styleBinding index ++ ";") :=
      (Plain.append (by decide) (plain_styleBinding index)).append (by decide)
    have laid := Lays.ofLiteral "    this[" _ (by decide) back name
    simp only [String.append_assoc] at laid ⊢
    exact laid

/-- The statement that returns the styles, and the end of the function that it stands in. -/
theorem lays_returnStatement (count : Nat) :
    Lays ("    return [" ++ String.intercalate ", " ((List.range count).map styleBinding) ++
        "];\n\x7d;\n") [returnLine count, Piece.ofCode "\x7d;"] := by
  have listed : Plain (String.intercalate ", " ((List.range count).map styleBinding)) := by
    apply Plain.intercalate (by decide)
    intro binding named
    obtain ⟨i, -, rfl⟩ := List.mem_map.mp named
    exact plain_styleBinding i
  have plain : Plain ("    return [" ++
      String.intercalate ", " ((List.range count).map styleBinding) ++ "];") :=
    (Plain.append (by decide) listed).append (by decide)
  have laid := (Lays.ofCode _ plain).append (Lays.ofCode "\x7d;" (by decide))
  simp only [String.append_assoc] at laid ⊢
  exact laid

namespace Component

def styleTexts (c : Component) : List (String × Option String) :=
  c.styles.zipIdx.map fun (b, i) => (c.styleRequest b i, b.moduleName?)

def scriptText (c : Component) : Option String :=
  c.script?.map fun b => b.scriptQuery.request c.filename

theorem moduleNames_styleTexts {c : Component}
    (distinct : ∀ b ∈ c.blocks, (b.attributes.map (·.name)).Nodup) :
    List.Forall₂ (fun style b => b.ModuleName style.2) c.styleTexts
      (c.blocks.filter (·.kind == .style)) := by
  rw [styleTexts, List.forall₂_map_left_iff]
  refine List.forall₂_zipIdx fun b i listed => ?_
  exact Block.moduleName_moduleName?
    (distinct b (List.mem_of_mem_filter (List.mem_of_getElem? listed)))

theorem requests_styleTexts (c : Component) (o : LoaderOptions) :
    c.styleTexts.map Prod.fst = (c.importStyles o).requests := by
  rw [requests_importStyles, styleTexts, List.map_map]
  rfl

theorem request_scriptText (c : Component) (o : LoaderOptions) :
    c.scriptText.toList = (c.importScript o).requests := by
  rw [importScript, scriptText]
  cases c.script? with
  | none => rfl
  | some b => rfl

theorem zipIdx_map_zipIdx {α β : Type} (f : α × Nat → β) (xs : List α) (start : Nat) :
    ((xs.zipIdx start).map f).zipIdx start = (xs.zipIdx start).map fun x => (f x, x.2) := by
  induction xs generalizing start with
  | nil => rfl
  | cons x xs ih =>
    simp only [List.zipIdx_cons, List.map_cons, ih]

variable (c : Component) (o : LoaderOptions)

theorem zipIdx_styleTexts :
    c.styleTexts.zipIdx =
      c.styles.zipIdx.map fun (b, i) => ((c.styleRequest b i, b.moduleName?), i) :=
  zipIdx_map_zipIdx _ c.styles 0

theorem map_styleBinding :
    c.styles.zipIdx.map (fun (_, i) => styleBinding i) =
      (List.range c.styleTexts.length).map styleBinding := by
  rw [styleTexts, List.length_map, List.length_zipIdx, List.range_eq_range',
    ← List.zipIdx_map_snd 0 c.styles, List.map_map]
  rfl

theorem lays_importStatements (esModule : Bool) :
    Lays
      (String.join (c.styles.zipIdx.map fun (b, i) =>
        importStatement esModule (styleBinding i) (c.styleRequest b i)))
      (c.styleTexts.zipIdx.map fun (style, i) =>
        importLine esModule (styleBinding i) style.1) := by
  rw [zipIdx_styleTexts, List.map_map]
  apply Lays.joinLines
  rintro ⟨b, i⟩ -
  exact lays_importStatement esModule (plain_styleBinding i) (c.styleRequest b i)

theorem lays_moduleStatements :
    Lays
      (String.join (c.styles.zipIdx.map fun (b, i) => moduleStatement b i))
      (c.styleTexts.zipIdx.flatMap fun (style, i) => (style.2.map (moduleLine i)).toList) := by
  rw [zipIdx_styleTexts, List.flatMap_map]
  apply Lays.join
  rintro ⟨b, i⟩ -
  exact lays_moduleStatement b i

/-- The piece that takes in the styles has a line for each of them, and one for each that has a
name for its classes. -/
theorem lays_importStyles :
    Lays (c.importStyles o).code (EntryTexts.styleLines o.esModule c.styleTexts) := by
  rw [importStyles]
  split
  · next empty =>
    rw [styleTexts, empty]
    exact Lays.ofCode "var injectStyles = null;" (by decide)
  · next nonempty =>
    have filled : ¬c.styleTexts.isEmpty = true := by
      rw [styleTexts, List.isEmpty_map, List.isEmpty_iff]
      exact nonempty
    have header := Lays.ofCode "var injectStyles = function () \x7b" (by decide)
    have returned := lays_returnStatement c.styleTexts.length
    have all := ((c.lays_importStatements o.esModule).append header).append
      (c.lays_moduleStatements.append returned)
    rw [EntryTexts.styleLines, if_neg filled]
    dsimp only
    rw [map_styleBinding]
    simp only [String.append_assoc, List.append_assoc] at all ⊢
    exact all

/-- The piece that takes in the script is one line, and another where modules are objects. -/
theorem lays_importScript :
    Lays (c.importScript o).code (EntryTexts.scriptLines o.esModule c.scriptText) := by
  rw [importScript, scriptText]
  cases c.script? with
  | none => exact Lays.ofCode "var script = \x7b\x7d;" (by decide)
  | some b =>
    have bound := lays_importStatement o.esModule (by decide : Plain "script")
      (b.scriptQuery.request c.filename)
    cases h : o.esModule with
    | true =>
      rw [h] at bound
      exact bound.append .nil
    | false =>
      rw [h] at bound
      exact bound.append
        (.ofCode "script = script.__esModule ? script.default : script;" (by decide))

/-- The piece that takes in the template is one line, and makes the request in it. -/
theorem lays_importTemplate {s : Snippet} (h : c.importTemplate o = .ok s)
    (written : ∀ b ∈ c.blocks, b.Contains c.source (c.contentOf b)) :
    ∃ form, TemplateForm.Of o c form ∧ s.requests = form.requests ∧
      Lays s.code [form.line o.esModule] := by
  rw [importTemplate] at h
  split at h
  · next missing =>
    cases h
    refine ⟨.absent, .absent ?_, rfl, Lays.ofCode "var template = null;" (by decide)⟩
    simpa [template?, blocksOf] using missing
  · next b found =>
    have contains := written b (List.mem_of_mem_filter (List.mem_of_mem_head? found))
    obtain ⟨target, chosen, h⟩ := exists_of_bind h
    split at h
    · next apart =>
      cases h
      refine ⟨.deferred _, .deferred found chosen ?_ _, rfl,
        lays_importStatement o.esModule (by decide) _⟩
      exact (Block.isDeferred_iff contains.distinct).mp apart
    · next plain =>
      cases h
      rw [Block.isDeferred_iff contains.distinct] at plain
      push Not at plain
      obtain ⟨here, hypertext, rfl⟩ := plain
      refine ⟨.inline _, .inline found here hypertext chosen contains, rfl, ?_⟩
      exact Lays.ofLiteral "var template = " ";" (by decide) (by decide) (c.contentOf b)

end Component

theorem lays_assemble (o : LoaderOptions) {template style script : String}
    {templateLine : List Piece} {styleLines scriptLines : List (List Piece)}
    (ht : Lays template [templateLine]) (hs : Lays style styleLines)
    (hj : Lays script scriptLines) :
    Lays (assemble o template style script)
      (importLine o.esModule "normalize" o.normalizePath :: styleLines ++
        templateLine :: scriptLines ++
        [exportLine o.esModule, Piece.ofCode "/* san-hmr component */"]) := by
  have normalize := lays_importStatement o.esModule (by decide : Plain "normalize") o.normalizePath
  have exported : Lays ((if o.esModule then "export default " else "module.exports.default = ") ++
      "normalize(script, template, injectStyles);" ++ "\n") [exportLine o.esModule] := by
    cases o.esModule with
    | true => exact Lays.ofCode _ (by decide)
    | false => exact Lays.ofCode _ (by decide)
  have marked := Lays.ofCode entryMarker (by decide)
  have all := ((((normalize.append hs).append ht).append hj).append exported).append marked
  simp only [assemble, String.append_assoc, List.append_assoc] at all ⊢
  exact all

namespace LoaderOptions

variable {o : LoaderOptions} {path source code : String} {requests : List String}

/-- Whatever is in a component, its path and the options, the entry module has the lines that it is
to have, and the texts in their literals are the path of the runtime, the requests that are made,
the names for the classes of styles and, if it is not left to a request, the template. -/
theorem lines_of_run (h : o.run path source "" = .ok (.entry code requests)) :
    ∃ c t, o.component path source = .ok c ∧ EntryTexts.Of o c t ∧ requests = t.requests ∧
      (Text.lines code.toList).map Piece.read = (t.lines o.esModule).map some := by
  obtain ⟨c, template, read, imported, rfl, rfl⟩ := entry_of_run h
  have written (b : Block) (hb : b ∈ c.blocks) : b.Contains c.source (c.contentOf b) :=
    Component.contains_of_read (component_ok read) hb
  obtain ⟨form, formed, made, line⟩ := c.lays_importTemplate o imported written
  refine ⟨c, ⟨o.normalizePath, c.styleTexts, form, c.scriptText⟩, read, ?_, ?_, ?_⟩
  · constructor
    · rfl
    · exact Component.moduleNames_styleTexts fun b hb => (written b hb).distinct
    · exact formed
    · rw [Component.scriptText, Option.isSome_map, Component.script?, Component.blocksOf,
        List.head?_filter, Bool.eq_iff_iff, List.find?_isSome, List.any_eq_true]
  · rw [EntryTexts.requests, made, c.requests_styleTexts o, c.request_scriptText o]
  · have laid := lays_assemble o line (c.lays_importStyles o) (c.lays_importScript o)
    rw [laid.whole, EntryTexts.lines]
    simp

/-- Every text is one that would leave a literal if it stood in it as it is. -/
theorem lines_of_run_quotes :
    let o : LoaderOptions := { normalizePath := "\"\n\\" }
    let source := "<template>\"\n\\n</template><style module='\"\n'/>"
    let requests := ["\".san?san&type=style&index=0&lang=css&module=%22%0A",
      "\".san?san&type=script&index=0&lang=js"]
    ∃ code c t, o.run "\".san" source "" = .ok (.entry code requests) ∧
      o.component "\".san" source = .ok c ∧ EntryTexts.Of o c t ∧ requests = t.requests ∧
      (Text.lines code.toList).map Piece.read = (t.lines o.esModule).map some ∧
      t.template = .inline "\"\n\\n" ∧ t.styles.map Prod.snd = [some "\"\n"] := by
  intro o source requests
  have evaluated : (match o.run "\".san" source "" with
      | .ok (.entry _ requests) => some requests
      | _ => none) = some requests := by
    decide +kernel
  have first : (o.component "\".san" source).toOption.bind (fun c =>
      (c.blocks.filter (·.kind == .template)).head?.map fun b =>
        (b.attributes, (b.targetIn o).toOption, b.language, b.content.text c.source)) =
      some ([], some .source, "html", "\"\n\\n") := by
    decide +kernel
  have styles : (o.component "\".san" source).toOption.map (fun c =>
      (c.blocks.filter (·.kind == .style)).map (·.attributes)) =
      some [[⟨"module", some "\"\n"⟩]] := by
    decide +kernel
  split at evaluated
  · next code made answer =>
    cases evaluated
    obtain ⟨c, t, read, texts, asked, laid⟩ := lines_of_run answer
    simp only [read, Except.toOption, Option.bind_some, Option.map_some, Option.some.injEq]
      at first styles
    refine ⟨code, c, t, answer, read, texts, asked, laid, ?_, ?_⟩
    · obtain ⟨b, found, own⟩ := Option.map_eq_some_iff.mp first
      simp only [Prod.mk.injEq] at own
      obtain ⟨bare, target, language, text⟩ := own
      have form := texts.template
      generalize t.template = f at form ⊢
      cases form with
      | absent missing =>
        obtain ⟨listed, kind⟩ := List.mem_filter.mp (List.mem_of_mem_head? found)
        exact absurd (eq_of_beq kind) (missing b listed)
      | inline found' _ _ _ between =>
        obtain rfl := Option.some.inj (found'.symm.trans found)
        rw [← between.text_eq, text]
      | deferred found' chosen apart =>
        obtain rfl := Option.some.inj (found'.symm.trans found)
        rw [chosen] at target
        cases target
        simp [Block.HasValue, bare, language] at apart
    · obtain ⟨b, only, given⟩ := List.map_eq_singleton_iff.mp styles
      have named := texts.modules
      rw [only] at named
      generalize t.styles = ss at named ⊢
      obtain _ | ⟨own, ⟨⟩⟩ := named
      rw [List.map_singleton, List.singleton_inj]
      generalize Prod.snd _ = name at own ⊢
      cases own with
      | given value => simpa [Block.HasValue, given] using value
      | usual bare => simp [given] at bare
      | none missing => simp [given] at missing
  · cases evaluated

end LoaderOptions

end ComponentLoader
