import ComponentLoader.Proofs.Component.Written
import ComponentLoader.Proofs.Json.CodeLines
import ComponentLoader.Proofs.Loader.Entry

/-! The text that a block without compilation is answered with. It is the content of the block, or
one line that stands for the file that the block names, whose path is the only literal in it. -/
namespace ComponentLoader

def forwardLine (kind : BlockKind) (esModule : Bool) (file : String) : List Piece :=
  match kind, esModule with
  | .style, _ => Piece.ofCode "@import " ++ .literal file :: Piece.ofCode ";"
  | _, true => Piece.ofCode "export \x7b default \x7d from " ++ .literal file :: Piece.ofCode ";"
  | _, false => Piece.ofCode "module.exports = require(" ++ .literal file :: Piece.ofCode ");"

/-- What stands for a block of a text: what is written between its tags or, if its start tag names a
file, a line for the file. -/
inductive Block.StoodForBy (source : String) (b : Block) (esModule : Bool) : String → Prop
  | content {text : String} (here : ∀ file, ¬ b.HasValue "src" file)
      (between : b.Contains source text) : b.StoodForBy source esModule text
  | file {file text : String} (apart : b.HasValue "src" file)
      (line : (Text.lines text.toList).map Piece.read =
        [some (forwardLine b.kind esModule file), some []]) : b.StoodForBy source esModule text

theorem exists_forward (kind : BlockKind) (file : String) (esModule : Bool) :
    ∃ text, forward kind file esModule = .text text ∧
      Lays text [forwardLine kind esModule file] := by
  cases kind with
  | style => exact ⟨_, rfl, .ofLiteral "@import " ";" (by decide) (by decide) file⟩
  | template | script =>
    cases esModule with
    | true =>
      exact ⟨_, rfl, .ofLiteral "export \x7b default \x7d from " ";" (by decide) (by decide) file⟩
    | false =>
      exact ⟨_, rfl, .ofLiteral "module.exports = require(" ");" (by decide) (by decide) file⟩

namespace Component

variable {c : Component} {b : Block} {x : Extraction}

/-- The code for a block that is not compiled: its content or, if that is in another
file, the code that stands for the file. -/
def plainCode (c : Component) (o : LoaderOptions) (b : Block) : BlockCode :=
  match b.source? with
  | none => .text (c.contentOf b)
  | some file => forward b.kind file o.esModule

theorem code_extractText (selected : c.select x.kind x.selector = some b)
    (h : x.kind = b.kind) : (c.extractText x).code = c.plainCode x.options b := by
  simp only [extractText, selected]
  rw [h, plainCode]
  cases b.source? <;> rfl

theorem extractTemplate_source (selected : c.select .template x.selector = some b)
    (kind : b.kind = .template) (h : x.target = .source) :
    ∃ y, c.extractTemplate x = .ok y ∧ y.code = c.plainCode x.options b := by
  simp only [extractTemplate, selected, h, plainCode, kind]
  cases b.source? with
  | none => exact ⟨_, rfl, rfl⟩
  | some file => exact ⟨_, rfl, rfl⟩

theorem exists_plainCode (o : LoaderOptions) (h : b.Contains c.source (c.contentOf b)) :
    ∃ text, c.plainCode o b = .text text ∧ b.StoodForBy c.source o.esModule text := by
  unfold plainCode
  cases named : b.source? with
  | none =>
    refine ⟨_, rfl, .content (fun file apart => ?_) h⟩
    have found := (Block.value?_eq_some_iff h.distinct).mpr apart
    rw [Block.source?, found] at named
    cases named
  | some file =>
    obtain ⟨text, code, laid⟩ := exists_forward b.kind file o.esModule
    exact ⟨text, code, .file ((Block.value?_eq_some_iff h.distinct).mp named) laid.whole⟩

end Component

/-- A request is answered with a block of a component that is not compiled. -/
def LoaderOptions.Delivers (o : LoaderOptions) (source request : String) (c : Component)
    (b : Block) : Prop :=
  ∃ x text, o.resolve request source = .ok x ∧ x.code = .text text ∧
    b.StoodForBy c.source o.esModule text

theorem LoaderOptions.delivers_of_plainCode {o : LoaderOptions} {path source request : String}
    {c : Component} {b : Block} {x : Extracted} (read : o.component path source = .ok c)
    (listed : b ∈ c.blocks) (answer : o.resolve request source = .ok x)
    (code : x.code = c.plainCode o b) : o.Delivers source request c b := by
  obtain ⟨text, plain, stands⟩ :=
    Component.exists_plainCode o (Component.contains_of_read (component_ok read) listed)
  exact ⟨x, text, answer, code.trans plain, stands⟩

end ComponentLoader
