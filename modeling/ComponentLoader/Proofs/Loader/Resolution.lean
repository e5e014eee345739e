import ComponentLoader.Loader.Run
import ComponentLoader.Proofs.Request.Query

/-! A request that names the kind, the place and the language of a block is answered
from that block. The place decides which one it is: the language only has to be that
of the block at the place. -/
namespace ComponentLoader

/-- The selector of a block by its place and its language. An empty language asks for
none. -/
def BlockSelector.ofBlock (b : Block) (index : Nat) : BlockSelector :=
  ⟨some index, (some b.language).filter (· ≠ "")⟩

theorem BlockSelector.language_ofBlock (b : Block) (index : Nat) :
    (ofBlock b index).language.getD b.language = b.language := by
  by_cases empty : b.language = "" <;> simp [ofBlock, Option.filter, empty]

theorem BlockSelector.select_ofBlock {blocks : List Block} {b : Block} {index : Nat}
    (h : blocks[index]? = some b) : (ofBlock b index).select blocks = some b := by
  have admitted : (ofBlock b index).admits b = true := by
    by_cases none : b.language = "" <;> simp [admits, ofBlock, none]
  simp only [select, ofBlock, h]
  exact Option.filter_eq_some_iff.mpr ⟨rfl, admitted⟩

def Extraction.ofBlock (o : LoaderOptions) (path : String) (b : Block) (index : Nat)
    (target : Option Target) : Extraction :=
  { kind := b.kind, selector := .ofBlock b index, filename := path,
    target := target.getD o.target, options := o }

/-- A query that is read as one for a block: by its kind, its place among the blocks of
that kind, and its language. It may name a target. -/
structure Query.AsksFor (q : Query) (b : Block) (index : Nat) (target : Option Target) :
    Prop where
  mark : q.get? "san" = some ""
  kind : q.get? "type" = some b.kind.tag
  index : q.get? "index" = some (toString index)
  language : q.get? "lang" = some b.language
  target : q.get? "compileTemplate" = target.map Target.name

/-- The keys that say which block is asked for, and how. -/
def Query.reserved : List String := ["san", "type", "index", "lang", "compileTemplate"]

theorem Target.ofName_name (target : Target) : ofName target.name = .ok target := by
  cases target <;> rfl

theorem BlockKind.ofName_tag (kind : BlockKind) : ofName kind.tag = .ok kind := by
  cases kind <;> rfl

namespace Query.AsksFor

variable {q : Query} {b : Block} {index : Nat} {target : Option Target}

/-- No other key matters to what a query asks for. -/
theorem congr {q' : Query} (h : q.AsksFor b index target)
    (same : ∀ key ∈ reserved, q'.get? key = q.get? key) : q'.AsksFor b index target where
  mark := (same _ (by decide)).trans h.mark
  kind := (same _ (by decide)).trans h.kind
  index := (same _ (by decide)).trans h.index
  language := (same _ (by decide)).trans h.language
  target := (same _ (by decide)).trans h.target

theorem blockType? (h : q.AsksFor b index target) : q.blockType? = some b.kind.tag := by
  rw [Query.blockType?, if_pos h.mark, h.kind]

theorem selector (h : q.AsksFor b index target) (small : index ≤ Query.maxIndex) :
    q.selector = .ok (.ofBlock b index) := by
  have read : q.index = .ok (some index) := by
    rw [Query.index, h.index]
    simp only [Option.mapM_some, Query.parseIndex?_toString small]
    rfl
  rw [Query.selector, read, Query.language?, h.language]
  rfl

/-- The query is read back as what it was written for. -/
theorem ofQuery (h : q.AsksFor b index target) (small : index ≤ Query.maxIndex)
    (o : LoaderOptions) (path : String) :
    Extraction.ofQuery b.kind o q path = .ok (.ofBlock o path b index target) := by
  have named : q.target = .ok target := by
    rw [Query.target, h.target]
    cases target with
    | none => rfl
    | some target =>
      simp only [Option.map_some, Option.mapM_some, Target.ofName_name]
      rfl
  rw [Extraction.ofQuery, named, h.selector small]
  rfl

end Query.AsksFor

/-- A query that begins with its question mark and is read as one for a block. -/
structure BlockQuery.Requests (q : BlockQuery) (b : Block) (index : Nat)
    (target : Option Target) : Prop where
  marked : q.Marked
  asks : (Query.parse q.text).AsksFor b index target

namespace BlockQuery

variable {q : BlockQuery} {b : Block} {index : Nat} {target : Option Target}

theorem requests_ofBlock (b : Block) (index : Nat) :
    ((ofBlock b.kind index).param "lang" b.language).Requests b index none := by
  refine ⟨(marked_ofBlock b.kind index).param _ _, ?_⟩
  have language : Query.IsKey "lang" := by decide
  constructor <;> rw [Query.get?_param _ language, Query.parse_ofBlock]
  · rfl
  · rfl
  · rfl
  · rfl
  · rfl

theorem Requests.compileTemplate (h : q.Requests b index none) (target : Target) :
    (q.param "compileTemplate" target.name).Requests b index (some target) := by
  refine ⟨h.marked.param _ _, ?_⟩
  have key : Query.IsKey "compileTemplate" := by decide
  constructor <;> rw [Query.get?_param _ key]
  · exact h.asks.mark
  · exact h.asks.kind
  · exact h.asks.index
  · exact h.asks.language
  · rfl

theorem Requests.param (h : q.Requests b index target) {key : String} (named : Query.IsKey key)
    (free : key ∉ Query.reserved) (value : String) :
    (q.param key value).Requests b index target := by
  refine ⟨h.marked.param _ _, h.asks.congr fun other mem => ?_⟩
  have unlike : other ≠ key := fun same => free (same ▸ mem)
  rw [Query.get?_param _ named, if_neg unlike]

theorem Requests.flag (h : q.Requests b index target) {key : String} (named : Query.IsKey key)
    (free : key ∉ Query.reserved) : (q.flag key).Requests b index target := by
  refine ⟨h.marked.flag _, h.asks.congr fun other mem => ?_⟩
  have unlike : other ≠ key := fun same => free (same ▸ mem)
  rw [Query.get?_flag _ named, if_neg unlike]

theorem Requests.src (h : q.Requests b index target) (file : Option String) :
    (q.src file).Requests b index target := by
  cases file with
  | none => exact h
  | some file => exact h.param (by decide) (by decide) file

end BlockQuery

namespace LoaderOptions

variable {o : LoaderOptions} {path source : String} {c : Component} {b : Block} {index : Nat}
  {target : Option Target}

/-- A request for a block is answered with what the component hands out for it. -/
theorem resolve_of_requests {q : BlockQuery} (h : q.Requests b index target)
    (plain : '?' ∉ path.toList) (read : o.component path source = .ok c)
    (small : index ≤ Query.maxIndex) :
    o.resolve (q.request path) source = c.extract (.ofBlock o path b index target) := by
  rw [resolve, h.marked.splitRequest plain]
  simp only [run, read, bind, Except.bind, h.asks.blockType?, BlockKind.ofName_tag,
    h.asks.ofQuery small]
  cases c.extract (.ofBlock o path b index target) <;> rfl

end LoaderOptions

end ComponentLoader
