import ComponentLoader.Loader.Extract
import ComponentLoader.Loader.Import

/-!
Answering requests: with the entry module of a component, or with one of its blocks.
-/
namespace ComponentLoader

/-- The answer to a request: a block, or the entry module with the requests in it. -/
inductive Loaded where
  | block (result : Extracted)
  | entry (code : String) (requests : List String)

namespace LoaderOptions

def component (o : LoaderOptions) (path source : String) : Except LoadError Component :=
  (Component.read ⟨path, .all, o.addScript⟩ source).mapError .component

/-- The entry module of a component. -/
def entry (o : LoaderOptions) (c : Component) : Except LoadError Loaded := do
  let template ← c.importTemplate o
  let style := c.importStyles o
  let script := c.importScript o
  return .entry (assemble o template.code style.code script.code)
    (template.requests ++ style.requests ++ script.requests)

/-- Answers a request for a path, whose file has the given text, with a query. -/
def run (o : LoaderOptions) (path source query : String) : Except LoadError Loaded := do
  let c ← o.component path source
  let query := Query.parse query
  match query.blockType? with
  | some name =>
    let kind ← BlockKind.ofName name
    return .block (← c.extract (← Extraction.ofQuery kind o query path))
  | none => o.entry c

/-- Answers a request that the entry module makes of the same file. -/
def resolve (o : LoaderOptions) (request source : String) : Except LoadError Extracted := do
  let (path, query) := splitRequest request
  match ← o.run path source query with
  | .block result => return result
  | .entry .. => throw (.selectsNoBlock request)

end LoaderOptions

end ComponentLoader
