import ComponentLoader.Markup.Fault

/-!
Why a file cannot be read as a component.
-/
namespace ComponentLoader

/-- What keeps a file from being a component. -/
inductive ComponentError where
  /-- The start tag of a block is malformed. -/
  | malformedTag (name : String) (fault : Markup.Fault)
  /-- A block has no end tag. -/
  | unclosedBlock (name : String) (tag : Span)
  /-- An element that was taken to end with its start tag is open again. -/
  | unrecoverable
  /-- The script that was put into the file is not one of its blocks. -/
  | scriptNotRecognized
deriving DecidableEq, Repr

namespace ComponentError

def message : ComponentError → String
  | malformedTag name fault => s!"invalid <{name}> tag: {fault.message}"
  | unclosedBlock name _ => s!"<{name}> block is not closed"
  | unrecoverable => "unable to recover from an unclosed element"
  | scriptNotRecognized => "inserted <script> block was not recognized"

/-- Where the error is; the beginning of the file where it is nowhere in particular. -/
def span : ComponentError → Span
  | malformedTag _ fault => fault.span
  | unclosedBlock _ tag => tag
  | _ => default

end ComponentError

end ComponentLoader
