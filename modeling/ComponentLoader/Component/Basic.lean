import ComponentLoader.Component.Layout

/-!
Component files. A component that lacks a script can be given an empty one, which is written into
its text right after the template.
-/
namespace ComponentLoader

/-- A component file that has been read. The text is the one that all places refer to. -/
structure Component where
  filename : String
  source : String
  layout : Layout
  /-- Whether the text holds a script that the file does not. -/
  inserted : Bool

namespace Component

def blocks (c : Component) : List Block := c.layout.blocks

def blocksOf (c : Component) (kind : BlockKind) : List Block :=
  c.blocks.filter (·.kind == kind)

def present (c : Component) : BlockKinds := .ofList (c.blocks.map (·.kind))

def template? (c : Component) : Option Block := (c.blocksOf .template).head?

def script? (c : Component) : Option Block := (c.blocksOf .script).head?

def styles (c : Component) : List Block := c.blocksOf .style

def select (c : Component) (kind : BlockKind) (s : BlockSelector) : Option Block :=
  s.select (c.blocksOf kind)

def textOf (c : Component) (b : Block) : String := b.span.text c.source

def contentOf (c : Component) (b : Block) : String := b.content.text c.source

def spanOf? (c : Component) : LayoutNode → Option Span
  | .block index => c.blocks[index]?.map (·.span)
  | .element _ span => some span
  | .text span => some span
  | .comment span => some span

end Component

/-- How a component file is read: the kinds of blocks to look for, and whether a missing script is
put in. -/
structure ComponentOptions where
  filename : String := "anonymous.san"
  kinds : BlockKinds := .all
  addScript : Bool := true
deriving DecidableEq, Repr

namespace Component

def scriptPlaceholder : String := "\n<script></script>"

/-- Where a script is put in: after the first template, or at the end. -/
def insertionOffset (c : Component) : Nat :=
  match c.template? with
  | some b => b.span.stop.offset
  | none => Text.utf8Length c.source.toList

/-- The text of a file with a script put in at an offset. -/
def withScript (source : String) (offset : Nat) : String :=
  String.ofList (Text.takeBytes offset source.toList) ++ scriptPlaceholder ++
    String.ofList (Text.dropBytes offset source.toList)

/-- Marks the first script that begins at an offset as synthetic, if there is one. -/
def markSynthetic? (offset : Nat) : List Block → Option (List Block)
  | [] => none
  | b :: rest =>
    if b.kind = .script ∧ b.span.start.offset = offset then
      some ({ b with synthetic := true } :: rest)
    else (markSynthetic? offset rest).map (b :: ·)

/-- Reads a component file. The script that is put in begins with a line break, which is not part of
the block. -/
def read (o : ComponentOptions) (source : String) : Except ComponentError Component := do
  let written : Component := ⟨o.filename, source, ← Layout.read o.kinds source, false⟩
  if o.addScript && o.kinds.script && !written.present.script then
    let offset := written.insertionOffset
    let source := withScript source offset
    let layout ← Layout.read o.kinds source
    match markSynthetic? (offset + 1) layout.blocks with
    | some blocks => return ⟨o.filename, source, { layout with blocks }, true⟩
    | none => throw .scriptNotRecognized
  else return written

end Component

end ComponentLoader
