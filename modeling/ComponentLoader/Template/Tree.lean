import ComponentLoader.Template.Attribute
import ComponentLoader.Markup.Lexeme

/-!
Building the tree of a template from its lexemes. Every element ends somewhere: one without an end
tag of its own ends where an element around it does, or with the text, and is reported.
-/
namespace ComponentLoader.Template

open Markup (Delimiters Dialect Fault FaultKind Lexeme Tag Token)

/-- What happens to white space in texts: all is kept, texts of nothing else are dropped, or the
others are trimmed as well. -/
inductive Trim where
  | keep
  | blank
  | all
deriving DecidableEq, Repr, Inhabited

/-- How a template is read. -/
structure Options where
  trim : Trim := .keep
  delimiters : Delimiters := {}
deriving DecidableEq, Repr, Inhabited

/-- An element whose end is still to come, and where its start tag begins. -/
structure OpenElement where
  name : String
  node : Node
  start : Position

/-- A tree in the making: the open elements, the innermost first, the nodes outside of them, the
pieces of the text that is being read, and the faults found so far. -/
structure Builder where
  opened : List OpenElement := []
  roots : List Node := []
  pending : List Piece := []
  faults : List Fault := []

namespace Node

def continuesCondition (n : Node) : Bool :=
  n.directives.contains "else" || n.directives.contains "elif"

def opensCondition (n : Node) : Bool :=
  n.directives.contains "if" || n.directives.contains "elif"

end Node

namespace Builder

def report (b : Builder) (kind : FaultKind) (span : Span) : Builder :=
  { b with faults := b.faults ++ [{ kind, span }] }

/-- The children so far of the innermost open element, or the nodes outside of all. -/
def siblings (b : Builder) : List Node :=
  match b.opened with
  | [] => b.roots
  | e :: _ => e.node.children

/-- Adds a node after its siblings. -/
def push (b : Builder) (n : Node) : Builder :=
  match b.opened with
  | [] => { b with roots := b.roots ++ [n] }
  | e :: outer =>
    { b with
      opened := { e with node := { e.node with children := e.node.children ++ [n] } } :: outer }

/-- Adds a node that takes the given stretch of text. An element that continues a condition needs
one before it, with nothing but blank text between. -/
def append (b : Builder) (n : Node) (span : Span) : Builder :=
  let previous := b.siblings.reverse.find? (!·.isBlankText)
  if n.continuesCondition && !previous.any Node.opensCondition then
    (b.report .elseNoAdjacentIf span).push n
  else b.push n

def trimPieceStart : Piece → Piece
  | .literal t => .literal (String.ofList (Text.trimStart t.toList))
  | p => p

def trimPieceEnd : Piece → Piece
  | .literal t => .literal (String.ofList (Text.trimEnd t.toList))
  | p => p

def trimEnds (ps : List Piece) : List Piece :=
  (ps.modifyHead trimPieceStart).modify (ps.length - 1) trimPieceEnd

/-- Whether a piece is a text of nothing but space. -/
def isBlankPiece : Piece → Bool
  | .literal t => Text.isBlank t
  | .interpolation _ => false

def flush (b : Builder) (o : Options) : Builder :=
  let ps := b.pending
  let b := { b with pending := [] }
  if ps.isEmpty || (o.trim ≠ .keep && ps.all isBlankPiece) then b
  else
    let ps := if o.trim = .all then trimEnds ps else ps
    b.push { text := some (.ofPieces o.delimiters ps) }

/-- Ends the innermost open element where the text has been read to. -/
def closeInnermost (b : Builder) (stop : Position) : Builder :=
  match b.opened with
  | [] => b
  | e :: outer => { b with opened := outer }.append e.node ⟨e.start, stop⟩

/-- Ends the innermost open elements, which lack end tags. -/
def closeMissing (stop : Position) : Nat → Builder → Builder
  | 0, b => b
  | n + 1, b =>
    match b.opened with
    | [] => b
    | e :: _ =>
      closeMissing stop n ((b.report .missingEndTag ⟨e.start, stop⟩).closeInnermost stop)

def openElement (b : Builder) (o : Options) (tag : Tag) (span : Span) : Builder :=
  let node := Node.ofTag o.delimiters tag
  let b := { b with faults := b.faults ++ directiveFaults tag }
  if tag.opens then { b with opened := ⟨tag.name, node, span.start⟩ :: b.opened }
  else b.append node span

/-- Reads an end tag, which ends the innermost open element of its name, in any case, and all
within that one. -/
def closeElement (b : Builder) (name : String) (span : Span) : Builder :=
  match b.opened.findIdx? (Text.sameIgnoringCase ·.name name) with
  | none => b.report .invalidEndTag span
  | some inner => (closeMissing span.stop inner b).closeInnermost span.stop

/-- Reads one lexeme. Comments leave no trace. -/
def step (o : Options) (b : Builder) (l : Lexeme) : Builder :=
  let b := { b with faults := b.faults ++ l.faults }
  match l.token with
  | .startTag tag => (b.flush o).openElement o tag l.span
  | .endTag name => (b.flush o).closeElement name l.span
  | .text t => { b with pending := b.pending ++ [.literal t] }
  | .interpolation t => { b with pending := b.pending ++ [.interpolation t] }
  | .comment _ => b

def finish (b : Builder) (o : Options) (stop : Position) : Builder :=
  let b := b.flush o
  closeMissing stop b.opened.length b

end Builder

/-- Nodes without the blank texts at either end. -/
def dropBlankEnds (nodes : List Node) : List Node :=
  ((nodes.dropWhile Node.isBlankText).reverse.dropWhile Node.isBlankText).reverse

/-- What reading a template gives: a tree and the faults found on the way. -/
structure Parsed where
  node : Node
  faults : List Fault

/-- The tree of lexemes: a root that holds the top-level nodes. -/
def ofLexemes (o : Options) (ls : List Lexeme) : Parsed :=
  let stop := (ls.getLast?.map (·.span.stop)).getD .start
  let b := (ls.foldl (Builder.step o) {}).finish o stop
  ⟨{ children := dropBlankEnds b.roots }, b.faults⟩

def parse (o : Options) (source : String) : Parsed :=
  ofLexemes o ((Dialect.template o.delimiters).lexemes source)

end ComponentLoader.Template
