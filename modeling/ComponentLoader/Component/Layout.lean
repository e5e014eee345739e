import ComponentLoader.Component.Block
import ComponentLoader.Component.Error
import ComponentLoader.Markup.Lexeme

/-!
The top level of a component file: its blocks, and the elements, comments and texts between them.

An element that is no block hides what is in it. One that never ends hides nothing: it is taken to
end with its start tag, and the file is read again.
-/
namespace ComponentLoader

open Markup (Dialect Lexeme Tag Token)

/-- A piece of the top level: a block by its number, an element with all that is in it, a text, or
a comment. -/
inductive LayoutNode where
  | block (index : Nat)
  | element (name : String) (span : Span)
  | text (span : Span)
  | comment (span : Span)
deriving DecidableEq, Repr

/-- The blocks of a file and its top level, which covers the file without gaps. -/
structure Layout where
  blocks : List Block := []
  nodes : List LayoutNode := []
deriving DecidableEq, Repr

namespace Layout

/-- The end tag of a block of the given name, with what follows it. Elements of that name within
the block have end tags of their own. -/
def blockEnd? (name : String) : (depth : Nat) → List Lexeme → Option (Span × List Lexeme)
  | _, [] => none
  | depth, l :: rest =>
    match l.token with
    | .startTag tag =>
      if !tag.selfClosing && Text.sameIgnoringCase tag.name name then
        blockEnd? name (depth + 1) rest
      else blockEnd? name depth rest
    | .endTag n =>
      if Text.sameIgnoringCase n name then
        match depth with
        | 0 => some (l.span, rest)
        | depth + 1 => blockEnd? name depth rest
      else blockEnd? name depth rest
    | _ => blockEnd? name depth rest

theorem length_blockEnd_lt {name : String} {depth : Nat} {ls rest : List Lexeme} {span : Span}
    (h : blockEnd? name depth ls = some (span, rest)) : rest.length < ls.length := by
  induction ls generalizing depth with
  | nil => simp [blockEnd?] at h
  | cons l ls ih =>
    unfold blockEnd? at h
    have step {d : Nat} (h : blockEnd? name d ls = some (span, rest)) :
        rest.length < (l :: ls).length := Nat.lt_succ_of_lt (ih h)
    split at h
    · split at h <;> exact step h
    · split at h
      · split at h
        · cases h; exact Nat.lt_succ_self _
        · exact step h
      · exact step h
    · exact step h

/-- Where the outermost of the open elements ends, with what follows it. An end tag ends the
innermost open element of its name and all within that one. -/
def elementEnd? : (opened : List String) → List Lexeme → Option (Position × List Lexeme)
  | _, [] => none
  | opened, l :: rest =>
    match l.token with
    | .startTag tag => elementEnd? (if tag.opens then tag.name :: opened else opened) rest
    | .endTag name =>
      match opened.findIdx? (Text.sameIgnoringCase · name) with
      | none => elementEnd? opened rest
      | some inner =>
        let outer := opened.drop (inner + 1)
        if outer.isEmpty then some (l.span.stop, rest) else elementEnd? outer rest
    | _ => elementEnd? opened rest

theorem length_elementEnd_lt {opened : List String} {ls rest : List Lexeme} {stop : Position}
    (h : elementEnd? opened ls = some (stop, rest)) : rest.length < ls.length := by
  induction ls generalizing opened with
  | nil => simp [elementEnd?] at h
  | cons l ls ih =>
    rw [elementEnd?] at h
    have step {o : List String} (h : elementEnd? o ls = some (stop, rest)) :
        rest.length < (l :: ls).length := Nat.lt_succ_of_lt (ih h)
    split at h
    · exact step h
    · split at h
      · exact step h
      · dsimp only at h
        split at h
        · cases h; exact Nat.lt_succ_self _
        · exact step h
    · exact step h

/-- What ends a reading early: an error, or an element that never ends. -/
inductive Halt where
  | error (cause : ComponentError)
  | unclosed (offset : Nat)
deriving DecidableEq, Repr

/-- The kind of block that a start tag begins, among the kinds to be recognized. -/
def blockKind? (kinds : BlockKinds) (tag : Tag) : Option BlockKind :=
  (BlockKind.ofTag? tag.name).filter kinds.contains

/-- Reads a block whose start tag is the lexeme `l`, and returns what follows it. -/
def readBlock (kind : BlockKind) (tag : Tag) (l : Lexeme) (rest : List Lexeme) :
    Except ComponentError (Block × List Lexeme) :=
  let attributes := tag.attributes.map fun a => ⟨a.name, a.value⟩
  match l.faults.find? (·.kind.isTagSyntax) with
  | some fault => .error (.malformedTag tag.name fault)
  | none =>
    if tag.selfClosing then
      .ok (⟨kind, attributes, l.span, .point l.span.stop, false⟩, rest)
    else
      match blockEnd? tag.name 0 rest with
      | some (stop, after) =>
        .ok (⟨kind, attributes, ⟨l.span.start, stop.stop⟩, ⟨l.span.stop, stop.start⟩, false⟩, after)
      | none => .error (.unclosedBlock tag.name l.span)

theorem length_readBlock_le {kind : BlockKind} {tag : Tag} {l : Lexeme} {b : Block}
    {rest after : List Lexeme} (h : readBlock kind tag l rest = .ok (b, after)) :
    after.length ≤ rest.length := by
  unfold readBlock at h
  dsimp only at h
  split at h
  · cases h
  · split at h
    · cases h; exact Nat.le_refl _
    · split at h
      · next hs => cases h; exact Nat.le_of_lt (length_blockEnd_lt hs)
      · cases h

def cons (node : LayoutNode) (layout : Layout) : Layout :=
  { layout with nodes := node :: layout.nodes }

/-- Reads the top level from the block of the given number on. Elements that begin at the given
offsets are waited for to end; the others end with their start tags. -/
def scan (kinds : BlockKinds) (awaited : List Nat) (index : Nat) :
    List Lexeme → Except Halt Layout
  | [] => .ok {}
  | l :: rest =>
    match l.token with
    | .startTag tag =>
      match blockKind? kinds tag with
      | some kind =>
        match _read : readBlock kind tag l rest with
        | .error cause => .error (.error cause)
        | .ok (block, after) =>
          (scan kinds awaited (index + 1) after).map fun layout =>
            ⟨block :: layout.blocks, .block index :: layout.nodes⟩
      | none =>
        if tag.opens && awaited.contains l.span.start.offset then
          match _ended : elementEnd? [tag.name] rest with
          | none => .error (.unclosed l.span.start.offset)
          | some (stop, after) =>
            (scan kinds awaited index after).map
              (cons (.element tag.name ⟨l.span.start, stop⟩))
        else (scan kinds awaited index rest).map (cons (.element tag.name l.span))
    | .comment _ => (scan kinds awaited index rest).map (cons (.comment l.span))
    | _ => (scan kinds awaited index rest).map (cons (.text l.span))
termination_by ls => ls.length
decreasing_by
  all_goals simp only [List.length_cons]
  · exact Nat.lt_succ_of_le (length_readBlock_le _read)
  · exact Nat.lt_succ_of_lt (length_elementEnd_lt _ended)
  all_goals exact Nat.lt_succ_self _

/-- Reads the top level, again without waiting for an element that turns out never to end. -/
def rescan (kinds : BlockKinds) (ls : List Lexeme) (awaited : List Nat) :
    Except ComponentError Layout :=
  match scan kinds awaited 0 ls with
  | .ok layout => .ok layout
  | .error (.error cause) => .error cause
  | .error (.unclosed offset) =>
    if _h : offset ∈ awaited then rescan kinds ls (awaited.erase offset)
    else .error .unrecoverable
termination_by awaited.length
decreasing_by
  have := List.length_pos_of_mem _h
  rw [List.length_erase_of_mem _h]
  omega

def read (kinds : BlockKinds) (source : String) : Except ComponentError Layout :=
  let ls := Dialect.component.lexemes source
  rescan kinds ls (ls.map (·.span.start.offset))

end Layout

end ComponentLoader
