import ComponentLoader.Component.Block
import ComponentLoader.Component.Error

/-!
Why a request cannot be answered.
-/
namespace ComponentLoader

/-- What keeps a request from being answered. -/
inductive LoadError where
  /-- The file is no component. -/
  | component (cause : ComponentError)
  /-- The template has a fault. -/
  | template (fault : Markup.Fault)
  /-- No block of the kind is picked by the selector. -/
  | noBlock (kind : BlockKind) (selector : BlockSelector)
  | unknownBlockType (name : String)
  | invalidIndex (text : String)
  | unknownTarget (name : String)
  /-- A template to be compiled is in another file. -/
  | compiledSource (file : String)
  /-- A template to be compiled is not in HTML. -/
  | compiledLanguage (language : String)
  /-- A request for a block asks for none. -/
  | selectsNoBlock (request : String)
  | emptyDelimiters
  /-- The options are not what the JSON of options must be. -/
  | unreadableOptions
deriving DecidableEq, Repr

namespace LoadError

def message : LoadError → String
  | component cause => cause.message
  | template fault => fault.message
  | noBlock kind selector => s!"no <{kind.tag}> block matches {selector.describe}"
  | unknownBlockType name => s!"unknown block type `{name}`"
  | invalidIndex text => s!"invalid block index `{text}`"
  | unknownTarget name => s!"compileTemplate must be one of none, aNode, aPack but got `{name}`"
  | compiledSource file => s!"compileTemplate cannot be used with <template src=\"{file}\">"
  | compiledLanguage language =>
    s!"compileTemplate can only be used when lang is html, but got `{language}`"
  | selectsNoBlock request => s!"`{request}` does not select a block"
  | emptyDelimiters => "delimiters cannot be empty"
  | unreadableOptions => "invalid loader options"

def span? : LoadError → Option Span
  | component cause => some cause.span
  | template fault => some fault.span
  | _ => none

end LoadError

def BlockKind.ofName (name : String) : Except LoadError BlockKind :=
  match BlockKind.ofTag? name with
  | some kind => .ok kind
  | none => .error (.unknownBlockType name)

end ComponentLoader
