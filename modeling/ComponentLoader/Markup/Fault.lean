import ComponentLoader.Position

/-!
What can be wrong with markup and with the templates written in it.
-/
namespace ComponentLoader.Markup

/-- The causes of faults: those of reading markup, those of nesting elements and interpolations,
and those of directives. -/
inductive FaultKind where
  | abruptClosingOfEmptyComment
  | cdataInHtmlContent
  | duplicateAttribute
  | endTagWithAttributes
  | endTagWithTrailingSolidus
  | eofBeforeTagName
  | eofInComment
  | eofInTag
  | incorrectlyClosedComment
  | incorrectlyOpenedComment
  | invalidFirstCharacterOfTagName
  | missingAttributeValue
  | missingEndTagName
  | missingWhitespaceBetweenAttributes
  | nestedComment
  | unexpectedEqualsSignBeforeAttributeName
  | unexpectedCharacterInAttributeName
  | unexpectedCharacterInUnquotedAttributeValue
  | unexpectedQuestionMarkInsteadOfTagName
  | unexpectedSolidusInTag
  | invalidEndTag
  | missingEndTag
  | missingInterpolationEnd
  | ifNoExpression
  | elseNoAdjacentIf
  | forNoExpression
  | forMalformedExpression
deriving DecidableEq, Repr

namespace FaultKind

/-- Whether a fault of this kind lies inside a tag: in its attributes, their quoting, or the end of
the text before the closing bracket. -/
def isTagSyntax : FaultKind → Bool
  | duplicateAttribute
  | eofInTag
  | missingAttributeValue
  | missingWhitespaceBetweenAttributes
  | unexpectedEqualsSignBeforeAttributeName
  | unexpectedCharacterInAttributeName
  | unexpectedCharacterInUnquotedAttributeValue
  | unexpectedSolidusInTag => true
  | _ => false

def message : FaultKind → String
  | abruptClosingOfEmptyComment => "Illegal comment."
  | cdataInHtmlContent => "CDATA section is allowed only in XML context."
  | duplicateAttribute => "Duplicate attribute."
  | endTagWithAttributes => "End tag cannot have attributes."
  | endTagWithTrailingSolidus => "Illegal \"/\" in tags."
  | eofBeforeTagName => "Unexpected EOF in tag."
  | eofInComment => "Unexpected EOF in comment."
  | eofInTag => "Unexpected EOF in tag."
  | incorrectlyClosedComment => "Incorrectly closed comment."
  | incorrectlyOpenedComment => "Incorrectly opened comment."
  | invalidFirstCharacterOfTagName => "Illegal tag name. Use '&lt;' to print '<'."
  | missingAttributeValue => "Attribute value was expected."
  | missingEndTagName => "End tag name was expected."
  | missingWhitespaceBetweenAttributes => "Whitespace was expected."
  | nestedComment => "Unexpected '<!--' in comment."
  | unexpectedEqualsSignBeforeAttributeName => "Attribute name was expected before '='."
  | unexpectedCharacterInAttributeName =>
    "Attribute name cannot contain U+0022 (\"), U+0027 ('), and U+003C (<)."
  | unexpectedCharacterInUnquotedAttributeValue =>
    "Unquoted attribute value cannot contain U+0022 (\"), U+0027 ('), U+003C (<), U+003D (=), " ++
      "and U+0060 (`)."
  | unexpectedQuestionMarkInsteadOfTagName => "'<?' is allowed only in XML context."
  | unexpectedSolidusInTag => "Illegal '/' in tags."
  | invalidEndTag => "Invalid end tag."
  | missingEndTag => "Element is missing end tag."
  | missingInterpolationEnd => "Interpolation end sign was not found."
  | ifNoExpression => "s-if/s-elif is missing expression."
  | elseNoAdjacentIf => "s-else/s-elif has no adjacent s-if."
  | forNoExpression => "s-for is missing expression."
  | forMalformedExpression => "s-for has invalid expression."

end FaultKind

/-- A fault and where it is. -/
structure Fault where
  kind : FaultKind
  span : Span
  /-- Added after the wording of the kind. -/
  note : String := ""
deriving DecidableEq, Repr

namespace Fault

def message (fault : Fault) : String := fault.kind.message ++ fault.note

/-- The same fault in a text that itself begins at `base`. -/
def relocate (fault : Fault) (base : Position) : Fault :=
  { fault with span := fault.span.relocate base }

end Fault

end ComponentLoader.Markup
