/-!
Why a text is not a well-formed document.
-/

namespace TransitAudit.Xml

inductive Fault where
  | endOfText
  | expected (what : String)
  | invalidName
  | forbiddenCharacter (code : Nat)
  | misplacedDeclaration
  | invalidComment
  | closedSection
  | unknownMarkup
  | malformedReference
  | unknownEntity (name : String)
  | entityNesting
  | markupInAttribute
  | reservedNamespace
  | duplicateNamespace (label : String)
  | unknownLabel (label : String)
  | duplicateAttribute (name : String)
  | mismatchedTag (name : String)
  | unclosedElement
  | noRoot
  | textOutsideRoot
deriving DecidableEq, Repr

def Fault.message : Fault → String
  | .endOfText => "unexpected end of the text"
  | .expected what => s!"expected {what}"
  | .invalidName => "invalid name"
  | .forbiddenCharacter code => s!"the character with code {code} is not allowed"
  | .misplacedDeclaration => "the XML declaration has to come first"
  | .invalidComment => "two hyphens inside a comment"
  | .closedSection => "the end of a CDATA section inside text"
  | .unknownMarkup => "unknown markup"
  | .malformedReference => "malformed reference"
  | .unknownEntity name => s!"unknown entity '{name}'"
  | .entityNesting => "entity references are nested too deeply"
  | .markupInAttribute => "'<' inside an attribute value"
  | .reservedNamespace => "reserved namespace"
  | .duplicateNamespace label => s!"namespace '{label}' is declared twice"
  | .unknownLabel label => s!"unknown namespace '{label}'"
  | .duplicateAttribute name => s!"attribute '{name}' is given twice"
  | .mismatchedTag name => s!"unexpected end of element '{name}'"
  | .unclosedElement => "an element is not closed"
  | .noRoot => "the document has no root element"
  | .textOutsideRoot => "text outside the root element"

end TransitAudit.Xml
