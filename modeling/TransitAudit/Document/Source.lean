import TransitAudit.Document.Node
import TransitAudit.Error
import TransitAudit.Xml.Parse

/-!
Documents as texts with a name, and reading them as trees.
-/

namespace TransitAudit

/-- The text of a document; `path` is set when it was read from a file. -/
structure Source where
  name : String
  path : Option String
  text : String
deriving DecidableEq, Repr

namespace Source

/-- A document that does not come from a file. -/
def ofText (name text : String) : Source :=
  ⟨name, none, text⟩

/-- The size in bytes. -/
def size (s : Source) : Nat :=
  s.text.utf8ByteSize

def parse (s : Source) : Except AuditError ParsedDocument :=
  match Xml.parse s.text with
  | .ok tree => .ok ⟨tree, .build s.text⟩
  | .error fault => .error (.xmlParse s.name fault.message)

end Source

end TransitAudit
