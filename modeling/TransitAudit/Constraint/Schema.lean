import TransitAudit.Constraint.Set
import TransitAudit.Document.Source

/-!
Schemas as texts with an identifier.
-/

namespace TransitAudit

structure SchemaSource where
  identifier : String
  path : String
  text : String
deriving DecidableEq, Repr

namespace SchemaSource

/-- The tree of a schema. A text that is not well-formed is a failure of the schema. -/
def parse (s : SchemaSource) : Except AuditError ParsedDocument :=
  match (Source.ofText s.identifier s.text).parse with
  | .ok d => .ok d
  | .error (.xmlParse _ details) => .error (.schemaParsing s.identifier details)
  | .error e => .error e

def constraints (s : SchemaSource) : Except AuditError ConstraintSet := do
  ConstraintSet.extract (← s.parse).rootNode

end SchemaSource

end TransitAudit
