/-!
What can go wrong in a run, and the texts that say so. A failed look-up inside a document is a
`NodeError`; everything that ends a run is an `AuditError`.
-/

namespace TransitAudit

/-- Failures of navigating a document. -/
inductive NodeError where
  | notFound (expression : String)
  | attributeNotFound (name : String)
  | invalidPath (expression reason : String)
deriving DecidableEq, Repr

namespace NodeError

def message : NodeError → String
  | .notFound expression => s!"node not found: {expression}"
  | .attributeNotFound name => s!"attribute not found: @{name}"
  | .invalidPath expression reason => s!"invalid path expression '{expression}': {reason}"

/-- The node is missing; the path itself is in order. -/
def isNotFound : NodeError → Bool
  | .notFound _ => true
  | .attributeNotFound _ => true
  | .invalidPath _ _ => false

end NodeError

/-- Failures that end a run. -/
inductive AuditError where
  | io (details : String)
  | xmlParse (name details : String)
  | schemaNotFound (identifier : String)
  | schemaParsing (identifier details : String)
  | malformedConstraint (name reason : String)
  | invalidPath (expression reason : String)
  | nodeNotFound (expression : String)
  | taskFailed (index : Nat) (handler details : String)
  | concurrency (details : String)
  | grammarInternal (details : String)
  | traversal (path reason : String)
  | config (details : String)
deriving DecidableEq, Repr

namespace AuditError

def message : AuditError → String
  | .io details => s!"IO error: {details}"
  | .xmlParse name details => s!"XML parsing error: {name} - {details}"
  | .schemaNotFound identifier => s!"Schema not found: {identifier}"
  | .schemaParsing identifier details => s!"Schema parsing error: {identifier} - {details}"
  | .malformedConstraint name reason => s!"Malformed constraint \"{name}\": {reason}"
  | .invalidPath expression reason => s!"Invalid path expression '{expression}': {reason}"
  | .nodeNotFound expression => s!"Node not found: {expression}"
  | .taskFailed index handler details => s!"Task {index} ({handler}) failed: {details}"
  | .concurrency details => s!"Concurrent operation error: {details}"
  | .grammarInternal details => s!"LibXML2 internal error: {details}"
  | .traversal path reason => s!"File system traversal error: {path} - {reason}"
  | .config details => s!"Configuration error: {details}"

/-- The message followed by its cause, which is repeated where the message tells it already. -/
def chain (e : AuditError) : String :=
  match e with
  | .io details => s!"{e.message}: {details}"
  | _ => e.message

/-- A failed look-up ends a run as a missing node or an invalid path. -/
def ofNode : NodeError → AuditError
  | .notFound expression => .nodeNotFound expression
  | .attributeNotFound name => .nodeNotFound s!"@{name}"
  | .invalidPath expression reason => .invalidPath expression reason

end AuditError

end TransitAudit
