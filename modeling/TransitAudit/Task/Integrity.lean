import TransitAudit.Constraint.Schema
import TransitAudit.Task.Batch

/-!
The integrity checks of a document as batches of tasks: one task for each unique constraint, for
each reference with its key, and for each journey. Each is there for any workers and for one worker.
-/

namespace TransitAudit

namespace Workers

variable (w : Workers)

/-- Every unique constraint against the whole document. -/
def uniqueConstraints (root : Node) (s : ConstraintSet) : Except AuditError (List Finding) :=
  w.runBatch (s.uniques.map fun c => ⟨root, .unique c⟩)

/-- Every reference against the key it names. -/
def keyrefConstraints (root : Node) (s : ConstraintSet) : Except AuditError (List Finding) := do
  let pairs ← s.keyrefPairs
  w.runBatch (pairs.map fun p => ⟨root, .keyref p.keyref p.key⟩)

/-- The passing times of every journey. -/
def passingTimes (root : Node) (mode : Monotonicity) : Except AuditError (List Finding) := do
  let stopPoints ← StopPointIndex.build root
  let journeys ← root.nodesAt serviceJourneysPath
  w.runBatch (journeys.map fun j => ⟨j, .sequence stopPoints mode⟩)

end Workers

namespace Integrity

def uniqueConstraints (root : Node) (s : ConstraintSet) : Except AuditError (List Finding) :=
  Workers.one.uniqueConstraints root s

def keyrefConstraints (root : Node) (s : ConstraintSet) : Except AuditError (List Finding) :=
  Workers.one.keyrefConstraints root s

def passingTimes (root : Node) (mode : Monotonicity) : Except AuditError (List Finding) :=
  Workers.one.passingTimes root mode

/-- All integrity checks with strictly increasing passing times. -/
def check (d : ParsedDocument) (s : ConstraintSet) : Except AuditError (List Finding) := do
  let uniques ← uniqueConstraints d.rootNode s
  let keyrefs ← keyrefConstraints d.rootNode s
  let times ← passingTimes d.rootNode .increasing
  return uniques ++ keyrefs ++ times

/-- All integrity checks with the constraints of a schema. -/
def validate (d : ParsedDocument) (schema : SchemaSource) : Except AuditError (List Finding) := do
  check d (← schema.constraints)

end Integrity

end TransitAudit
