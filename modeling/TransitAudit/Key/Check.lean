import TransitAudit.Finding.Basic
import TransitAudit.Key.Set

/-!
The checks on keys: a unique constraint reports every later element with a key that has been seen,
and a reference reports every element whose key is not among the keys it refers to.
-/

namespace TransitAudit

def duplicateFinding (constraint : Constraint) (key : CompositeKey) (line : UInt32) : Finding :=
  let message := "Duplicate reference violates unique constraint " ++
    s!"\"{constraint.name}\" (key: {key.text})"
  (((Finding.consistency message).withLine line).withExtra "constraint"
    (.string constraint.name)).withExtra "key" (.string key.text)

/-- The elements whose key occurs in `seen` or at an earlier element. -/
def duplicatesAfter (evaluator : KeyEvaluator) : List CompositeKey → List Node →
    List (Node × CompositeKey)
  | _, [] => []
  | seen, n :: ns =>
    let key := evaluator.keyAt n
    if seen.contains key then (n, key) :: duplicatesAfter evaluator seen ns
    else duplicatesAfter evaluator (key :: seen) ns

/-- Reports every later occurrence of a key. -/
def checkUnique (constraint : Constraint) (context : Node) : Except AuditError (List Finding) := do
  let evaluator ← KeyEvaluator.ofConstraint constraint
  return (duplicatesAfter evaluator [] (evaluator.select context)).map fun (n, key) =>
    duplicateFinding constraint key n.line

def danglingFinding (keyref key : Constraint) (evaluator : KeyEvaluator)
    (values : List FieldValue) (line : UInt32) : Finding :=
  let composite := (CompositeKey.ofValues values).text
  let fields := evaluator.describe values
  let detail := if fields.isEmpty then s!"key: {composite}" else s!"key: {composite}; {fields}"
  let message := "In violation of key-ref constraint, missing key reference " ++
    s!"\"{keyref.name}\" ({detail})"
  ((((Finding.consistency message).withLine line).withExtra "constraint"
    (.string keyref.name)).withExtra "refer" (.string key.name)).withExtra "key" (.string composite)

/-- Reports every reference that finds no key. Elements with a `versionRef` attribute refer to
another document and are passed over. Without any reference the key is not even read. -/
def checkKeyref (keyref key : Constraint) (context : Node) : Except AuditError (List Finding) := do
  let evaluator ← KeyEvaluator.ofConstraint keyref
  let references := evaluator.select context
  if references.isEmpty then return []
  let keys ← KeySet.build key context (keyref.versionIndex? <|> key.versionIndex?)
  return references.filterMap fun n =>
    if (n.attr? "versionRef").isSome then none
    else
      let values := evaluator.values n
      if keys.resolves values then none
      else some (danglingFinding keyref key evaluator values n.line)

end TransitAudit
