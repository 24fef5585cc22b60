import TransitAudit.Key.Basic

/-!
The keys that a key constraint produces below some context. With a version position each key is
also recorded with that position absent, so that a reference without a version finds a key of any
version.
-/

namespace TransitAudit

structure KeySet where
  exact : List CompositeKey
  versionless : List CompositeKey
  versionIndex : Option Nat
deriving DecidableEq, Repr

namespace KeySet

def ofTuples (tuples : List (List FieldValue)) (versionIndex : Option Nat) : KeySet :=
  { exact := (tuples.map CompositeKey.ofValues).eraseDups
    versionless := match versionIndex with
      | some index => (tuples.map (CompositeKey.withAbsentAt · index)).eraseDups
      | none => []
    versionIndex }

/-- The keys of the elements that a key constraint selects. -/
def build (key : Constraint) (context : Node) (versionIndex : Option Nat) :
    Except AuditError KeySet := do
  let evaluator ← KeyEvaluator.ofConstraint key
  return ofTuples ((evaluator.select context).map evaluator.values) versionIndex

/-- The number of different keys. -/
def size (s : KeySet) : Nat :=
  s.exact.length

def isEmpty (s : KeySet) : Bool :=
  s.exact.isEmpty

/-- Whether a reference finds a key. With a version it finds a key of that version or of none;
without one it finds a key of any version. -/
def resolves (s : KeySet) (reference : List FieldValue) : Bool :=
  match s.versionIndex with
  | none => s.exact.contains (.ofValues reference)
  | some index =>
    match reference[index]? with
    | some (.present _) =>
      s.exact.contains (.ofValues reference) ||
        s.exact.contains (.withAbsentAt reference index)
    | _ => s.versionless.contains (.withAbsentAt reference index)

end KeySet

end TransitAudit
