import TransitAudit.Text.Trim

/-!
Identity constraints of a schema: keys, references to keys and unique fields. A constraint
selects elements and reads a tuple of fields from each.
-/

namespace TransitAudit

inductive ConstraintKind where
  | key
  | keyref
  | unique
deriving DecidableEq, Repr

def ConstraintKind.name : ConstraintKind → String
  | .key => "key"
  | .keyref => "keyref"
  | .unique => "unique"

/-- A declared constraint. `refer` names the key that a reference resolves against, and `line` is
where the schema declares the constraint. -/
structure Constraint where
  name : String
  kind : ConstraintKind
  selector : String
  fields : List String
  refer : Option String
  line : UInt32
deriving DecidableEq, Repr

/-- The field that carries the version of an object. -/
def versionField : String := "@version"

def isVersionField (field : String) : Bool :=
  Text.trimmed field == versionField

/-- The position of the version among the fields. -/
def Constraint.versionIndex? (c : Constraint) : Option Nat :=
  c.fields.findIdx? isVersionField

end TransitAudit
