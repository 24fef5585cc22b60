import TransitAudit.Constraint.Basic
import TransitAudit.Constraint.TargetLabel

/-!
The identity constraints of a schema. They are read from the schema's tree; a declaration that
lacks a part makes the whole reading fail. Every reference is then paired with the key it names.
-/

namespace TransitAudit

/-- Where a schema declares the constraints of one kind. -/
def ConstraintKind.declarations : ConstraintKind → String
  | .key => ".//xsd:key"
  | .keyref => ".//xsd:keyref"
  | .unique => ".//xsd:unique"

def required (value? : Option String) (name reason : String) : Except AuditError String :=
  match value? with
  | some value => .ok value
  | none => .error (.malformedConstraint name reason)

/-- Reads one declaration; `label?` is the label of the target namespace. -/
def Constraint.ofDeclaration (label? : Option String) (kind : ConstraintKind) (n : Node) :
    Except AuditError Constraint := do
  let line := n.line
  let name ← required (n.attr? "name") s!"<unnamed {kind.name} at line {line.toNat}>"
    "missing attribute name"
  let selector ← match n.first "xsd:selector" with
    | .ok s => required (s.attr? "xpath") name "xsd:selector is missing attribute xpath"
    | .error _ => throw (.malformedConstraint name "missing xsd:selector")
  let fields ← (← n.nodesAt "xsd:field").mapM fun field => do
    let path ← required (field.attr? "xpath") name "xsd:field is missing attribute xpath"
    return stripLabel label? path
  if fields.isEmpty then throw (.malformedConstraint name "no xsd:field declared")
  let refer ← match kind with
    | .keyref => do
      let refer ← required (n.attr? "refer") name "missing attribute refer"
      pure (some (Path.localName refer))
    | _ => pure none
  return ⟨name, kind, stripLabel label? selector, fields, refer, line⟩

/-- The constraints of a schema, each kind in document order. -/
structure ConstraintSet where
  keys : List Constraint
  keyrefs : List Constraint
  uniques : List Constraint
deriving DecidableEq, Repr

/-- A reference with the key it resolves against. -/
structure KeyrefPair where
  keyref : Constraint
  key : Constraint
deriving DecidableEq, Repr

namespace ConstraintSet

def size (s : ConstraintSet) : Nat :=
  s.keys.length + s.keyrefs.length + s.uniques.length

def isEmpty (s : ConstraintSet) : Bool :=
  s.size == 0

/-- Reads the constraints declared anywhere inside the root element of a schema. -/
def extract (schemaRoot : Node) : Except AuditError ConstraintSet := do
  let label? := targetLabel? schemaRoot
  let collect := fun (kind : ConstraintKind) => do
    let nodes ← schemaRoot.nodesAt kind.declarations
    nodes.mapM (Constraint.ofDeclaration label? kind)
  let keys ← collect .key
  let keyrefs ← collect .keyref
  let uniques ← collect .unique
  return ⟨keys, keyrefs, uniques⟩

/-- The key that a reference names: exactly one key has that name, with as many fields. -/
def keyOf (s : ConstraintSet) (keyref : Constraint) : Except AuditError KeyrefPair :=
  let refer := keyref.refer.getD ""
  match s.keys.filter (·.name == refer) with
  | [key] =>
    if key.fields.length = keyref.fields.length then .ok ⟨keyref, key⟩
    else .error (.malformedConstraint keyref.name
      s!"has {keyref.fields.length} fields but key \"{key.name}\" has {key.fields.length}")
  | [] => .error (.malformedConstraint keyref.name s!"refer \"{refer}\" does not name a key")
  | _ => .error (.malformedConstraint keyref.name s!"refer \"{refer}\" names more than one key")

/-- Every reference with its key, in the order of the references. -/
def keyrefPairs (s : ConstraintSet) : Except AuditError (List KeyrefPair) :=
  s.keyrefs.mapM s.keyOf

end ConstraintSet

end TransitAudit
