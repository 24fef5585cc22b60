import TransitAudit.Constraint.Basic
import TransitAudit.Document.Navigate

/-!
Composite keys. The fields of a constraint give each selected element a tuple of values, some of
which may be absent; the tuple is written as one text, and keys are compared as such texts.
-/

namespace TransitAudit

open Text

/-- The value of a field at an element. -/
inductive FieldValue where
  | present (text : String)
  | absent
deriving DecidableEq, Repr

namespace FieldValue

/-- What is written in a key for a missing value. -/
def absentMark : String := "_notfound_"

def keyPart : FieldValue → String
  | .present text => text
  | .absent => absentMark

def ofOption : Option String → FieldValue
  | some text => .present text
  | none => .absent

def isPresent : FieldValue → Bool
  | .present _ => true
  | .absent => false

end FieldValue

/-- A tuple of field values as one text. -/
structure CompositeKey where
  text : String
deriving DecidableEq, Repr, Hashable

namespace CompositeKey

def delimiter : String := ";"

def ofParts (parts : List String) : CompositeKey :=
  ⟨joined delimiter parts⟩

def ofValues (values : List FieldValue) : CompositeKey :=
  ofParts (values.map (·.keyPart))

/-- The key of a tuple whose value at one position is taken as absent. -/
def withAbsentAt (values : List FieldValue) (index : Nat) : CompositeKey :=
  ofValues (values.mapIdx fun i v => if i = index then .absent else v)

end CompositeKey

/-- A field path. One that names a single attribute is looked up directly. -/
inductive FieldPath where
  | attributeNamed (source name : String)
  | path (expression : PathExpr)
deriving DecidableEq, Repr

namespace FieldPath

/-- The characters of an attribute name that is looked up directly. -/
def isDirectChar (c : Char) : Bool :=
  isAlphanumeric c || c == '_' || c == '-' || c == '.' || c == ':'

def compile (raw : String) : Except AuditError FieldPath :=
  let text := trim raw.toList
  match text with
  | '@' :: name =>
    if !name.isEmpty && name.all isDirectChar then
      .ok (.attributeNamed (String.ofList text) (String.ofList name))
    else general (String.ofList text)
  | _ => general (String.ofList text)
where
  general (text : String) : Except AuditError FieldPath :=
    match PathExpr.parse text with
    | .ok e => .ok (.path e)
    | .error e => .error (.ofNode e)

def source : FieldPath → String
  | .attributeNamed source _ => source
  | .path e => e.source

def evaluate (f : FieldPath) (n : Node) : FieldValue :=
  match f with
  | .attributeNamed _ name => .ofOption (n.attr? name)
  | .path e => .ofOption ((n.firstOf e).toOption.map (·.text))

end FieldPath

/-- A constraint with its paths read. -/
structure KeyEvaluator where
  selector : PathExpr
  fields : List FieldPath
deriving DecidableEq, Repr

namespace KeyEvaluator

def ofConstraint (c : Constraint) : Except AuditError KeyEvaluator := do
  let selector ← (PathExpr.parse c.selector).mapError AuditError.ofNode
  let fields ← c.fields.mapM FieldPath.compile
  return ⟨selector, fields⟩

/-- The elements that the constraint applies to, in document order. -/
def select (k : KeyEvaluator) (context : Node) : List Node :=
  k.selector.evaluate context

def values (k : KeyEvaluator) (n : Node) : List FieldValue :=
  k.fields.map (·.evaluate n)

def keyAt (k : KeyEvaluator) (n : Node) : CompositeKey :=
  .ofValues (k.values n)

/-- The fields that are present, as `path="value"`. -/
def describe (k : KeyEvaluator) (values : List FieldValue) : String :=
  joined ", " ((k.fields.zip values).filterMap fun (f, v) =>
    match v with
    | .present text => some s!"{f.source}=\"{text}\""
    | .absent => none)

end KeyEvaluator

end TransitAudit
