import TransitAudit.Error
import TransitAudit.Path.Evaluate
import TransitAudit.Path.Parse

/-!
Finding nodes and their text by path expressions and attribute names.
-/

namespace TransitAudit

/-- Reads a path expression; a fault is reported together with the whole expression. -/
def PathExpr.parse (expression : String) : Except NodeError PathExpr :=
  match Path.readAlternatives expression.toList with
  | .ok alternatives => .ok ⟨expression, alternatives⟩
  | .error fault => .error (.invalidPath expression fault.message)

namespace Path

/-- Joins the segments of a path with slashes; empty ones are left out. -/
def join (segments : List String) : String :=
  Text.joined "/" (segments.filter (!·.isEmpty))

/-- A qualified name without its label. -/
def localName (name : String) : String :=
  String.ofList (Text.afterLast ':' name.toList)

end Path

namespace Node

/-- All nodes an expression selects; none is an ordinary outcome. -/
def select (n : Node) (path : String) : Except NodeError (List Node) :=
  (PathExpr.parse path).map (·.evaluate n)

/-- Like `select`, but there has to be at least one node. -/
def find (n : Node) (path : String) : Except NodeError (List Node) := do
  let found ← n.select path
  if found.isEmpty then throw (.notFound path)
  return found

def firstOf (n : Node) (e : PathExpr) : Except NodeError Node :=
  match e.evaluate n with
  | found :: _ => .ok found
  | [] => .error (.notFound e.source)

def first (n : Node) (path : String) : Except NodeError Node := do
  n.firstOf (← PathExpr.parse path)

/-- The value of the first attribute with the local name of the given name. -/
def attr? (n : Node) (name : String) : Option String :=
  (n.attributes.find? (·.name == Path.localName name)).map (·.value)

def attr (n : Node) (name : String) : Except NodeError String :=
  match n.attr? name with
  | some value => .ok value
  | none => .error (.attributeNotFound name)

def textAt (n : Node) (path : String) : Except NodeError String :=
  (n.first path).map (·.text)

/-- Like `textAt`, where a missing node gives nothing; only a path that cannot be read fails. -/
def textAt? (n : Node) (path : String) : Except NodeError (Option String) :=
  match n.textAt path with
  | .ok text => .ok (some text)
  | .error e => if e.isNotFound then .ok none else .error e

/-- `select` within a run, which a path that cannot be read ends. -/
def nodesAt (n : Node) (path : String) : Except AuditError (List Node) :=
  (n.select path).mapError AuditError.ofNode

/-- `textAt?` within a run. -/
def stringAt? (n : Node) (path : String) : Except AuditError (Option String) :=
  (n.textAt? path).mapError AuditError.ofNode

end Node

end TransitAudit
