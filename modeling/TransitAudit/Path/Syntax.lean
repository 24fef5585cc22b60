/-!
Path expressions: alternatives of location paths, whose steps go along an axis, test a name and
filter by predicates. Only local names are compared; a namespace label in a name test has no
effect.
-/

namespace TransitAudit.Path

inductive Axis where
  | child
  | descendant
  | self
  | parent
  | attribute
deriving DecidableEq, Repr

inductive NameTest where
  | any
  | named (name : String)
deriving DecidableEq, Repr

/-- Whether a local name passes the test. -/
def NameTest.accepts : NameTest → String → Bool
  | .any, _ => true
  | .named wanted, name => wanted == name

inductive Predicate where
  | hasAttribute (test : NameTest)
  | attributeIs (test : NameTest) (value : String)
  | attributeIsNot (test : NameTest) (value : String)
  | childIs (test : NameTest) (value : String)
  | nameContains (part : String)
  | position (number : Nat)
  | last
deriving DecidableEq, Repr

structure Step where
  axis : Axis
  test : NameTest
  predicates : List Predicate
deriving DecidableEq, Repr

/-- A location path; an absolute one starts at the document. -/
structure LocationPath where
  absolute : Bool
  steps : List Step
deriving DecidableEq, Repr

end TransitAudit.Path

namespace TransitAudit

/-- A path expression as written, with the alternatives it stands for. -/
structure PathExpr where
  source : String
  alternatives : List Path.LocationPath
deriving DecidableEq, Repr

end TransitAudit
