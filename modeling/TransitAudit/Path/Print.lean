import TransitAudit.Path.Syntax
import TransitAudit.Text.Trim

/-!
Writing path expressions in one form: alternatives between bars, steps between slashes, and each
literal between quotes of a kind that does not occur in it. What was read from a text has no
literal with both kinds of quotes.
-/

namespace TransitAudit.Path

def NameTest.text : NameTest → String
  | .any => "*"
  | .named name => name

/-- A text between quotes. -/
def quoted (text : String) : String :=
  let quote := if '\x27' ∈ text.toList then "\"" else "'"
  quote ++ text ++ quote

/-- A predicate between its brackets. -/
def Predicate.text : Predicate → String
  | .hasAttribute test => "@" ++ test.text
  | .attributeIs test value => "@" ++ test.text ++ " = " ++ quoted value
  | .attributeIsNot test value => "@" ++ test.text ++ " != " ++ quoted value
  | .childIs test value => test.text ++ " = " ++ quoted value
  | .nameContains part => "contains(name(), " ++ quoted part ++ ")"
  | .position number => toString number
  | .last => "last()"

/-- A step behind its slashes. -/
def Step.text (s : Step) : String :=
  match s.axis with
  | .self => "."
  | .parent => ".."
  | .attribute => "@" ++ s.test.text
  | _ => s.test.text ++ String.join (s.predicates.map fun p => "[" ++ p.text ++ "]")

/-- The slash that leads to a step; two lead to all descendants. -/
def Step.lead (s : Step) : String :=
  if s.axis = .descendant then "//" else "/"

/-- A location path. An absolute one begins with the slashes of its first step. -/
def LocationPath.text (p : LocationPath) : String :=
  match p.absolute, p.steps with
  | true, [] => "/"
  | true, steps => String.join (steps.map fun s => s.lead ++ s.text)
  | false, [] => ""
  | false, s :: steps => s.text ++ String.join (steps.map fun s => s.lead ++ s.text)

end TransitAudit.Path

namespace TransitAudit

/-- The expression in its one form. -/
def PathExpr.text (e : PathExpr) : String :=
  Text.joined " | " (e.alternatives.map (·.text))

end TransitAudit
