/-!
Why a text is not a path expression.
-/

namespace TransitAudit.Path

inductive Fault where
  | emptyExpression
  | unbalancedBrackets
  | unterminatedLiteral
  | missingStep
  | emptyStep
  | afterDoubleSlash (step : String)
  | attributeName (name : String)
  | nameTest (name : String)
  | unexpected (rest : String)
  | unterminatedPredicate
  | position (text : String)
  | predicate (text : String)
deriving DecidableEq, Repr

def Fault.message : Fault → String
  | .emptyExpression => "empty expression"
  | .unbalancedBrackets => "unbalanced brackets"
  | .unterminatedLiteral => "unterminated string literal"
  | .missingStep => "missing location step"
  | .emptyStep => "empty location step"
  | .afterDoubleSlash step => s!"'{step}' cannot follow '//'"
  | .attributeName name => s!"invalid attribute name '{name}'"
  | .nameTest name => s!"invalid name test '{name}'"
  | .unexpected rest => s!"unexpected '{rest}'"
  | .unterminatedPredicate => "unterminated predicate"
  | .position text => s!"invalid position '{text}'"
  | .predicate text => s!"unsupported predicate '[{text}]'"

end TransitAudit.Path
