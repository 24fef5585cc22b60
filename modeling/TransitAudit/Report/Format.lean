/-!
The forms that a report can take and how much it tells.
-/

namespace TransitAudit

inductive OutputFormat where
  | human
  | json
  | summary
deriving DecidableEq, Repr, Inhabited

def OutputFormat.name : OutputFormat → String
  | .human => "human"
  | .json => "json"
  | .summary => "summary"

def OutputFormat.all : List OutputFormat :=
  [.human, .json, .summary]

def OutputFormat.ofName? (name : String) : Option OutputFormat :=
  OutputFormat.all.find? (·.name == name)

inductive Verbosity where
  | quiet
  | normal
  | verbose
deriving DecidableEq, Repr, Inhabited

/-- Being quiet counts for more than being verbose. -/
def Verbosity.ofFlags (verbose quiet : Bool) : Verbosity :=
  if quiet then .quiet else if verbose then .verbose else .normal

/-- The least severe messages that are logged. -/
def Verbosity.logFilter : Verbosity → String
  | .quiet => "error"
  | .normal => "warn"
  | .verbose => "debug"

end TransitAudit
