import TransitAudit.Rule.Basic
import TransitAudit.Rule.Distance
import TransitAudit.Rule.StopPlaceType
import TransitAudit.Rule.StopTimes
import TransitAudit.Schema.Grammar
import TransitAudit.Task.Integrity

/-!
Running a list of rules over a document. The rules run in order, and the first that fails ends the
run; a run can be cancelled between two rules. The batches of a rule are done by any workers; each
function is there for one worker as well.
-/

namespace TransitAudit

/-- What the schema contributes, prepared before the rules run. -/
structure RuleInputs where
  constraints : Option ConstraintSet
  grammar : Option Grammar

def RuleInputs.none : RuleInputs :=
  ⟨.none, .none⟩

/-- Distances in metres above which places count as too far apart. -/
structure DistanceLimits where
  quay : Float
  assignment : Float

def DistanceLimits.default : DistanceLimits :=
  ⟨500.0, 100.0⟩

def Rule.constraintsFor (r : Rule) (inputs : RuleInputs) : Except AuditError ConstraintSet :=
  match inputs.constraints with
  | some s => .ok s
  | none => .error (.config s!"{r.name} requires the schema's constraints")

namespace Workers

variable (w : Workers)

/-- The findings of a rule on the tree of a document. The grammar does not look at the tree. -/
def check (r : Rule) (limits : DistanceLimits) (inputs : RuleInputs) (root : Node) :
    Except AuditError (List Finding) :=
  match r with
  | .grammar => .ok []
  | .uniqueConstraints => do w.uniqueConstraints root (← r.constraintsFor inputs)
  | .keyrefConstraints => do w.keyrefConstraints root (← r.constraintsFor inputs)
  | .increasingPassingTimes => w.passingTimes root .increasing
  | .nonDecreasingPassingTimes => w.passingTimes root .nonDecreasing
  | .stopPointTimes => stopTimesCheck root
  | .stopPlaceNames => namedElements root stopPlacesPath "StopPlace"
  | .scheduledStopPointNames => namedElements root scheduledStopPointsPath "ScheduledStopPoint"
  | .referencedLines => referencedElements root linesPath "Line"
  | .referencedStopPlaces => referencedElements root stopPlacesPath "StopPlace"
  | .stopPlaceTypes => stopPlaceTypeCheck root
  | .frameDefaultsLocale => frameDefaultsLocaleCheck root
  | .quayDistances => quayDistanceCheck limits.quay root
  | .assignmentDistances => assignmentDistanceCheck limits.assignment root

/-- The findings of a rule on a document, which has been parsed if any rule needs its tree. -/
def findings (r : Rule) (limits : DistanceLimits) (inputs : RuleInputs) (source : Source)
    (parsed? : Option ParsedDocument) : Except AuditError (List Finding) :=
  if r.needsGrammar then
    match inputs.grammar with
    | some validate => validate source
    | none => .error (.config "xsd rule requires a compiled schema")
  else match parsed? with
    | some d => w.check r limits inputs d.rootNode
    | none => .ok []

/-- Runs the rules one after another; `started` have been started before. `cancelled` says
whether the run is found to be cancelled when so many rules have been started. -/
def runFrom (limits : DistanceLimits) (inputs : RuleInputs) (source : Source)
    (parsed? : Option ParsedDocument) (cancelled : Nat → Bool) :
    Nat → List Rule → Except AuditError (List RuleResult)
  | _, [] => .ok []
  | started, r :: rs =>
    if cancelled started then
      .error (.concurrency s!"validation of {source.name} cancelled before rule {r.name}")
    else do
      let errors ← w.findings r limits inputs source parsed?
      return RuleResult.ofFindings r errors ::
        (← runFrom limits inputs source parsed? cancelled (started + 1) rs)

/-- Runs rules until they are done or the run is cancelled. The document is parsed only if some
rule needs its tree. -/
def runUntil (limits : DistanceLimits) (source : Source) (rules : List Rule) (inputs : RuleInputs)
    (cancelled : Nat → Bool) : Except AuditError (List RuleResult) := do
  let parsed? ← if rules.any (!·.needsGrammar) then source.parse.map some else .ok none
  w.runFrom limits inputs source parsed? cancelled 0 rules

def run (limits : DistanceLimits) (source : Source) (rules : List Rule) (inputs : RuleInputs) :
    Except AuditError (List RuleResult) :=
  w.runUntil limits source rules inputs fun _ => false

end Workers

namespace Rule

def check (r : Rule) (limits : DistanceLimits) (inputs : RuleInputs) (root : Node) :
    Except AuditError (List Finding) :=
  Workers.one.check r limits inputs root

def runUntil (limits : DistanceLimits) (source : Source) (rules : List Rule) (inputs : RuleInputs)
    (cancelled : Nat → Bool) : Except AuditError (List RuleResult) :=
  Workers.one.runUntil limits source rules inputs cancelled

def run (limits : DistanceLimits) (source : Source) (rules : List Rule) (inputs : RuleInputs) :
    Except AuditError (List RuleResult) :=
  Workers.one.run limits source rules inputs

end Rule

end TransitAudit
