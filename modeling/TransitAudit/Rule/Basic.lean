import TransitAudit.Error
import TransitAudit.Finding.Basic
import TransitAudit.Text.Trim

/-!
The rules that a document can be checked against, their names and what they need of the schema.
-/

namespace TransitAudit

inductive Rule where
  | grammar
  | uniqueConstraints
  | keyrefConstraints
  | increasingPassingTimes
  | nonDecreasingPassingTimes
  | stopPointTimes
  | stopPlaceNames
  | scheduledStopPointNames
  | referencedLines
  | referencedStopPlaces
  | stopPlaceTypes
  | frameDefaultsLocale
  | quayDistances
  | assignmentDistances
deriving DecidableEq, Repr

namespace Rule

def all : List Rule :=
  [.grammar, .uniqueConstraints, .keyrefConstraints, .increasingPassingTimes,
    .nonDecreasingPassingTimes, .stopPointTimes, .stopPlaceNames, .scheduledStopPointNames,
    .referencedLines, .referencedStopPlaces, .stopPlaceTypes, .frameDefaultsLocale,
    .quayDistances, .assignmentDistances]

/-- The rules that are checked when none are chosen: all but the lenient one on passing times. -/
def defaults : List Rule :=
  all.filter (· ≠ .nonDecreasingPassingTimes)

def name : Rule → String
  | .grammar => "xsd"
  | .uniqueConstraints => "netex-unique-constraints"
  | .keyrefConstraints => "netex-key-ref-constraints"
  | .increasingPassingTimes => "passing-times-have-increasing-times"
  | .nonDecreasingPassingTimes => "passing-times-is-not-decreasing"
  | .stopPointTimes => "every-stop-point-has-arrival-and-departure-time"
  | .stopPlaceNames => "every-stop-place-has-a-name"
  | .scheduledStopPointNames => "every-scheduled-stop-point-has-a-name"
  | .referencedLines => "every-line-is-referenced"
  | .referencedStopPlaces => "every-stop-place-is-referenced"
  | .stopPlaceTypes => "every-stop-place-has-a-correct-stop-place-type"
  | .frameDefaultsLocale => "frame-defaults-have-a-locale-and-time-zone"
  | .quayDistances => "stop-place-quay-distance-is-reasonable"
  | .assignmentDistances => "locations-are-referencing-the-same-point"

def description : Rule → String
  | .grammar => "Document conforms to the XML schema"
  | .uniqueConstraints => "Unique constraints declared by the schema hold"
  | .keyrefConstraints => "Every reference resolves to a key declared by the schema"
  | .increasingPassingTimes => "Passing times increase and day offsets never decrease"
  | .nonDecreasingPassingTimes => "Passing times never decrease"
  | .stopPointTimes => "Every stop point in a journey pattern has arrival and departure times"
  | .stopPlaceNames => "Every StopPlace has a name"
  | .scheduledStopPointNames => "Every ScheduledStopPoint has a name"
  | .referencedLines => "Every Line is referenced from another element"
  | .referencedStopPlaces => "Every StopPlace is referenced from another element"
  | .stopPlaceTypes => "Every StopPlace has a known StopPlaceType"
  | .frameDefaultsLocale => "DefaultLocale in FrameDefaults has a valid language and time zones"
  | .quayDistances => "Quays lie within a reasonable distance of their StopPlace"
  | .assignmentDistances =>
    "StopPlace and ScheduledStopPoint of a passenger stop assignment are at the same place"

def needsConstraints : Rule → Bool
  | .uniqueConstraints => true
  | .keyrefConstraints => true
  | _ => false

def needsGrammar (r : Rule) : Bool :=
  r = .grammar

def ofName? (name : String) : Option Rule :=
  all.find? (·.name == name)

/-- Reads a rule's name; white space around it is ignored. -/
def parse (text : String) : Except AuditError Rule :=
  match ofName? (Text.trimmed text) with
  | some r => .ok r
  | none => .error (.config s!"unknown rule '{Text.trimmed text}'")

end Rule

/-- The outcome of one rule on one document. -/
structure RuleResult where
  name : String
  description : String
  valid : Bool
  errorCount : Nat
  errors : List Finding
deriving Inhabited

def RuleResult.ofFindings (r : Rule) (errors : List Finding) : RuleResult :=
  ⟨r.name, r.description, errors.isEmpty, errors.length, errors⟩

end TransitAudit
