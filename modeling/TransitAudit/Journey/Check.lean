import TransitAudit.Document.Places
import TransitAudit.Finding.Basic
import TransitAudit.Journey.PassingTime
import TransitAudit.Journey.Time

/-!
The checks on a journey: within a day times move forward from stop to stop, day offsets never
decrease, and every passing time refers to a stop point of some journey pattern. Only neighbouring
passing times are compared.
-/

namespace TransitAudit

/-- How strictly times have to move forward. -/
inductive Monotonicity where
  | increasing
  | nonDecreasing
deriving DecidableEq, Repr

namespace Monotonicity

/-- Whether an arrival comes too early after a departure. -/
def violatedBy (m : Monotonicity) (departure arrival : String) : Bool :=
  match m with
  | .increasing => compareTimes departure arrival != .lt
  | .nonDecreasing => compareTimes departure arrival == .gt

def expectation : Monotonicity → String
  | .increasing => "to increase"
  | .nonDecreasing => "to not decrease"

end Monotonicity

def serviceJourneysPath : String :=
  Path.join [framesPath, "TimetableFrame", "vehicleJourneys", "ServiceJourney"]

/-- The stop points that journey patterns declare, by their ids. -/
structure StopPointIndex where
  ids : List String
deriving DecidableEq, Repr

namespace StopPointIndex

def ofIds (ids : List String) : StopPointIndex :=
  ⟨ids.eraseDups⟩

def path : String :=
  Path.join [framesPath, "ServiceFrame", "journeyPatterns",
    "*[contains(name(), 'JourneyPattern')]", "pointsInSequence", "StopPointInJourneyPattern",
    "@id"]

def build (root : Node) : Except AuditError StopPointIndex := do
  let nodes ← root.nodesAt path
  return ofIds (nodes.map (·.text))

def contains (s : StopPointIndex) (id : String) : Bool :=
  s.ids.contains id

def size (s : StopPointIndex) : Nat :=
  s.ids.length

def isEmpty (s : StopPointIndex) : Bool :=
  s.ids.isEmpty

end StopPointIndex

/-- How messages name a passing time of a journey. -/
def PassingTime.location (journeyId : String) (p : PassingTime) : String :=
  let id := p.id.getD ""
  s!"ServiceJourney(@id={journeyId}), TimetabledPassingTime(@id={id})"

def findingAt (p : PassingTime) (message : String) : Finding :=
  (Finding.consistency message).withLine p.line

/-- Compares departure and arrival of neighbours on the same day. -/
def timeFindings (mode : Monotonicity) (location : String) (previous current : PassingTime) :
    List Finding :=
  match previous.departureSide, current.arrivalSide with
  | some departure, some arrival =>
    if previous.departureSideOffset = current.arrivalSideOffset &&
        mode.violatedBy departure arrival then
      [findingAt current s!"Expected passing time {mode.expectation} in {location}"]
    else []
  | _, _ => []

/-- Compares day offsets of neighbours, where both are given. -/
def offsetFindings (name location : String) (previous current : Option Int) (p : PassingTime) :
    List Finding :=
  match previous, current with
  | some before, some now =>
    if now < before then [findingAt p s!"{name} must not decrease in sequence in {location}"]
    else []
  | _, _ => []

def transitionFindings (mode : Monotonicity) (location : String)
    (previous current : PassingTime) : List Finding :=
  timeFindings mode location previous current ++
    offsetFindings "ArrivalDayOffset" location previous.arrivalOffset current.arrivalOffset
      current ++
    offsetFindings "DepartureDayOffset" location previous.departureOffset current.departureOffset
      current

def stopPointFindings (stopPoints : StopPointIndex) (location : String) (p : PassingTime) :
    List Finding :=
  match p.stopPoint with
  | some id =>
    if stopPoints.contains id then []
    else [findingAt p
      s!"Expected StopPointInJourneyPattern(@id={id}) referenced from {location}"]
  | none => [findingAt p s!"Missing StopPointInJourneyPatternRef in {location}"]

/-- What one passing time gives rise to, given the one before it. -/
def passingTimeFindings (stopPoints : StopPointIndex) (mode : Monotonicity) (journeyId : String)
    (previous : Option PassingTime) (current : PassingTime) : List Finding :=
  let location := current.location journeyId
  (match previous with
    | some p => transitionFindings mode location p current
    | none => []) ++
    stopPointFindings stopPoints location current

def sequenceFindings (stopPoints : StopPointIndex) (mode : Monotonicity) (journeyId : String) :
    Option PassingTime → List PassingTime → List Finding
  | _, [] => []
  | previous, p :: ps =>
    passingTimeFindings stopPoints mode journeyId previous p ++
      sequenceFindings stopPoints mode journeyId (some p) ps

/-- The passing times of a journey in document order. -/
def passingTimesOf (journey : Node) : Except AuditError (List PassingTime) := do
  let nodes ← journey.nodesAt "passingTimes/TimetabledPassingTime"
  nodes.mapM PassingTime.read

/-- Checks one journey. -/
def checkJourney (journey : Node) (stopPoints : StopPointIndex) (mode : Monotonicity) :
    Except AuditError (List Finding) := do
  let journeyId := (journey.attr? "id").getD ""
  return sequenceFindings stopPoints mode journeyId none (← passingTimesOf journey)

end TransitAudit
