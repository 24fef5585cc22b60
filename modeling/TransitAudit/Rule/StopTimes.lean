import TransitAudit.Rule.Naming

/-!
The stop points of journey patterns: each refers to a scheduled stop point, and the passing times at
it say when journeys arrive and depart. Journeys need not arrive at the first stop point nor depart
from the last one.
-/

namespace TransitAudit

/-- The passing times of all journeys, each with the stop point it refers to. -/
def passingTimesByStopPoint (root : Node) : Except AuditError (List (String × Node)) := do
  let nodes ← root.nodesAt (Path.join [serviceJourneysPath, "passingTimes",
    "TimetabledPassingTime"])
  let references ← nodes.mapM (·.stringAt? "StopPointInJourneyPatternRef/@ref")
  return (references.zip nodes).filterMap fun (reference?, n) => reference?.map (·, n)

def scheduledStopFindings (scheduled : List String) (reference : Node) : List Finding :=
  let id := reference.text
  if scheduled.contains id then []
  else [inconsistency reference s!"Missing ScheduledStopPoint(@id={id})"]

/-- What one passing time lacks at a stop point, which `context` names. -/
def passingTimeGaps (context : String) (isFirst isLast : Bool) (passingTime : Node) :
    Except AuditError (List Finding) :=
  match passingTime.attr? "id" with
  | none => .ok [inconsistency passingTime
      s!"Expected TimetabledPassingTime to have attribute @id {context}"]
  | some id => do
    let departure? ← passingTime.stringAt? "DepartureTime"
    let arrival? ← passingTime.stringAt? "ArrivalTime"
    let missing := fun (part : String) => inconsistency passingTime
      s!"Expected {part} time in TimetabledPassingTime(@id={id}) {context}"
    return (if !isLast && departure?.isNone then [missing "departure"] else []) ++
      (if !isFirst && arrival?.isNone then [missing "arrival"] else [])

def stopPointGaps (passingTimes : List (String × Node)) (last : Nat) (position : Nat)
    (stopPoint : Node) : Except AuditError (List Finding) := do
  let id := (stopPoint.attr? "id").getD ""
  let context := s!"for StopPointInJourneyPattern(@id={id})"
  let times := (passingTimes.filter (·.1 == id)).map (·.2)
  if times.isEmpty then return [inconsistency stopPoint s!"Expected passing times {context}"]
  return (← times.mapM (passingTimeGaps context (position == 0) (position == last))).flatten

def stopPointGapsFrom (passingTimes : List (String × Node)) (last : Nat) :
    Nat → List Node → Except AuditError (List Finding)
  | _, [] => .ok []
  | position, n :: ns => do
    let findings ← stopPointGaps passingTimes last position n
    return findings ++ (← stopPointGapsFrom passingTimes last (position + 1) ns)

/-- The findings on one journey pattern. Only stop points with an id are looked at. -/
def patternFindings (scheduled : List String) (passingTimes : List (String × Node))
    (pattern : Node) : Except AuditError (List Finding) := do
  let references ← pattern.nodesAt
    "pointsInSequence/StopPointInJourneyPattern/ScheduledStopPointRef/@ref"
  let stopPoints ← pattern.nodesAt "pointsInSequence/StopPointInJourneyPattern[@id]"
  let gaps ← stopPointGapsFrom passingTimes (stopPoints.length - 1) 0 stopPoints
  return references.flatMap (scheduledStopFindings scheduled) ++ gaps

/-- Checks all journey patterns. -/
def stopTimesCheck (root : Node) : Except AuditError (List Finding) := do
  let scheduled ← root.nodesAt (Path.join [scheduledStopPointsPath, "@id"])
  let passingTimes ← passingTimesByStopPoint root
  let patterns ← root.nodesAt (Path.join [framesPath, "ServiceFrame", "journeyPatterns",
    "*[contains(name(), 'JourneyPattern')]"])
  return (← patterns.mapM (patternFindings (scheduled.map (·.text)) passingTimes)).flatten

end TransitAudit
