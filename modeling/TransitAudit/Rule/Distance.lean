import TransitAudit.Decimal.Layout
import TransitAudit.Rule.FrameDefaults
import TransitAudit.Rule.Geography

/-!
Distances that are too long: between a stop place and its quays, and between the two ends of a stop
assignment.
-/

namespace TransitAudit

/-- A distance as a further value of a finding. -/
def distanceValue (metres : Float) : Json.Value :=
  if metres.isFinite then .real metres else .null

def quayFindings (limit : Float) (stopPlaceId : String) (centre : Coordinates) (quay : Node) :
    Except AuditError (List Finding) := do
  match ← Coordinates.read quay "Centroid/Location" with
  | none => return []
  | some position =>
    let distance := centre.metresTo position
    if distance > limit then
      let quayId := (quay.attr? "id").getD ""
      let message := s!"Distance between StopPlace and Quay greater than {Decimal.plain limit}m " ++
        s!"(StopPlace @id={stopPlaceId}, Quay @id={quayId}, " ++
        s!"distance={Decimal.plain distance}m)"
      return [((Finding.quality message).withLine quay.line).withExtra "distance_meters"
        (distanceValue distance)]
    else return []

def stopPlaceQuays (limit : Float) (stopPlace : Node) : Except AuditError (List Finding) := do
  match ← Coordinates.read stopPlace "Centroid/Location" with
  | none => return []
  | some centre =>
    let id := (stopPlace.attr? "id").getD ""
    return (← (← stopPlace.nodesAt "quays/Quay").mapM (quayFindings limit id centre)).flatten

/-- A location system in which the distances make sense. -/
def isGeographic (system : String) : Bool :=
  Text.occursIn "4326".toList system.toList || Text.occursIn "WGS84".toList system.toList

/-- Quays have to lie near their stop place. The document has to say that its coordinates are
geographic ones. -/
def quayDistanceCheck (limit : Float) (root : Node) : Except AuditError (List Finding) := do
  match ← firstAt? root frameDefaultsPath with
  | none => return [missingFrameDefaults]
  | some frameDefaults =>
    let general := fun (message : String) =>
      [(Finding.general message).withLine frameDefaults.line]
    match ← frameDefaults.stringAt? "DefaultLocationSystem" with
    | none =>
      return general "Element <FrameDefaults /> is missing child <DefaultLocationSystem />"
    | some system =>
      if !isGeographic system then
        return general "Document coordinates is not in WGS84/EPSG:4326"
      return (← (← root.nodesAt stopPlacesPath).mapM (stopPlaceQuays limit)).flatten

/-- The last of the nodes with an id. -/
def withId? (nodes : List Node) (id : String) : Option Node :=
  nodes.reverse.find? fun n => n.attr? "id" == some id

/-- The node that a reference at a path names, white space around it ignored. -/
def referredFrom (n : Node) (path : String) (nodes : List Node) :
    Except AuditError (Option Node) := do
  return (← n.stringAt? path).bind fun reference => withId? nodes (Text.trimmed reference)

def assignmentFindings (limit : Float) (scheduledStopPoints stopPlaces : List Node)
    (assignment : Node) : Except AuditError (List Finding) := do
  let id := (assignment.attr? "id").getD ""
  match ← referredFrom assignment "ScheduledStopPointRef/@ref" scheduledStopPoints with
  | none => return [inconsistency assignment
      s!"Missing ScheduledStopPoint (PassengerStopAssignment @id={id})"]
  | some scheduledStopPoint =>
    match ← referredFrom assignment "StopPlaceRef/@ref" stopPlaces with
    | none => return [inconsistency assignment
        s!"Missing StopPlace (PassengerStopAssignment @id={id})"]
    | some stopPlace =>
      let place? ← Coordinates.read stopPlace "Centroid/Location"
      let point? ← Coordinates.read scheduledStopPoint "Location"
      match place?, point? with
      | some place, some point =>
        let distance := place.metresTo point
        if distance > limit then
          let message := "ScheduledStopPoint and StopPlace are too far apart " ++
            s!"(PassengerStopAssignment @id={id}, distance={Decimal.plain distance}m)"
          return [(inconsistency assignment message).withExtra "distance_meters"
            (distanceValue distance)]
        else return []
      | _, _ => return []

/-- The two ends of a stop assignment have to be near each other. -/
def assignmentDistanceCheck (limit : Float) (root : Node) : Except AuditError (List Finding) := do
  let scheduledStopPoints ← root.nodesAt scheduledStopPointsPath
  let stopPlaces ← root.nodesAt stopPlacesPath
  let assignments ← root.nodesAt
    (Path.join [framesPath, "ServiceFrame", "stopAssignments", "PassengerStopAssignment"])
  return (← assignments.mapM
    (assignmentFindings limit scheduledStopPoints stopPlaces)).flatten

end TransitAudit
