import TransitAudit.Rule.Naming

/-!
The types that a stop place may have.
-/

namespace TransitAudit

def stopPlaceTypeNames : List String :=
  ["onstreetBus", "onstreetTram", "busStation", "airport", "railStation", "metroStation",
    "coachStation", "ferryPort", "harbourPort", "ferryStop", "liftStation", "tramStation",
    "vehicleRailInterchange", "taxiStand", "other"]

def stopPlaceTypeFindings (n : Node) : Except AuditError (List Finding) := do
  let id := (n.attr? "id").getD ""
  let kind? := ((← n.stringAt? "StopPlaceType").map Text.trimmed).filter (!·.isEmpty)
  match kind? with
  | none => return [inconsistency n s!"StopPlaceType is not set for StopPlace(@id={id})"]
  | some kind =>
    if stopPlaceTypeNames.contains kind then return []
    return [(inconsistency n s!"StopPlaceType is not valid for StopPlace(@id={id})").withExtra
      "stop_place_type" (.string kind)]

/-- Every stop place needs a known type. -/
def stopPlaceTypeCheck (root : Node) : Except AuditError (List Finding) := do
  return (← (← root.nodesAt stopPlacesPath).mapM stopPlaceTypeFindings).flatten

end TransitAudit
