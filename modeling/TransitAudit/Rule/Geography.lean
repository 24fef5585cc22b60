import TransitAudit.Decimal.Read
import TransitAudit.Document.Navigate

/-!
Places on the globe and the distances between them.
-/

namespace TransitAudit

/-- A place in degrees. -/
structure Coordinates where
  latitude : Float
  longitude : Float

namespace Coordinates

def numberAt (n : Node) (path : String) : Except AuditError (Option Float) := do
  let text? ← n.stringAt? path
  return text?.bind fun text => Decimal.readFloat? (Text.trimmed text)

/-- The coordinates of a location below a node, when both can be read. -/
def read (n : Node) (location : String) : Except AuditError (Option Coordinates) := do
  let latitude? ← numberAt n s!"{location}/Latitude"
  let longitude? ← numberAt n s!"{location}/Longitude"
  return latitude?.bind fun latitude => longitude?.map fun longitude => ⟨latitude, longitude⟩

def earthRadiusKilometres : Float := 6371.0

/-- One degree in radians: 0.017453292519943295. -/
def degree : Float := Float.ofBits 0x3F91DF46A2529D39

/-- The great-circle distance by the haversine formula. -/
def kilometresTo (a b : Coordinates) : Float :=
  let halfLatitude := ((b.latitude - a.latitude) * degree / 2.0).sin
  let halfLongitude := ((b.longitude - a.longitude) * degree / 2.0).sin
  let h := halfLatitude * halfLatitude +
    (a.latitude * degree).cos * (b.latitude * degree).cos * (halfLongitude * halfLongitude)
  earthRadiusKilometres * 2.0 * Float.atan2 h.sqrt (1.0 - h).sqrt

/-- The distance rounded to whole metres. -/
def metresTo (a b : Coordinates) : Float :=
  (kilometresTo a b * 1000.0).round

end Coordinates

end TransitAudit
