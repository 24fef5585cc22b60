import TransitAudit.Decimal.Read
import TransitAudit.Document.Navigate

/-!
The passing times of a journey: when it arrives at a stop and when it departs, with the days these
times are offset by.
-/

namespace TransitAudit

structure PassingTime where
  id : Option String
  stopPoint : Option String
  arrivalTime : Option String
  arrivalOffset : Option Int
  departureTime : Option String
  departureOffset : Option Int
  line : UInt32
deriving DecidableEq, Repr

namespace PassingTime

/-- The trimmed text at a path, if there is any. -/
def textAt (n : Node) (path : String) : Except AuditError (Option String) := do
  let text? ← n.stringAt? path
  return (text?.map Text.trimmed).filter (!·.isEmpty)

/-- The day offset at a path; a text that is no number counts as none. -/
def offsetAt (n : Node) (path : String) : Except AuditError (Option Int) := do
  return (← textAt n path).bind Decimal.readInt?

def read (n : Node) : Except AuditError PassingTime := do
  return {
    id := n.attr? "id"
    stopPoint := ← textAt n "StopPointInJourneyPatternRef/@ref"
    arrivalTime := ← textAt n "ArrivalTime"
    arrivalOffset := ← offsetAt n "ArrivalDayOffset"
    departureTime := ← textAt n "DepartureTime"
    departureOffset := ← offsetAt n "DepartureDayOffset"
    line := n.line }

/-- The arrival, or the departure where no arrival is given. -/
def arrivalSide (p : PassingTime) : Option String :=
  p.arrivalTime <|> p.departureTime

/-- The departure, or the arrival where no departure is given. -/
def departureSide (p : PassingTime) : Option String :=
  p.departureTime <|> p.arrivalTime

def arrivalSideOffset (p : PassingTime) : Int :=
  (p.arrivalOffset <|> p.departureOffset).getD 0

def departureSideOffset (p : PassingTime) : Int :=
  (p.departureOffset <|> p.arrivalOffset).getD 0

end PassingTime

end TransitAudit
