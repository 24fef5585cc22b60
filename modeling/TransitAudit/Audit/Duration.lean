/-!
Spans of time in nanoseconds.
-/

namespace TransitAudit

structure Duration where
  nanos : Nat
deriving DecidableEq, Repr

namespace Duration

def zero : Duration :=
  ⟨0⟩

def perSecond : Nat := 1000000000

/-- Whole seconds. -/
def seconds (d : Duration) : Nat :=
  d.nanos / perSecond

/-- Nanoseconds beyond the whole seconds. -/
def subsecond (d : Duration) : Nat :=
  d.nanos % perSecond

def ofParts (seconds subsecond : Nat) : Duration :=
  ⟨seconds * perSecond + subsecond⟩

def sum (ds : List Duration) : Duration :=
  ⟨(ds.map (·.nanos)).foldr (· + ·) 0⟩

/-- The mean of a total, in whole nanoseconds; of nothing it is zero. -/
def mean (total : Duration) (count : Nat) : Duration :=
  ⟨total.nanos / count⟩

/-- A number of which the last `places` digits stand behind the point, without zeros at its end. -/
def withPoint (places n : Nat) : String :=
  let digits := Nat.toDigits 10 (n % Nat.pow 10 places)
  let padded := List.replicate (places - digits.length) '0' ++ digits
  match padded.reverse.dropWhile (· == '0') with
  | [] => toString (n / Nat.pow 10 places)
  | rest => s!"{n / Nat.pow 10 places}." ++ String.ofList rest.reverse

/-- All of a duration, in the largest unit of which there is a whole one. -/
def exactText (d : Duration) : String :=
  if perSecond ≤ d.nanos then withPoint 9 d.nanos ++ "s"
  else if 1000000 ≤ d.nanos then withPoint 6 d.nanos ++ "ms"
  else if 1000 ≤ d.nanos then withPoint 3 d.nanos ++ "µs"
  else withPoint 0 d.nanos ++ "ns"

end Duration

end TransitAudit
