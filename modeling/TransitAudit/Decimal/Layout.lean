import TransitAudit.Decimal.Shortest

/-!
Writing numbers. Plain numbers are always positional and whole ones have no fraction; in data
formats a number always has a fraction or an exponent; measured times have a fixed number of
places.
-/

namespace TransitAudit.Decimal

def digitText (n : Nat) : String :=
  String.ofList (Nat.toDigits 10 n)

def zeros (n : Nat) : String :=
  String.ofList (List.replicate n '0')

/-- Positional notation; `fraction` is written behind whole numbers. -/
def positional (d : Digits) (fraction : String) : String :=
  let text := digitText d.digits
  match d.exponent with
  | .ofNat e => text ++ (if d.digits = 0 then "" else zeros e) ++ fraction
  | .negSucc e =>
    let places := e + 1
    let padded := (zeros (places + 1 - text.length) ++ text).toList
    String.ofList (padded.take (padded.length - places)) ++ "." ++
      String.ofList (padded.drop (padded.length - places))

/-- One digit before the point and an exponent. -/
def scientific (d : Digits) : String :=
  let text := (digitText d.digits).toList
  let exponent := d.exponent + (text.length - 1 : Nat)
  String.ofList (text.take 1) ++
    (if text.length ≤ 1 then "" else "." ++ String.ofList (text.drop 1)) ++
    "e" ++ toString exponent

def signOf (x : Float) : String :=
  if Nat.pow 2 63 ≤ x.toBits.toNat then "-" else ""

/-- The plain form, as messages and settings show it. -/
def plain (x : Float) : String :=
  if x.isNaN then "NaN"
  else if x.isInf then signOf x ++ "inf"
  else signOf x ++ positional (shortest x) ""

/-- The form in data: positional from 1e-5 up to 1e16, otherwise with an exponent. -/
def data (x : Float) : String :=
  let d := shortest x
  let point := d.exponent + ((digitText d.digits).length : Int)
  signOf x ++
    if d.digits = 0 || (-5 < point && point ≤ 16) then positional d ".0" else scientific d

/-- A ratio with a fixed number of places, a tie to the even last digit. -/
def fixedRatio (places num den : Nat) : String :=
  positional ⟨roundDiv (num * Nat.pow 10 places) den, -places⟩ ""

/-- A finite number with a fixed number of places. -/
def fixed (places : Nat) (x : Float) : String :=
  let (num, den) := (Binary.ofFloat x).ratio
  signOf x ++ fixedRatio places num den

end TransitAudit.Decimal
