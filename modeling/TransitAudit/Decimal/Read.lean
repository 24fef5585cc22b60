import TransitAudit.Decimal.Binary
import TransitAudit.Text.Trim

/-!
Reading numbers from text. The whole text has to be a number; nothing is trimmed.
-/

namespace TransitAudit.Decimal

open Text

def digitsValue (cs : List Char) : Nat :=
  cs.foldl (fun n c => n * 10 + (c.toNat - 48)) 0

/-- A natural number below a limit, with an optional plus sign. -/
def readNat? (limit : Nat) (s : String) : Option Nat :=
  let digits := match s.toList with
    | '+' :: cs => cs
    | cs => cs
  if digits.isEmpty || !digits.all isAsciiDigit then none
  else if digitsValue digits < limit then some (digitsValue digits) else none

/-- An integer that fits into 64 bits. -/
def readInt? (s : String) : Option Int :=
  let (negative, digits) := match s.toList with
    | '+' :: cs => (false, cs)
    | '-' :: cs => (true, cs)
    | cs => (false, cs)
  if digits.isEmpty || !digits.all isAsciiDigit then none
  else
    let n := digitsValue digits
    if negative then if n ≤ Nat.pow 2 63 then some (-(n : Int)) else none
    else if n < Nat.pow 2 63 then some n else none

def asciiLower (cs : List Char) : List Char :=
  cs.map Char.toLower

/-- The exponent behind an `e`, which needs at least one digit. -/
def readExponent? : List Char → Option Int
  | '+' :: cs => unsigned? cs
  | '-' :: cs => (unsigned? cs).map (-·)
  | cs => unsigned? cs
where
  unsigned? (cs : List Char) : Option Int :=
    if cs.isEmpty || !cs.all isAsciiDigit then none else some (digitsValue cs)

/-- The absolute value that digits, a point and an exponent write. Either side of the point may
be empty, but not both. -/
def readMagnitude? (cs : List Char) : Option Float :=
  let whole := cs.takeWhile isAsciiDigit
  let afterWhole := cs.dropWhile isAsciiDigit
  let (fraction, rest) := match afterWhole with
    | '.' :: more => (more.takeWhile isAsciiDigit, more.dropWhile isAsciiDigit)
    | more => ([], more)
  if whole.isEmpty && fraction.isEmpty then none
  else
    let exponent? : Option Int := match rest with
      | [] => some 0
      | 'e' :: more => readExponent? more
      | 'E' :: more => readExponent? more
      | _ => none
    exponent?.map fun e => ofDecimal (digitsValue (whole ++ fraction)) (e - fraction.length)

/-- A number, an infinity or NaN, with an optional sign. -/
def readFloat? (s : String) : Option Float :=
  let (negative, cs) := match s.toList with
    | '+' :: cs => (false, cs)
    | '-' :: cs => (true, cs)
    | cs => (false, cs)
  let word := String.ofList (asciiLower cs)
  let value? :=
    if word == "inf" || word == "infinity" then some infinity
    else if word == "nan" then some (Float.ofBits 0x7FF8000000000000)
    else readMagnitude? cs
  value?.map fun x => if negative then -x else x

end TransitAudit.Decimal
