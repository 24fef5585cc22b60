import TransitAudit.Decimal.Binary

/-!
The fewest decimal digits that read back as the same number. For one digit, then two, and so
on, the two neighbours of the number on the grid of that many digits are tried; the nearer one
that rounds to the number is taken.
-/

namespace TransitAudit.Decimal

/-- A decimal number `digits * 10 ^ exponent`. -/
structure Digits where
  digits : Nat
  exponent : Int
deriving DecidableEq, Repr

/-- The position of the decimal point behind the first digits: `10 ^ (e - 1) ≤ num / den` and
`num / den < 10 ^ e`. -/
def magnitude (num den : Nat) : Int :=
  if den ≤ num then (Nat.toDigits 10 (num / den)).length
  else 1 - (Nat.toDigits 10 ((den - 1) / num)).length

/-- The ratio that a decimal number is, over a common denominator with `den`: the decimal
number is at least, or above, `num / den`. -/
def Digits.compareWith (d : Digits) (num den : Nat) : Ordering :=
  match d.exponent with
  | .ofNat e => compare (d.digits * Nat.pow 10 e * den) num
  | .negSucc e => compare (d.digits * den) (num * Nat.pow 10 (e + 1))

/-- The reals that round to a number: between the midpoints to its neighbours, the midpoints
themselves included for an even significand. Both ends are numerators over `4 * den`. -/
structure Interval where
  low : Nat
  high : Nat
  den : Nat
  closed : Bool

def Interval.ofBinary (b : Binary) : Interval :=
  let below := if b.significand = leadingBit && -1074 < b.exponent then 1 else 2
  let (scale, den) := (⟨false, 1, b.exponent⟩ : Binary).ratio
  ⟨(4 * b.significand - below) * scale, (4 * b.significand + 2) * scale, 4 * den,
    b.significand % 2 = 0⟩

def Interval.contains (i : Interval) (d : Digits) : Bool :=
  match d.compareWith i.low i.den, d.compareWith i.high i.den with
  | .gt, .lt => true
  | .eq, _ => i.closed
  | _, .eq => i.closed
  | _, _ => false

/-- The neighbour on the grid `10 ^ exponent` that lies in the interval, the nearer of two. -/
def onGrid? (num den : Nat) (i : Interval) (exponent : Int) : Option Digits :=
  let (n, d) := match exponent with
    | .ofNat e => (num, den * Nat.pow 10 e)
    | .negSucc e => (num * Nat.pow 10 (e + 1), den)
  let below : Digits := ⟨n / d, exponent⟩
  let above : Digits := ⟨n / d + 1, exponent⟩
  let nearer := roundDiv n d
  match i.contains below, i.contains above with
  | true, true => some ⟨nearer, exponent⟩
  | true, false => some below
  | false, true => some above
  | false, false => none

def stripZeros (d : Digits) : Digits :=
  if d.digits ≠ 0 && d.digits % 10 = 0 then stripZeros ⟨d.digits / 10, d.exponent + 1⟩ else d
termination_by d.digits
decreasing_by
  simp_all
  omega

/-- The shortest digits of the absolute value of a finite number. Seventeen always suffice. -/
def shortest (x : Float) : Digits :=
  let b := Binary.ofFloat x
  if b.significand = 0 then ⟨0, 0⟩ else
  let (num, den) := b.ratio
  let interval := Interval.ofBinary b
  let point := magnitude num den
  let found := (List.range 17).findSome? fun (k : Nat) =>
    onGrid? num den interval (point - 1 - (k : Int))
  stripZeros (found.getD ⟨num / den, 0⟩)

end TransitAudit.Decimal
