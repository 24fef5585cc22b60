/-!
Double precision numbers and exact ratios. A finite number is a significand times a power of
two; going back, a ratio is rounded to the nearest number and a tie goes to the even one.
-/

namespace TransitAudit.Decimal

/-- A quotient rounded to the nearest integer, a tie to the even one. -/
def roundDiv (num den : Nat) : Nat :=
  let q := num / den
  let twice := 2 * (num % den)
  if den < twice || (twice = den && q % 2 = 1) then q + 1 else q

/-- The highest bit of a significand that is as long as the format allows; the bits below it are
the fraction. -/
def leadingBit : Nat := Nat.pow 2 52

/-- A number that is neither infinite nor undefined: `significand * 2 ^ exponent`. -/
structure Binary where
  negative : Bool
  significand : Nat
  exponent : Int
deriving DecidableEq, Repr

namespace Binary

/-- The parts of a finite number; the exponent is as small as the format allows. -/
def ofFloat (x : Float) : Binary :=
  let bits := x.toBits.toNat
  let fraction : Nat := bits % leadingBit
  let biased : Nat := bits / leadingBit % Nat.pow 2 11
  let negative := Nat.pow 2 63 ≤ bits
  if biased = 0 then ⟨negative, fraction, -1074⟩
  else ⟨negative, fraction + leadingBit, (biased : Int) - 1075⟩

/-- The absolute value as numerator and denominator. -/
def ratio (b : Binary) : Nat × Nat :=
  match b.exponent with
  | .ofNat e => (b.significand * Nat.pow 2 e, 1)
  | .negSucc e => (b.significand, Nat.pow 2 (e + 1))

end Binary

def bitLength (n : Nat) : Nat :=
  if n = 0 then 0 else n.log2 + 1

def infinity : Float := Float.ofBits 0x7FF0000000000000

/-- The number with the given significand and exponent, where the significand fits. -/
def floatOfParts (significand : Nat) (exponent : Int) : Float :=
  if 971 < exponent then infinity
  else if significand < leadingBit then Float.ofBits significand.toUInt64
  else Float.ofBits ((exponent + 1075).toNat * leadingBit + (significand - leadingBit)).toUInt64

/-- The number nearest to a ratio, infinity when that is beyond all numbers. -/
def nearest (num den : Nat) : Float :=
  if num = 0 then Float.ofBits 0 else
  let guess : Int := max ((bitLength num : Int) - bitLength den - 53) (-1074)
  let scaled (e : Int) : Nat × Nat :=
    match e with
    | .ofNat e => (num, den * Nat.pow 2 e)
    | .negSucc e => (num * Nat.pow 2 (e + 1), den)
  let (n, d) := scaled guess
  let exponent := if 2 * leadingBit ≤ n / d then guess + 1 else guess
  let (n, d) := scaled exponent
  let significand := roundDiv n d
  if significand = 2 * leadingBit then floatOfParts leadingBit (exponent + 1)
  else floatOfParts significand exponent

/-- The number nearest to `significand * 10 ^ exponent`. Exponents far outside the range of the
format give zero or infinity at once. -/
def ofDecimal (significand : Nat) (exponent : Int) : Float :=
  let size : Int := ((Nat.toDigits 10 significand).length : Int) + exponent
  if significand = 0 || size < -330 then Float.ofBits 0
  else if 310 < size then infinity
  else match exponent with
    | .ofNat e => nearest (significand * Nat.pow 10 e) 1
    | .negSucc e => nearest significand (Nat.pow 10 (e + 1))

end TransitAudit.Decimal
