import TransitAudit.Decimal.Read
import TransitAudit.Toml.Value

/-!
Numbers, dates and times of TOML, from the characters that write them. Digits may be separated by
single underscores, and whole numbers have no needless zeros in front.
-/

namespace TransitAudit.Toml

open Text

/-- Digits without their underscores; each underscore has to stand between two digits. -/
def digits? (isDigit : Char → Bool) : List Char → Option (List Char)
  | [] => none
  | [c] => if isDigit c then some [c] else none
  | c :: '_' :: rest => if isDigit c then (digits? isDigit rest).map (c :: ·) else none
  | c :: rest => if isDigit c then (digits? isDigit rest).map (c :: ·) else none

/-- The digits of a whole decimal number. -/
def wholeDigits? (cs : List Char) : Option (List Char) :=
  match digits? isAsciiDigit cs with
  | some ('0' :: _ :: _) => none
  | ds => ds

def hexDigitValue (c : Char) : Nat :=
  if isAsciiDigit c then c.toNat - 48
  else if 'a' ≤ c && c ≤ 'f' then c.toNat - 87
  else c.toNat - 55

def isHexDigit (c : Char) : Bool :=
  isAsciiDigit c || ('a' ≤ c && c ≤ 'f') || ('A' ≤ c && c ≤ 'F')

/-- A number in some base. -/
def based? (base : Nat) (cs : List Char) : Option Int :=
  (digits? (fun c => isHexDigit c && hexDigitValue c < base) cs).map fun ds =>
    (ds.foldl (fun n c => n * base + hexDigitValue c) 0 : Nat)

/-- A sign, true for minus, and what follows it. -/
def splitSign : List Char → Bool × List Char
  | '+' :: rest => (false, rest)
  | '-' :: rest => (true, rest)
  | rest => (false, rest)

/-- Integers fit into 128 bits. -/
def fits (i : Int) : Bool :=
  -(Nat.pow 2 127 : Nat) ≤ i && i < (Nat.pow 2 128 : Nat)

def integer? (cs : List Char) : Option Int :=
  match cs with
  | '0' :: 'x' :: rest => based? 16 rest
  | '0' :: 'o' :: rest => based? 8 rest
  | '0' :: 'b' :: rest => based? 2 rest
  | cs =>
    let (negative, rest) := splitSign cs
    (wholeDigits? rest).map fun ds =>
      if negative then -(Decimal.digitsValue ds : Int) else Decimal.digitsValue ds

def isExponentMark (c : Char) : Bool :=
  c = 'e' || c = 'E'

/-- The exponent behind its mark. -/
def exponent? (cs : List Char) : Option Int :=
  let (negative, rest) := splitSign cs
  (digits? isAsciiDigit rest).map fun ds =>
    if negative then -(Decimal.digitsValue ds : Int) else Decimal.digitsValue ds

/-- A number with a fraction, an exponent or both; it must not be too large for its type. -/
def real? (cs : List Char) : Option Float := do
  let (negative, rest) := splitSign cs
  let x ←
    if rest = ['i', 'n', 'f'] then pure Decimal.infinity
    else if rest = ['n', 'a', 'n'] then pure (Float.ofBits 0x7FF8000000000000)
    else
      let mantissa := rest.takeWhile (!isExponentMark ·)
      let exponent ← match rest.dropWhile (!isExponentMark ·) with
        | [] => pure 0
        | _ :: more => exponent? more
      let whole ← wholeDigits? (mantissa.takeWhile (· ≠ '.'))
      let fraction ← match mantissa.dropWhile (· ≠ '.') with
        | [] => pure []
        | _ :: more => digits? isAsciiDigit more
      let x := Decimal.ofDecimal (Decimal.digitsValue (whole ++ fraction))
        (exponent - fraction.length)
      if x.isInf then none else pure x
  return if negative then -x else x

/-- A number of exactly so many digits up to a limit, and what follows. -/
def field? (count limit : Nat) (cs : List Char) : Option (Nat × List Char) :=
  let ds := cs.take count
  if ds.length = count && ds.all isAsciiDigit && Decimal.digitsValue ds ≤ limit then
    some (Decimal.digitsValue ds, cs.drop count)
  else none

def mark? (marks : List Char) : List Char → Option (List Char)
  | c :: rest => if c ∈ marks then some rest else none
  | [] => none

def leapYear (year : Nat) : Bool :=
  (year % 4 = 0 && year % 100 ≠ 0) || year % 400 = 0

def lastDay (year month : Nat) : Nat :=
  if month = 2 then (if leapYear year then 29 else 28)
  else if month ∈ [4, 6, 9, 11] then 30 else 31

/-- What follows a date. -/
def afterDate? (cs : List Char) : Option (List Char) := do
  let (year, rest) ← field? 4 9999 cs
  let (month, rest) ← field? 2 12 (← mark? ['-'] rest)
  let (day, rest) ← field? 2 31 (← mark? ['-'] rest)
  if month = 0 || day = 0 || lastDay year month < day then none else some rest

/-- The fraction of a second in normal form: nine digits at most and no needless zeros behind. -/
def normalFraction (ds : List Char) : List Char :=
  match ((ds.take 9).reverse.dropWhile (· = '0')).reverse with
  | [] => ['0']
  | ds => ds

/-- A time in normal form and what follows it; seconds may be left out. -/
def time? (cs : List Char) : Option (List Char × List Char) := do
  let (_, rest) ← field? 2 23 cs
  let (_, rest) ← field? 2 59 (← mark? [':'] rest)
  match rest with
  | ':' :: rest =>
    let (_, rest) ← field? 2 60 rest
    match rest with
    | '.' :: fraction =>
      let ds := fraction.takeWhile isAsciiDigit
      if ds.isEmpty then none
      else some (cs.take 8 ++ '.' :: normalFraction ds, fraction.dropWhile isAsciiDigit)
    | rest => some (cs.take 8, rest)
  | rest => some (cs.take 5, rest)

/-- An offset from universal time in normal form, or nothing. -/
def offset? : List Char → Option (List Char)
  | [] => some []
  | ['Z'] => some ['Z']
  | ['z'] => some ['Z']
  | sign :: rest => do
    if sign ≠ '+' && sign ≠ '-' then none
    let (hours, more) ← field? 2 23 rest
    let (minutes, more) ← field? 2 59 (← mark? [':'] more)
    if !more.isEmpty then none
    return (if hours = 0 && minutes = 0 then '+' else sign) :: rest

/-- A date, a time, or a date with a time and perhaps an offset, in normal form: `T` stands between
date and time and `Z` for universal time. -/
def moment? (cs : List Char) : Option (List Char) :=
  match afterDate? cs with
  | some [] => some cs
  | some rest => do
    let (time, rest) ← time? (← mark? ['T', 't', ' '] rest)
    return cs.take 10 ++ 'T' :: time ++ (← offset? rest)
  | none => do
    let (time, rest) ← time? cs
    if rest.isEmpty then some time else none

/-- The number, date or time that characters write. -/
def scalar? (cs : List Char) : Option Value :=
  match integer? cs with
  | some i => if fits i then some (.integer i) else none
  | none =>
    match real? cs with
    | some x => some (.real x)
    | none => (moment? cs).map fun text => .moment (String.ofList text)

end TransitAudit.Toml
