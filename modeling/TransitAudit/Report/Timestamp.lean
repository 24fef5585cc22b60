import TransitAudit.Decimal.Read
import TransitAudit.Text.Trim

/-!
Moments in universal time and their text: date and time with as many groups of three fractional
digits as are needed. Days are counted from the first of March of the year zero, so that a leap day
is the last day of its year.
-/

namespace TransitAudit

/-- Seconds since the beginning of 1970 and nanoseconds. A leap second counts as further
nanoseconds of the second before it. -/
structure Timestamp where
  seconds : Int
  nanos : Nat
deriving DecidableEq, Repr

namespace Timestamp

/-- Days before a year that begins in March. -/
def daysBefore (year : Int) : Int :=
  365 * year + year.fdiv 4 - year.fdiv 100 + year.fdiv 400

/-- Days before a month, in a year that begins in March with month zero. -/
def monthStart (month : Nat) : Nat :=
  (153 * month + 2) / 5

/-- Days from the first of March of the year zero to the beginning of 1970. -/
def epochDays : Int := 719468

/-- The number of a day, counted from the beginning of 1970. -/
def dayNumber (year : Int) (month day : Nat) : Int :=
  let shifted := (month + 9) % 12
  let year := if month ≤ 2 then year - 1 else year
  daysBefore year + monthStart shifted + day - 1 - epochDays

/-- Year, month and day of a day's number. -/
def ofDayNumber (number : Int) : Int × Nat × Nat :=
  let days := number + epochDays
  let guess := (days * 400).fdiv 146097
  let year := if daysBefore (guess + 1) ≤ days then guess + 1
    else if days < daysBefore guess then guess - 1 else guess
  let rest := (days - daysBefore year).toNat
  let shifted := (5 * rest + 2) / 153
  let month := if shifted < 10 then shifted + 3 else shifted - 9
  (if month ≤ 2 then year + 1 else year, month, rest - monthStart shifted + 1)

/-- A number with leading zeros up to a width. -/
def padded (width n : Nat) : String :=
  let text := toString n
  String.ofList (List.replicate (width - text.length) '0') ++ text

/-- Years outside of four digits carry a sign. -/
def yearText (year : Int) : String :=
  if 0 ≤ year && year ≤ 9999 then padded 4 year.toNat
  else if year < 0 then "-" ++ padded 4 year.natAbs
  else "+" ++ toString year

def fractionText (nanos : Nat) : String :=
  if nanos = 0 then ""
  else if nanos % 1000000 = 0 then "." ++ padded 3 (nanos / 1000000)
  else if nanos % 1000 = 0 then "." ++ padded 6 (nanos / 1000)
  else "." ++ padded 9 nanos

def text (t : Timestamp) : String :=
  let (year, month, day) := ofDayNumber (t.seconds.fdiv 86400)
  let second := (t.seconds.fmod 86400).toNat
  let inMinute := second % 60 + t.nanos / 1000000000
  yearText year ++ "-" ++ padded 2 month ++ "-" ++ padded 2 day ++ "T" ++
    padded 2 (second / 3600) ++ ":" ++ padded 2 (second / 60 % 60) ++ ":" ++ padded 2 inMinute ++
    fractionText (t.nanos % 1000000000) ++ "Z"

/-- Digits as many as asked for, and the rest. -/
def readDigits? (count : Nat) (cs : List Char) : Option (Nat × List Char) :=
  let digits := cs.take count
  if digits.length = count && digits.all Text.isAsciiDigit then
    some (digits.foldl (fun n c => n * 10 + (c.toNat - 48)) 0, cs.drop count)
  else none

def readMark? (marks : List Char) : List Char → Option (List Char)
  | c :: rest => if c ∈ marks then some rest else none
  | [] => none

/-- Fractional digits as nanoseconds; those after the ninth do not count. -/
def readFraction? : List Char → Option (Nat × List Char)
  | '.' :: rest =>
    let digits := rest.takeWhile Text.isAsciiDigit
    if digits.isEmpty then none
    else
      let nine := (digits ++ List.replicate 9 '0').take 9
      some (nine.foldl (fun n c => n * 10 + (c.toNat - 48)) 0, rest.dropWhile Text.isAsciiDigit)
  | rest => some (0, rest)

/-- The seconds that local time is ahead. -/
def readOffset? : List Char → Option Int
  | [c] => if c = 'Z' || c = 'z' then some 0 else none
  | sign :: rest => do
    let (hours, rest) ← readDigits? 2 rest
    let (minutes, rest) ← readDigits? 2 (← readMark? [':'] rest)
    if !rest.isEmpty || 24 ≤ hours || 60 ≤ minutes then none
    let ahead : Int := hours * 3600 + minutes * 60
    match sign with
    | '+' => some ahead
    | '-' => some (-ahead)
    | _ => none
  | [] => none

def isLeapYear (year : Nat) : Bool :=
  (year % 4 = 0 && year % 100 ≠ 0) || year % 400 = 0

def daysInMonth (year month : Nat) : Nat :=
  if month = 2 then (if isLeapYear year then 29 else 28)
  else if month ∈ [4, 6, 9, 11] then 30 else 31

/-- Reads a date and a time with its offset from universal time. -/
def parse? (text : String) : Option Timestamp := do
  let (year, rest) ← readDigits? 4 text.toList
  let (month, rest) ← readDigits? 2 (← readMark? ['-'] rest)
  let (day, rest) ← readDigits? 2 (← readMark? ['-'] rest)
  let (hour, rest) ← readDigits? 2 (← readMark? ['T', 't', ' '] rest)
  let (minute, rest) ← readDigits? 2 (← readMark? [':'] rest)
  let (second, rest) ← readDigits? 2 (← readMark? [':'] rest)
  let (nanos, rest) ← readFraction? rest
  let offset ← readOffset? rest
  if month = 0 || 12 < month || day = 0 || daysInMonth year month < day then none
  if 24 ≤ hour || 60 ≤ minute || 60 < second then none
  let leap := second = 60
  return ⟨dayNumber year month day * 86400 + hour * 3600 + minute * 60 +
      (if leap then 59 else second : Nat) - offset,
    nanos + if leap then 1000000000 else 0⟩

end Timestamp

end TransitAudit
