import TransitAudit.Text.Trim

/-!
Times of day. A time is hours and minutes with optional seconds and fraction; times are compared as
times when both can be read and as texts otherwise.
-/

namespace TransitAudit

open Text

/-- Seconds since midnight and nanoseconds. A leap second counts as further nanoseconds of the
second before it. -/
structure ClockTime where
  seconds : Nat
  nanoseconds : Nat
deriving DecidableEq, Repr

namespace ClockTime

def compare (a b : ClockTime) : Ordering :=
  (Ord.compare a.seconds b.seconds).then (Ord.compare a.nanoseconds b.nanoseconds)

def numberOf (cs : List Char) : Nat :=
  cs.foldl (fun n c => n * 10 + (c.toNat - 48)) 0

/-- One or two digits after optional white space, and the rest. -/
def readPair? (cs : List Char) : Option (Nat × List Char) :=
  match trimStart cs with
  | a :: b :: rest =>
    if isAsciiDigit a then
      if isAsciiDigit b then some (numberOf [a, b], rest) else some (numberOf [a], b :: rest)
    else none
  | [a] => if isAsciiDigit a then some (numberOf [a], []) else none
  | [] => none

/-- The digits behind a decimal point as nanoseconds; at least one, and those after the ninth do
not count. -/
def readFraction? : List Char → Option Nat
  | [] => some 0
  | '.' :: cs =>
    if cs.isEmpty || !cs.all isAsciiDigit then none
    else
      let digits := cs.take 9
      some (numberOf digits * Nat.pow 10 (9 - digits.length))
  | _ => none

def ofParts? (hour minute second nanoseconds : Nat) : Option ClockTime :=
  if hour < 24 && minute < 60 && second ≤ 60 then
    if second = 60 then some ⟨hour * 3600 + minute * 60 + 59, 1000000000 + nanoseconds⟩
    else some ⟨hour * 3600 + minute * 60 + second, nanoseconds⟩
  else none

/-- Reads `hours:minutes`, `hours:minutes:seconds` or the latter with a fraction. White space
around the time and a final `Z` are ignored. -/
def read? (text : String) : Option ClockTime := do
  let cs := trim text.toList
  let cs := if cs.getLast? = some 'Z' then cs.dropLast else cs
  let (hour, cs) ← readPair? cs
  let (minute, cs) ← readPair? (← dropLeading? [':'] cs)
  match cs with
  | [] => ofParts? hour minute 0 0
  | _ =>
    let (second, cs) ← readPair? (← dropLeading? [':'] cs)
    ofParts? hour minute second (← readFraction? cs)

end ClockTime

/-- Compares two times as written. -/
def compareTimes (a b : String) : Ordering :=
  match ClockTime.read? a, ClockTime.read? b with
  | some x, some y => x.compare y
  | _, _ => compare a b

end TransitAudit
