import TransitAudit.Decimal.Binary
import TransitAudit.Json.Value
import TransitAudit.Text.Class
import TransitAudit.Text.Reader

/-!
Reading JSON texts. Numbers without fraction and exponent are integers as long as they fit into
64 bits; all others are reals, computed from the digits that fit into 64 bits. What is written well
but has no value is read as such, since it may stand where nobody looks.
-/

namespace TransitAudit.Json

open Text

/-- A text that is no JSON. -/
inductive Fault where
  | malformed
deriving DecidableEq, Repr

def skipSpaces : Reader Fault Unit :=
  discard (Reader.takeWhile fun c => c == ' ' || c == '\n' || c == '\t' || c == '\r')

def wordLimit : Nat := Nat.pow 2 64

/-- Appends decimal digits to a number as long as the result fits into 64 bits; gives the rest
of the digits too. -/
def appendDigits (n : Nat) : List Char → Nat × List Char
  | [] => (n, [])
  | c :: cs =>
    let m := n * 10 + (c.toNat - 48)
    if m < wordLimit then appendDigits m cs else (n, c :: cs)

/-- Powers of ten that have an exact or nearest number. -/
def powerOfTen (e : Nat) : Float :=
  Decimal.ofDecimal 1 e

/-- `significand * 10 ^ exponent` by one multiplication or by divisions, each rounded. -/
def scaled (significand : Float) (exponent : Int) : Float :=
  match exponent with
  | .ofNat e =>
    if e ≤ 308 then significand * powerOfTen e
    else if significand == 0 then significand
    else Decimal.infinity
  | .negSucc e =>
    if e < 308 then significand / powerOfTen (e + 1)
    else if significand == 0 then significand
    else scaled (significand / powerOfTen 308) (Int.negSucc e + 308)
termination_by exponent.natAbs
decreasing_by omega

/-- A number from its digits: before the point, behind the point and the exponent. -/
def realOf (negative : Bool) (whole fraction : List Char) (exponent : Int) : Float :=
  let (significand, left) := appendDigits 0 whole
  let (significand, unused) := appendDigits significand fraction
  let used := fraction.length - unused.length
  -- exponents beyond 32 bits give zero or infinity like any beyond the range of the format
  let total : Int := exponent + (left.length : Int) - (used : Int)
  let x := scaled significand.toUInt64.toFloat (max (-100000) (min 100000 total))
  if negative then -x else x

def readDigits : Reader Fault (List Char) := do
  let digits ← Reader.takeWhile isAsciiDigit
  if digits.isEmpty then throw .malformed
  return digits

def readNumber : Reader Fault Value := do
  let negative ← Reader.accept "-"
  let whole ← readDigits
  if whole.length > 1 && whole.head? == some '0' then throw .malformed
  let fraction ← if ← Reader.accept "." then readDigits else pure []
  let hasExponent ← do
    if ← Reader.accept "e" then pure true else Reader.accept "E"
  let exponent : Int ←
    if hasExponent then
      let down ← Reader.accept "-"
      unless down do discard (Reader.accept "+")
      let n : Nat := (← readDigits).foldl (fun n c => n * 10 + (c.toNat - 48)) 0
      pure (if down then -(n : Int) else n)
    else pure 0
  let (n, left) := appendDigits 0 whole
  if fraction.isEmpty && !hasExponent && left.isEmpty then
    if !negative then return .integer n
    if 0 < n && n ≤ Nat.pow 2 63 then return .integer (-(n : Int))
  let x := realOf negative whole fraction exponent
  return if x.isFinite then .real x else .unreadable

def hexValue? (c : Char) : Option Nat :=
  if '0' ≤ c && c ≤ '9' then some (c.toNat - 48)
  else if 'a' ≤ c && c ≤ 'f' then some (c.toNat - 87)
  else if 'A' ≤ c && c ≤ 'F' then some (c.toNat - 55)
  else none

def readHexDigit : Reader Fault Nat := do
  match (← Reader.next).bind hexValue? with
  | some n => return n
  | none => throw .malformed

/-- Four hexadecimal digits. -/
def readUnit : Reader Fault Nat := do
  let a ← readHexDigit
  let b ← readHexDigit
  let c ← readHexDigit
  let d ← readHexDigit
  return ((a * 16 + b) * 16 + c) * 16 + d

/-- The code that an escape stands for, perhaps one half of a surrogate pair. -/
def readEscape : Reader Fault Nat := do
  match ← Reader.next with
  | some '"' => return '"'.toNat
  | some '\\' => return '\\'.toNat
  | some '/' => return '/'.toNat
  | some 'b' => return 8
  | some 'f' => return 12
  | some 'n' => return 10
  | some 'r' => return 13
  | some 't' => return 9
  | some 'u' => readUnit
  | _ => throw .malformed

def isHighSurrogate (code : Nat) : Bool :=
  0xD800 ≤ code && code ≤ 0xDBFF

def isLowSurrogate (code : Nat) : Bool :=
  0xDC00 ≤ code && code ≤ 0xDFFF

/-- The text that codes stand for; surrogates have to come in pairs. -/
def textOf? : List Nat → Option (List Char)
  | [] => some []
  | high :: low :: rest =>
    if isHighSurrogate high then
      if isLowSurrogate low then
        let c := Char.ofNat (0x10000 + (high - 0xD800) * 0x400 + (low - 0xDC00))
        (textOf? rest).map (c :: ·)
      else none
    else if isLowSurrogate high then none
    else (textOf? (low :: rest)).map (Char.ofNat high :: ·)
  | [code] =>
    if isHighSurrogate code || isLowSurrogate code then none else some [Char.ofNat code]

/-- Reads a string, whose opening quote has been read already. It stands for nothing if it has half
a surrogate pair. -/
def readString : Reader Fault (Option String) := do
  let codes ← Reader.collect do
    match ← Reader.next with
    | none => throw .malformed
    | some '"' => return none
    | some '\\' => return some (← readEscape)
    | some c =>
      if c.toNat < 0x20 then throw .malformed
      return some c.toNat
  return (textOf? codes).map String.ofList

/-- Reads the name of a member and the colon behind it. -/
def readName : Reader Fault (Option String) := do
  skipSpaces
  Reader.expect "\"" .malformed
  let name ← readString
  skipSpaces
  Reader.expect ":" .malformed
  return name

/-- Reads a value without parts, if one comes next. -/
def readScalar? : Reader Fault (Option Value) := do
  match ← Reader.peek with
  | some '[' => return none
  | some '\x7b' => return none
  | some '"' =>
    discard Reader.next
    match ← readString with
    | some s => return some (.string s)
    | none => return some .unreadable
  | some 't' =>
    Reader.expect "true" .malformed
    return some (.bool true)
  | some 'f' =>
    Reader.expect "false" .malformed
    return some (.bool false)
  | some 'n' =>
    Reader.expect "null" .malformed
    return some .null
  | _ => return some (← readNumber)

/-- A place inside lists and objects, given by the closing brackets to come, the innermost first;
`fresh` says that nothing stands behind the innermost opening bracket yet. -/
structure Inside where
  closing : List Char
  fresh : Bool

/-- Reads a scalar or the opening bracket of another value. -/
def skipBeginning (closing : List Char) : Reader Fault Inside := do
  skipSpaces
  match ← readScalar? with
  | some _ => return ⟨closing, false⟩
  | none =>
    let bracket := if (← Reader.next) = some '[' then ']' else '\x7d'
    return ⟨bracket :: closing, true⟩

/-- Reads a closing bracket or the beginning of the next part; the last closing bracket ends it. -/
def skipPart (i : Inside) : Reader Fault (Option (Unit × Inside)) := do
  match i.closing with
  | [] => return none
  | bracket :: outer =>
    skipSpaces
    if ← Reader.accept (String.singleton bracket) then return some ((), ⟨outer, false⟩)
    unless i.fresh do Reader.expect "," .malformed
    if bracket = '\x7d' then discard readName
    return some ((), ← skipBeginning i.closing)

/-- Reads a value of any depth for its end alone. -/
def skipValue : Reader Fault Unit := do
  discard (Reader.collectFrom skipPart (← skipBeginning []))

/-- Reads the parts of a list or object up to its closing bracket. The opening bracket has been
read. -/
def readSequence {α : Type} (closing : String) (element : Reader Fault α) :
    Reader Fault (List α) := do
  skipSpaces
  if ← Reader.accept closing then return []
  let first ← element
  let rest ← Reader.collect do
    skipSpaces
    if ← Reader.accept closing then return none
    Reader.expect "," .malformed
    return some (← element)
  return first :: rest

/-- The members of an object, if all of their names can be read. -/
def membersValue (members : List (Option String × Value)) : Value :=
  match members.mapM fun (name, v) => name.map (·, v) with
  | some members => .object members
  | none => .unreadable

/-- Values may be nested so deep. -/
def depthLimit : Nat := 127

/-- Reads a value with so many levels of nesting left. -/
def readValue : Nat → Reader Fault Value
  | 0 => do
    skipSpaces
    match ← readScalar? with
    | some v => return v
    | none =>
      skipValue
      return .unreadable
  | depth + 1 => do
    skipSpaces
    match ← readScalar? with
    | some v => return v
    | none =>
      if (← Reader.next) = some '[' then
        return .array (← readSequence "]" (readValue depth))
      else
        return membersValue (← readSequence "\x7d" do return (← readName, ← readValue depth))

/-- Reads a text that holds one value. -/
def parse (text : String) : Except Fault Value :=
  Reader.runOn text do
    let v ← readValue depthLimit
    skipSpaces
    unless ← Reader.atEnd do throw .malformed
    return v

end TransitAudit.Json
