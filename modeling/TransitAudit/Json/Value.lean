/-!
JSON values. Members of an object keep the order in which they are given, repeated names
included; the normal form sorts them by name and keeps the last of each name.
-/

namespace TransitAudit.Json

/-- A value. `unreadable` is what is written well and still has no value: a number too large for its
type, a text with half a surrogate pair, an object with such a name, or what is nested too deep. It
does no harm where it is ignored. -/
inductive Value where
  | null
  | bool (b : Bool)
  | integer (i : Int)
  | real (x : Float)
  | string (s : String)
  | array (elements : List Value)
  | object (members : List (String × Value))
  | unreadable
deriving Inhabited

/-- Members sorted by name, where a later value replaces an earlier one of the same name. -/
abbrev Members := List (String × Value)

/-- Sets a member of a sorted list of members. -/
def Members.insert (name : String) (value : Value) : Members → Members
  | [] => [(name, value)]
  | (n, v) :: rest =>
    if name = n then (name, value) :: rest
    else if name < n then (name, value) :: (n, v) :: rest
    else (n, v) :: Members.insert name value rest

mutual

/-- The normal form of a value; what is unreadable has none, and neither has an infinite number. -/
def Value.normal? : Value → Option Value
  | .unreadable => none
  | .real x => if x.isFinite then some (.real x) else none
  | .array vs => (normalElements? vs).map .array
  | .object ms => (normalMembers? [] ms).map .object
  | v => some v

def normalElements? : List Value → Option (List Value)
  | [] => some []
  | v :: vs => do return (← v.normal?) :: (← normalElements? vs)

def normalMembers? (found : Members) : List (String × Value) → Option Members
  | [] => some found
  | (n, v) :: rest => do normalMembers? (found.insert n (← v.normal?)) rest

end

namespace Value

/-- The value of the member with a name, the last one if there are several. -/
def get? (v : Value) (name : String) : Option Value :=
  match v with
  | .object members => (members.reverse.find? (·.1 == name)).map (·.2)
  | _ => none

def string? : Value → Option String
  | .string s => some s
  | _ => none

def bool? : Value → Option Bool
  | .bool b => some b
  | _ => none

/-- A natural number below a limit; reals do not count, even whole ones. -/
def nat? (limit : Nat) : Value → Option Nat
  | .integer (.ofNat n) => if n < limit then some n else none
  | _ => none

/-- A number as a real; whole numbers of 64 bits are rounded to one. -/
def real? : Value → Option Float
  | .integer (.ofNat n) => if n < Nat.pow 2 64 then some n.toUInt64.toFloat else none
  | .integer (.negSucc n) => if n < Nat.pow 2 63 then some (-(n + 1).toUInt64.toFloat) else none
  | .real x => if x.isFinite then some x else none
  | _ => none

def elements? : Value → Option (List Value)
  | .array vs => some vs
  | _ => none

/-- The values of a record's fields, in the order of their names. An object may leave fields
out and have others besides, but must not repeat a field; an array gives the fields in order
and may stop early. -/
def fields? (names : List String) : Value → Option (List (Option Value))
  | .object members => names.mapM fun name =>
      match members.filter (·.1 == name) with
      | [] => some none
      | [(_, v)] => some (some v)
      | _ => none
  | .array vs =>
      if vs.length ≤ names.length then
        some (vs.map some ++ List.replicate (names.length - vs.length) none)
      else none
  | _ => none

/-- An optional field: absent and null both mean nothing. -/
def optional? {α : Type} (decode : Value → Option α) : Option Value → Option (Option α)
  | none => some none
  | some .null => some none
  | some v => (decode v).map some

end Value

end TransitAudit.Json
