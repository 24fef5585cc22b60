import TransitAudit.Xml.Fault
import TransitAudit.Xml.Name

/-!
References and the entities they stand for. The replacement text of an entity is kept together
with its place in the document, since elements inside it are found at that place.
-/

namespace TransitAudit.Xml

open Text

/-- An entity declared in the document type; the first declaration of a name counts. -/
structure Entity where
  name : String
  replacement : Cursor

inductive Reference where
  | character (c : Char)
  | entity (name : String)

/-- How deep entities may refer to entities. -/
def nestingLimit : Nat := 10

/-- How many references may be followed inside one entity. -/
def referenceLimit : Nat := 255

def findEntity (entities : List Entity) (name : String) : Except Fault Cursor :=
  match entities.find? (·.name == name) with
  | some e => .ok e.replacement
  | none => .error (.unknownEntity name)

/-- A name without regard to colons. -/
def readName : Reader Fault String := do
  match ← Reader.peek with
  | none => throw .invalidName
  | some c =>
    unless isNameStart c do throw .invalidName
    return String.ofList (← Reader.takeWhile isNameChar)

def skipSpaces : Reader Fault Unit :=
  discard (Reader.takeWhile isSpace)

/-- White space that has to be there. -/
def expectSpaces : Reader Fault Unit := do
  if (← Reader.takeWhile isSpace).isEmpty then throw (.expected "white space")

def decimalDigit? (c : Char) : Option Nat :=
  if '0' ≤ c && c ≤ '9' then some (c.toNat - 48) else none

def hexDigit? (c : Char) : Option Nat :=
  if 'a' ≤ c && c ≤ 'f' then some (c.toNat - 87)
  else if 'A' ≤ c && c ≤ 'F' then some (c.toNat - 55)
  else decimalDigit? c

/-- The number that digits of some base write, none for an empty text. -/
def numberOf? (digit? : Char → Option Nat) (base : Nat) : List Char → Option Nat
  | [] => none
  | cs => cs.foldl (fun n c => n.bind fun m => (digit? c).map (m * base + ·)) (some 0)

/-- The character of a number below 2^32; what is no character becomes the replacement
character. -/
def characterOf? (n : Nat) : Option Char :=
  if n < Nat.pow 2 32 then
    let c := if h : n.isValidChar then Char.ofNatAux n h else Char.ofNat 0xFFFD
    if isAllowed c then some c else none
  else none

def namedCharacter? : String → Option Char
  | "quot" => some '"'
  | "amp" => some '&'
  | "apos" => some '\x27'
  | "lt" => some '<'
  | "gt" => some '>'
  | _ => none

/-- Reads a reference from its ampersand to its semicolon. -/
def readReference : Reader Fault Reference := do
  Reader.expect "&" .malformedReference
  let reference ←
    if ← Reader.accept "#" then
      let (digit?, base) ← do
        if ← Reader.accept "x" then pure (hexDigit?, 16) else pure (decimalDigit?, 10)
      let digits ← Reader.takeWhile fun c => (digit? c).isSome
      match (numberOf? digit? base digits).bind characterOf? with
      | some c => pure (Reference.character c)
      | none => throw .malformedReference
    else
      let name ← readName
      match namedCharacter? name with
      | some c => pure (Reference.character c)
      | none => pure (Reference.entity name)
  Reader.expect ";" .malformedReference
  return reference

end TransitAudit.Xml
