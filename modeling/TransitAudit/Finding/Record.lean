import TransitAudit.Finding.Basic

/-!
Findings as JSON records. Line and further values are left out when there are none.
-/

namespace TransitAudit

open Json

/-- A name out of a fixed choice, given as a string or as the only member of an object, whose
value is null then. -/
def Json.choice? {α : Type} (read : String → Option α) : Value → Option α
  | .string s => read s
  | .object [(s, .null)] => read s
  | _ => none

def FindingKind.ofName? : String → Option FindingKind
  | "consistency" => some .consistency
  | "not_found" => some .notFound
  | "quality" => some .quality
  | "general" => some .general
  | "xsd" => some .grammar
  | _ => none

/-- Lines fit into 32 bits. -/
def lineLimit : Nat := Nat.pow 2 32

def readLine? (v : Value) : Option UInt32 :=
  (v.nat? lineLimit).map Nat.toUInt32

def readMembers? : Value → Option Members
  | .object members => normalMembers? [] members
  | _ => none

namespace Finding

def toValue (f : Finding) : Value :=
  .object ([("type", .string f.kind.name), ("message", .string f.message)] ++
    (match f.line with
      | some line => [("line", .integer line.toNat)]
      | none => []) ++
    match f.extra with
      | some extra => [("extra", .object extra)]
      | none => [])

def ofValue? (v : Value) : Option Finding := do
  match ← v.fields? ["type", "message", "line", "extra"] with
  | [kind, message, line, extra] =>
    return ⟨← choice? FindingKind.ofName? (← kind), ← (← message).string?,
      ← Value.optional? readLine? line, ← Value.optional? readMembers? extra⟩
  | _ => none

end Finding

end TransitAudit
