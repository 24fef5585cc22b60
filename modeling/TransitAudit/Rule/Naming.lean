import TransitAudit.Finding.Basic
import TransitAudit.Journey.Check

/-!
Rules on names and references: elements of some kinds need an id and a name, and elements of some
kinds have to be referred to from somewhere.
-/

namespace TransitAudit

def stopPlacesPath : String :=
  Path.join [framesPath, "SiteFrame", "stopPlaces", "StopPlace"]

def scheduledStopPointsPath : String :=
  Path.join [framesPath, "ServiceFrame", "scheduledStopPoints", "ScheduledStopPoint"]

def linesPath : String :=
  Path.join [framesPath, "ServiceFrame", "lines", "Line"]

def inconsistency (n : Node) (message : String) : Finding :=
  (Finding.consistency message).withLine n.line

/-- The name of an element: its `Name`, or its `ShortName` when it has no `Name`. -/
def nameOf (n : Node) : Except AuditError (Option String) := do
  let name? ← n.stringAt? "Name"
  let shortName? ← n.stringAt? "ShortName"
  return name? <|> shortName?

/-- An element needs an id and a name that is not blank. -/
def nameFindings (element : String) (n : Node) : Except AuditError (List Finding) :=
  match n.attr? "id" with
  | none => .ok [inconsistency n s!"{element} is missing attribute @id"]
  | some id => do
    let name? ← nameOf n
    if name?.any (!Text.blank ·) then return []
    return [inconsistency n s!"Missing name for {element}(@id={id})"]

def namedElements (root : Node) (path element : String) : Except AuditError (List Finding) := do
  return (← (← root.nodesAt path).mapM (nameFindings element)).flatten

/-- An element needs an id that is among the references. -/
def referenceFindings (references : List String) (element : String) (n : Node) : List Finding :=
  match n.attr? "id" with
  | none => [inconsistency n s!"{element} is missing attribute @id"]
  | some id =>
    if references.contains id then []
    else [inconsistency n s!"Missing reference for {element}(@id={id})"]

/-- The elements at a path have to be referred to, from anywhere in the document, by elements
that are named after them. -/
def referencedElements (root : Node) (path element : String) :
    Except AuditError (List Finding) := do
  let references := (← root.nodesAt s!".//{element}Ref/@ref").map (·.text)
  return (← root.nodesAt path).flatMap (referenceFindings references element)

end TransitAudit
