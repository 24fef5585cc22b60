import TransitAudit.Json.Value

/-!
Findings: what a check reports. A finding has a kind, a message, the source line it concerns and,
where a check knows more, further named values.
-/

namespace TransitAudit

inductive FindingKind where
  | consistency
  | notFound
  | quality
  | general
  | grammar
deriving DecidableEq, Repr, Inhabited

def FindingKind.name : FindingKind → String
  | .consistency => "consistency"
  | .notFound => "not_found"
  | .quality => "quality"
  | .general => "general"
  | .grammar => "xsd"

structure Finding where
  kind : FindingKind
  message : String
  line : Option UInt32
  extra : Option Json.Members
deriving Inhabited

namespace Finding

def ofKind (kind : FindingKind) (message : String) : Finding :=
  ⟨kind, message, none, none⟩

def consistency (message : String) : Finding := ofKind .consistency message
def notFound (message : String) : Finding := ofKind .notFound message
def quality (message : String) : Finding := ofKind .quality message
def general (message : String) : Finding := ofKind .general message
def grammar (message : String) : Finding := ofKind .grammar message

def withLine (f : Finding) (line : UInt32) : Finding :=
  { f with line := some line }

/-- Adds a named value; one given before under the same name is replaced. -/
def withExtra (f : Finding) (name : String) (value : Json.Value) : Finding :=
  { f with extra := some ((f.extra.getD []).insert name value) }

/-- The finding on one line. -/
def display (f : Finding) : String :=
  match f.line with
  | some line => s!"[{f.kind.name}] line {line}: {f.message}"
  | none => s!"[{f.kind.name}] {f.message}"

/-- Findings of several checks, in the order of the checks; none is dropped. -/
def concat (batches : List (List Finding)) : List Finding :=
  batches.flatten

end Finding

end TransitAudit
