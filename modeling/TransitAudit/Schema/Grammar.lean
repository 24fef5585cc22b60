import TransitAudit.Document.Source
import TransitAudit.Finding.Basic

/-!
What a grammar says about a document. A run reports a code, with zero for a document that conforms,
and the issues it met.
-/

namespace TransitAudit

/-- A compiled grammar, as the check that it makes on a document. -/
abbrev Grammar := Source → Except AuditError (List Finding)

structure GrammarIssue where
  message : String
  line : Option UInt32
deriving DecidableEq, Repr

/-- Failures of the checker that holds the grammars. -/
inductive GrammarFault where
  | schema (path details : String)
  | context
  | validation (code : Int) (name : String)
  | memory
  | document (details : String)
deriving DecidableEq, Repr

namespace GrammarFault

def message : GrammarFault → String
  | .schema path details => s!"Schema parsing failed: {path}: {details}"
  | .context => "Validation context creation failed"
  | .validation code name => s!"Document validation failed with code {code}: {name}"
  | .memory => "Memory allocation failed in libxml2"
  | .document details => s!"Invalid XML structure: {details}"

def toAuditError (f : GrammarFault) : AuditError :=
  .grammarInternal f.message

end GrammarFault

/-- The outcome of a run. Only a document that was found invalid has issues. -/
inductive GrammarReport where
  | valid
  | invalid (count : Nat) (issues : List GrammarIssue)
  | internalError (code : Int)
deriving DecidableEq, Repr

namespace GrammarReport

/-- Reads the code of a run: its sign tells the outcome. -/
def ofCode (code : Int) (issues : List GrammarIssue) : GrammarReport :=
  if code = 0 then .valid
  else if 0 < code then .invalid code.toNat issues
  else .internalError code

def isValid (r : GrammarReport) : Bool :=
  r = .valid

def issues : GrammarReport → List GrammarIssue
  | .valid => []
  | .invalid _ issues => issues
  | .internalError _ => []

def findingOf (i : GrammarIssue) : Finding :=
  match i.line with
  | some line => (Finding.grammar i.message).withLine line
  | none => Finding.grammar i.message

/-- One finding for each issue, or a general one when no issue says why the document is not
valid. -/
def findings (document : String) : GrammarReport → Except AuditError (List Finding)
  | .valid => .ok []
  | .invalid _ [] => .ok [Finding.grammar s!"{document} does not conform to the schema"]
  | .invalid _ issues => .ok (issues.map findingOf)
  | .internalError code => .error (GrammarFault.validation code document).toAuditError

end GrammarReport

end TransitAudit
