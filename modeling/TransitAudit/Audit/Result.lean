import TransitAudit.Audit.Duration
import TransitAudit.Error
import TransitAudit.Rule.Basic

/-!
The outcome for one file, and the summary over many. A file has a status that follows from the
results of its rules; only a file whose rules all ran has any.
-/

namespace TransitAudit

inductive FileStatus where
  | valid
  | invalid (errorCount : Nat)
  | error (message : String)
  | skipped (reason : String)
deriving DecidableEq, Repr, Inhabited

def FileStatus.isValid : FileStatus → Bool
  | .valid => true
  | .invalid _ => false
  | .error _ => false
  | .skipped _ => false

def FileStatus.isInvalid : FileStatus → Bool
  | .invalid _ => true
  | .valid => false
  | .error _ => false
  | .skipped _ => false

def FileStatus.isError : FileStatus → Bool
  | .error _ => true
  | .valid => false
  | .invalid _ => false
  | .skipped _ => false

def FileStatus.isSkipped : FileStatus → Bool
  | .skipped _ => true
  | .valid => false
  | .invalid _ => false
  | .error _ => false

/-- The outcome for one file. The size and the schema are known only if its rules all ran. -/
structure FileResult where
  path : String
  size : Option Nat
  schema : Option String
  status : FileStatus
  rules : List RuleResult
  duration : Duration

namespace FileResult

def findingCount (rules : List RuleResult) : Nat :=
  (rules.map (·.errorCount)).foldr (· + ·) 0

/-- The outcome when every rule ran: valid if none found anything. -/
def completed (path : String) (size : Nat) (schema : String) (rules : List RuleResult)
    (duration : Duration) : FileResult :=
  let count := findingCount rules
  ⟨path, some size, some schema, if count = 0 then .valid else .invalid count, rules, duration⟩

def failed (path : String) (e : AuditError) (duration : Duration) : FileResult :=
  ⟨path, none, none, .error e.message, [], duration⟩

def skipped (path reason : String) : FileResult :=
  ⟨path, none, none, .skipped reason, [], .zero⟩

/-- The number of findings; a file that was not checked to the end counts none. -/
def errorCount (r : FileResult) : Nat :=
  match r.status with
  | .invalid count => count
  | .valid => 0
  | .error _ => 0
  | .skipped _ => 0

def withDuration (r : FileResult) (duration : Duration) : FileResult :=
  { r with duration }

end FileResult

/-- The outcome of a run over files. -/
structure AuditSummary where
  total : Nat
  valid : Nat
  invalid : Nat
  errors : Nat
  skipped : Nat
  totalDuration : Duration
  averageDuration : Duration
  files : List FileResult

namespace AuditSummary

/-- Sums up the outcomes of files. -/
def ofFiles (files : List FileResult) : AuditSummary :=
  let total := Duration.sum (files.map (·.duration))
  { total := files.length
    valid := files.countP (·.status.isValid)
    invalid := files.countP (·.status.isInvalid)
    errors := files.countP (·.status.isError)
    skipped := files.countP (·.status.isSkipped)
    totalDuration := total
    averageDuration := total.mean files.length
    files := files }

/-- Replaces the total time, which is shorter than the sum when files run side by side. -/
def withTotalDuration (s : AuditSummary) (duration : Duration) : AuditSummary :=
  { s with totalDuration := duration }

def allValid (s : AuditSummary) : Bool :=
  s.valid = s.total && 0 < s.total

def hasErrors (s : AuditSummary) : Bool :=
  0 < s.errors || 0 < s.invalid

/-- The findings of all files. -/
def totalFindings (s : AuditSummary) : Nat :=
  (s.files.map (·.errorCount)).foldr (· + ·) 0

/-- Two if some file could not be checked, else one if some file is invalid, else zero. -/
def exitCode (s : AuditSummary) : Nat :=
  if 0 < s.errors then 2 else if 0 < s.invalid then 1 else 0

/-- How many files of a hundred are valid. -/
def successRate (s : AuditSummary) : Float :=
  if s.total = 0 then 0.0 else s.valid.toFloat / s.total.toFloat * 100.0

end AuditSummary

end TransitAudit
