import TransitAudit.Audit.Result
import TransitAudit.Finding.Record
import TransitAudit.Json.Write
import TransitAudit.Report.Timestamp

/-!
Reports as JSON records. Reading a record back gives the summary that was written.
-/

namespace TransitAudit

open Json

/-- Counts fit into 64 bits. -/
def countLimit : Nat := Nat.pow 2 64

def readCount? (v : Option Value) : Option Nat := do
  (← v).nat? countLimit

def readText? (v : Option Value) : Option String := do
  (← v).string?

def readList? {α : Type} (read : Value → Option α) (v : Option Value) : Option (List α) := do
  (← (← v).elements?).mapM read

namespace Duration

def toValue (d : Duration) : Value :=
  .object [("secs", .integer d.seconds), ("nanos", .integer d.subsecond)]

/-- Nanoseconds beyond a second count as seconds. -/
def ofValue? (v : Value) : Option Duration := do
  match ← v.fields? ["secs", "nanos"] with
  | [secs, nanos] =>
    let d := ofParts (← readCount? secs) (← (← nanos).nat? (Nat.pow 2 32))
    if d.seconds < countLimit then some d else none
  | _ => none

end Duration

namespace FileStatus

/-- The bare name of a status, or its name with what belongs to it. -/
def toValue : FileStatus → Value
  | .valid => .string "Valid"
  | .invalid count => .object [("Invalid", .object [("error_count", .integer count)])]
  | .error message => .object [("Error", .object [("message", .string message)])]
  | .skipped reason => .object [("Skipped", .object [("reason", .string reason)])]

def ofValue? : Value → Option FileStatus
  | .string "Valid" => some .valid
  | .object [("Valid", .null)] => some .valid
  | .object [("Invalid", v)] => do
    match ← v.fields? ["error_count"] with
    | [count] => return .invalid (← readCount? count)
    | _ => none
  | .object [("Error", v)] => do
    match ← v.fields? ["message"] with
    | [message] => return .error (← readText? message)
    | _ => none
  | .object [("Skipped", v)] => do
    match ← v.fields? ["reason"] with
    | [reason] => return .skipped (← readText? reason)
    | _ => none
  | _ => none

end FileStatus

namespace RuleResult

def toValue (r : RuleResult) : Value :=
  .object [("name", .string r.name), ("description", .string r.description),
    ("valid", .bool r.valid), ("error_count", .integer r.errorCount),
    ("errors", .array (r.errors.map Finding.toValue))]

def ofValue? (v : Value) : Option RuleResult := do
  match ← v.fields? ["name", "description", "valid", "error_count", "errors"] with
  | [name, description, valid, errorCount, errors] =>
    return ⟨← readText? name, ← readText? description, ← (← valid).bool?,
      ← readCount? errorCount, ← readList? Finding.ofValue? errors⟩
  | _ => none

end RuleResult

namespace FileResult

def toValue (r : FileResult) : Value :=
  .object [("path", .string r.path),
    ("file_size", (r.size.map fun n => Value.integer n).getD .null),
    ("schema", (r.schema.map Value.string).getD .null), ("status", r.status.toValue),
    ("rules", .array (r.rules.map RuleResult.toValue)), ("duration", r.duration.toValue)]

def ofValue? (v : Value) : Option FileResult := do
  match ← v.fields? ["path", "file_size", "schema", "status", "rules", "duration"] with
  | [path, size, schema, status, rules, duration] =>
    return ⟨← readText? path, ← Value.optional? (Value.nat? countLimit) size,
      ← Value.optional? Value.string? schema, ← FileStatus.ofValue? (← status),
      ← readList? RuleResult.ofValue? rules, ← Duration.ofValue? (← duration)⟩
  | _ => none

end FileResult

namespace AuditSummary

def members (s : AuditSummary) : List (String × Value) :=
  [("total_files", .integer s.total), ("valid_files", .integer s.valid),
    ("invalid_files", .integer s.invalid), ("error_files", .integer s.errors),
    ("skipped_files", .integer s.skipped), ("total_duration", s.totalDuration.toValue),
    ("average_duration", s.averageDuration.toValue),
    ("file_results", .array (s.files.map FileResult.toValue))]

/-- The record of a run that was reported at some moment. -/
def toValue (s : AuditSummary) (generatedAt : Timestamp) : Value :=
  .object (("generated_at", .string generatedAt.text) :: s.members)

def ofValue? (v : Value) : Option AuditSummary := do
  match ← v.fields? ["total_files", "valid_files", "invalid_files", "error_files",
      "skipped_files", "total_duration", "average_duration", "file_results"] with
  | [total, valid, invalid, errors, skipped, totalDuration, averageDuration, files] =>
    return ⟨← readCount? total, ← readCount? valid, ← readCount? invalid, ← readCount? errors,
      ← readCount? skipped, ← Duration.ofValue? (← totalDuration),
      ← Duration.ofValue? (← averageDuration), ← readList? FileResult.ofValue? files⟩
  | _ => none

/-- The report as JSON text over several lines. -/
def json (s : AuditSummary) (generatedAt : Timestamp) : String :=
  (s.toValue generatedAt).pretty

end AuditSummary

end TransitAudit
