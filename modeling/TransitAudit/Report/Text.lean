import TransitAudit.Audit.Result
import TransitAudit.Decimal.Layout
import TransitAudit.Report.Format

/-!
Reports for readers: a line for each file with its rules below it, and a summary. Colours are those
of terminals and can be left out.
-/

namespace TransitAudit

/-- How a report looks. -/
structure ReportStyle where
  verbosity : Verbosity
  colors : Bool
deriving DecidableEq, Repr

namespace Duration

/-- The duration in seconds as a real number. -/
def toSeconds (d : Duration) : Float :=
  d.seconds.toUInt64.toFloat + d.subsecond.toUInt64.toFloat / 1000000000.0

/-- Seconds beyond the whole minutes, with one place. -/
def secondsInMinute (seconds : Float) : String :=
  let (num, den) := (Decimal.Binary.ofFloat seconds).ratio
  Decimal.fixedRatio 1 (num % (60 * den)) den

/-- Milliseconds below a second, seconds below a minute, otherwise minutes and seconds. -/
def text (d : Duration) : String :=
  let seconds := d.toSeconds
  if seconds < 1.0 then s!"{d.nanos / 1000000}ms"
  else if seconds < 60.0 then s!"{Decimal.fixed 2 seconds}s"
  else s!"{(seconds / 60.0).toUInt64.toNat}m{secondsInMinute seconds}s"

end Duration

namespace ReportStyle

/-- Findings that are listed for a rule before the rest is only counted. -/
def listedFindings : Nat := 32

/-- A text in a colour of the terminal. -/
def colored (s : ReportStyle) (color text : String) : String :=
  if s.colors then s!"\x1b[{color}m{text}\x1b[0m" else text

def green : String := "32"
def red : String := "31"
def yellow : String := "33"
def cyan : String := "36"

/-- A rule that found something; its findings are listed when verbose. -/
def rule (s : ReportStyle) (r : RuleResult) : String :=
  let head := s!"\n    {r.name} ({r.errorCount})"
  if s.verbosity ≠ .verbose then head
  else
    let listed := (r.errors.take listedFindings).map fun f => s!"\n      {f.display}"
    let more := r.errors.length - listedFindings
    head ++ String.join listed ++ if more = 0 then "" else s!"\n      ... and {more} more"

def file (s : ReportStyle) (r : FileResult) : String :=
  let place := s!"  {r.path} ({r.duration.text})"
  match r.status with
  | .valid => s.colored green "✓ VALID" ++ place
  | .invalid count =>
    let plural := if count = 1 then "" else "s"
    s.colored red "✗ INVALID" ++ place ++ s!" - {count} error{plural}" ++
      String.join ((r.rules.filter (!·.valid)).map s.rule)
  | .error message => s.colored yellow "⚠ ERROR" ++ place ++ s!" - {message}"
  | .skipped reason => s.colored cyan "- SKIPPED" ++ s!"  {r.path} - {reason}"

/-- Counts and times. Counts other than those of all and of valid files are left out when they are
zero. -/
def summary (s : ReportStyle) (a : AuditSummary) : String :=
  let count (color label text : String) (n : Nat) : String :=
    if n = 0 then "" else "  " ++ s.colored color label ++ s!" {text}\n"
  let valid := s.colored green "Valid:"
  let rate := Decimal.fixed 1 a.successRate
  "Validation Summary:\n" ++ s!"  Total files: {a.total}\n" ++
    s!"  {valid} {a.valid}\n" ++
    count red "Invalid:" s!"{a.invalid} ({a.totalFindings} findings)" a.invalid ++
    count yellow "Errors:" s!"{a.errors}" a.errors ++
    count cyan "Skipped:" s!"{a.skipped}" a.skipped ++
    s!"  Success rate: {rate}%\n" ++ s!"  Duration: {a.totalDuration.text}\n"

/-- The report on all files. When quiet, only that there are errors is told. -/
def report (s : ReportStyle) (a : AuditSummary) : String :=
  match s.verbosity with
  | .quiet => if a.hasErrors then s!"Errors: {a.errors} Invalid: {a.invalid}\n" else ""
  | _ => String.join (a.files.map fun r => s.file r ++ "\n") ++ "\n" ++ s.summary a

end ReportStyle

end TransitAudit
