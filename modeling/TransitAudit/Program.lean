import TransitAudit.CommandLine.Parse
import TransitAudit.Report.Render
import TransitAudit.Settings.Load

/-!
A run of the program from its arguments to its exit code. A run is prepared, which reads settings
and finds documents; the documents are checked; and the results are reported.
-/

namespace TransitAudit

/-- What a run finds when it begins. -/
structure Surroundings where
  fs : FileSystem
  userDirectory : Option String
  environment : Environment

/-- How a run ended: its exit code, what it printed and the lines of its errors. -/
structure Outcome where
  code : Nat
  output : String
  errors : List String
deriving DecidableEq, Repr

namespace Outcome

/-- Help and version are printed; everything else about the command line is an error. -/
def ofCommandFault (e : CommandFault) : Outcome :=
  match e with
  | .helpAsked => ⟨0, e.message ++ "\n", []⟩
  | .versionAsked => ⟨0, e.message ++ "\n", []⟩
  | _ => ⟨2, "", [s!"error: {e.message}"]⟩

def failed (message : String) : Outcome :=
  ⟨2, "", [s!"Error: {message}"]⟩

end Outcome

/-- A run whose documents are known. -/
structure PreparedRun where
  config : AuditConfig
  registry : SchemaRegistry
  paths : List String
  format : OutputFormat
  verbosity : Verbosity

namespace PreparedRun

/-- Prepares a run; what fails first ends it. -/
def ofArguments (w : Surroundings) (arguments : List String) : Except Outcome PreparedRun := do
  let c ← (CommandLine.parse arguments).mapError .ofCommandFault
  (c.validate w.fs).mapError .failed
  let s ← (Settings.load w.fs w.userDirectory w.environment c).mapError fun e =>
    .failed s!"failed to load configuration: {e.chain}"
  let discovery ← s.discovery.mapError fun e => .failed e.chain
  let paths ← (discovery.discover w.fs c.path).mapError fun e =>
    .failed s!"failed to validate {c.path}: {e.chain}"
  return ⟨s.auditConfig, s.registry, paths, s.output.format, s.verbosity⟩

/-- Reports what was found in the documents. -/
def report (r : PreparedRun) (files : List FileResult) (colors : Bool) (now : Timestamp) :
    Outcome :=
  let summary := AuditSummary.ofFiles files
  ⟨summary.exitCode, summary.render r.format ⟨r.verbosity, colors⟩ now, []⟩

/-- Checks the documents and reports what was found. -/
def outcome (r : PreparedRun) (fs : FileSystem) (colors : Bool) (now : Timestamp) : Outcome :=
  r.report (r.config.checkFiles fs (.ofRegistry r.registry) r.paths) colors now

end PreparedRun

/-- A whole run on files that do not change meanwhile. -/
def Outcome.ofArguments (w : Surroundings) (arguments : List String) (colors : Bool)
    (now : Timestamp) : Outcome :=
  match PreparedRun.ofArguments w arguments with
  | .ok r => r.outcome w.fs colors now
  | .error o => o

end TransitAudit
