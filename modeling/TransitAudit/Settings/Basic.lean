import TransitAudit.Audit.Engine
import TransitAudit.Report.Format

/-!
The settings of a run by their sections, and what follows from them: how to audit, which schemas
are known and where documents are looked for.
-/

namespace TransitAudit

/-- How documents are checked. Without a number of threads there are as many as processors. -/
structure CheckSettings where
  threads : Option Nat
  failFast : Bool
  timeoutSeconds : Nat
  schema : String

/-- Where schemas are. The versions are ordered by their identifiers. -/
structure SchemaSettings where
  directory : String
  versions : List (String × String)

/-- Which rules are checked, in order, and how far apart things may be. -/
structure RuleSettings where
  enabled : List Rule
  limits : DistanceLimits

/-- What the report looks like. -/
structure OutputSettings where
  format : OutputFormat
  verbose : Bool
  quiet : Bool

/-- Which files are documents. -/
structure FileSettings where
  extensions : List String
  includePatterns : List String
  excludePatterns : List String
  maxDepth : Option Nat
  followLinks : Bool

structure Settings where
  check : CheckSettings
  schemas : SchemaSettings
  rules : RuleSettings
  output : OutputSettings
  files : FileSettings

namespace Settings

/-- The settings where nothing else is chosen. -/
def default : Settings :=
  { check := ⟨none, false, 30, defaultSchema⟩
    schemas := ⟨"xsd", []⟩
    rules := ⟨Rule.defaults, .default⟩
    output := ⟨.human, false, false⟩
    files := ⟨["xml"], [], [], none, false⟩ }

/-- The audit that is asked for. -/
def auditConfig (s : Settings) : AuditConfig :=
  { schema := s.check.schema
    rules := s.rules.enabled
    limits := s.rules.limits
    failFast := s.check.failFast
    maxConcurrent := s.check.threads
    threads := s.check.threads
    timeout := .ofParts s.check.timeoutSeconds 0 }

/-- The schemas that are known. -/
def registry (s : Settings) : SchemaRegistry :=
  s.schemas.versions.foldl (fun r v => r.withVersion v.1 v.2) (.ofDirectory s.schemas.directory)

/-- How documents are found. -/
def discovery (s : Settings) : Except AuditError Discovery := do
  let d := Discovery.default.withExtensions s.files.extensions
  let d ← d.withIncludePatterns s.files.includePatterns
  let d ← d.withExcludePatterns s.files.excludePatterns
  return (d.withMaxDepth (s.files.maxDepth.map (·.toUInt64))).withFollowLinks s.files.followLinks

def verbosity (s : Settings) : Verbosity :=
  .ofFlags s.output.verbose s.output.quiet

end Settings

end TransitAudit
