import TransitAudit.Audit.Result
import TransitAudit.Discovery.Walk
import TransitAudit.Document.File
import TransitAudit.Rule.Run
import TransitAudit.Schema.Loader

/-!
Checking files against the chosen rules. A file is read, the schema's part is loaded if some rule
asks for it, and the rules run; a failure at any of these is the outcome for that file and leaves
the others alone. Failing fast, files after the first that is not valid are skipped.
-/

namespace TransitAudit

/-- What to check and how. At most `maxConcurrent` files are checked at a time, with zero counting
as one, and no file for longer than the timeout. -/
structure AuditConfig where
  schema : String
  rules : List Rule
  limits : DistanceLimits
  failFast : Bool
  maxConcurrent : Option Nat
  threads : Option Nat
  timeout : Duration

namespace AuditConfig

def default : AuditConfig :=
  ⟨defaultSchema, Rule.defaults, .default, false, none, none, .ofParts 30 0⟩

/-- What the rules need of the schema. Constraints are loaded before the grammar. -/
def inputs (c : AuditConfig) (fs : FileSystem) (loader : SchemaLoader) :
    Except AuditError RuleInputs × SchemaLoader :=
  let (constraints, loader) : Except AuditError (Option ConstraintSet) × SchemaLoader :=
    if c.rules.any (·.needsConstraints) then
      let (found, loader) := loader.constraints fs c.schema
      (found.map some, loader)
    else (.ok none, loader)
  match constraints with
  | .error e => (.error e, loader)
  | .ok constraints =>
    if c.rules.any (·.needsGrammar) then
      let (found, loader) := loader.grammar fs c.schema
      (found.map fun g => ⟨constraints, some g⟩, loader)
    else (.ok ⟨constraints, none⟩, loader)

/-- Whether there can be such workers: a single thread is one worker. -/
def allows (c : AuditConfig) (w : Workers) : Bool :=
  c.threads ≠ some 1 || w = .one

/-- The outcome for a document from that of the rules. -/
def conclude (c : AuditConfig) (path : String) (source : Source) :
    Except AuditError (List RuleResult) → FileResult
  | .ok rules => .completed path source.size c.schema rules .zero
  | .error e => .failed path e .zero

/-- The outcome for a file that cannot be read. -/
def unreadable (path : String) (e : FileFault) : FileResult :=
  .failed path (.io e.message) .zero

end AuditConfig

namespace Workers

variable (w : Workers)

/-- Runs the rules on a document. -/
def runRules (c : AuditConfig) (fs : FileSystem) (loader : SchemaLoader) (source : Source) :
    Except AuditError (List RuleResult) × SchemaLoader :=
  let (inputs, loader) := c.inputs fs loader
  (do w.run c.limits source c.rules (← inputs), loader)

/-- Checks a document under a path. -/
def checkLoaded (c : AuditConfig) (fs : FileSystem) (loader : SchemaLoader) (path : String)
    (source : Source) : FileResult × SchemaLoader :=
  let (rules, loader) := w.runRules c fs loader source
  (c.conclude path source rules, loader)

/-- Checks a file. -/
def checkFile (c : AuditConfig) (fs : FileSystem) (loader : SchemaLoader) (path : String) :
    FileResult × SchemaLoader :=
  match Source.read fs path with
  | .ok source => w.checkLoaded c fs loader path source
  | .error e => (AuditConfig.unreadable path e, loader)

end Workers

namespace AuditConfig

/-- Checks a document in memory with one worker; without a path it goes by its name. -/
def checkDocument (c : AuditConfig) (fs : FileSystem) (loader : SchemaLoader) (source : Source) :
    FileResult × SchemaLoader :=
  Workers.one.checkLoaded c fs loader (source.path.getD source.name) source

/-- Checks a file with one worker. -/
def checkFile (c : AuditConfig) (fs : FileSystem) (loader : SchemaLoader) (path : String) :
    FileResult × SchemaLoader :=
  Workers.one.checkFile c fs loader path

/-- The outcome for a file whose check takes longer than it may. -/
def expired (c : AuditConfig) (path : String) : FileResult :=
  .failed path (.concurrency s!"Validation timeout after {c.timeout.exactText}") .zero

def skipReason : String := "fail-fast: an earlier file was not valid"

/-- A run under way: what is loaded, and whether it has been halted. -/
structure Progress where
  loader : SchemaLoader
  halted : Bool

/-- Takes the next file of a run. -/
def step (c : AuditConfig) (fs : FileSystem) (p : Progress) (path : String) :
    FileResult × Progress :=
  if p.halted then (.skipped path skipReason, p)
  else
    let (result, loader) := c.checkFile fs p.loader path
    (result, ⟨loader, c.failFast && !result.status.isValid⟩)

/-- Takes files one after another. -/
def checkFrom (c : AuditConfig) (fs : FileSystem) (p : Progress) : List String → List FileResult
  | [] => []
  | path :: paths =>
    let (result, p) := c.step fs p path
    result :: checkFrom c fs p paths

/-- Checks files in order, one at a time and with one worker. -/
def checkFiles (c : AuditConfig) (fs : FileSystem) (loader : SchemaLoader) (paths : List String) :
    List FileResult :=
  c.checkFrom fs ⟨loader, false⟩ paths

/-- Finds the documents under a path and checks them. -/
def checkPath (c : AuditConfig) (fs : FileSystem) (loader : SchemaLoader) (discovery : Discovery)
    (path : String) : Except AuditError AuditSummary := do
  let paths ← discovery.discover fs path
  return .ofFiles (c.checkFiles fs loader paths)

end AuditConfig

/-- All integrity checks of a document with the constraints of a loaded schema. -/
def Integrity.validateLoaded (fs : FileSystem) (loader : SchemaLoader) (identifier : String)
    (source : Source) : Except AuditError (List Finding) × SchemaLoader :=
  let (constraints, loader) := loader.constraints fs identifier
  (do
    let constraints ← constraints
    Integrity.check (← source.parse) constraints, loader)

end TransitAudit
