import TransitAudit.CommandLine.Basic
import TransitAudit.Decimal.Read
import TransitAudit.Settings.Basic
import TransitAudit.Settings.Error
import TransitAudit.Text.Lowercase

/-!
Layers of settings. The environment and the command line each give some settings, and what they
give replaces what was set before. A variable of the environment that cannot be read is an error
even where the command line gives the same setting.
-/

namespace TransitAudit

/-- Settings of which each may be given or not. -/
structure SettingsLayer where
  threads : Option Nat
  failFast : Option Bool
  timeoutSeconds : Option Nat
  schema : Option String
  directory : Option String
  rules : Option (List Rule)
  quayDistance : Option Float
  assignmentDistance : Option Float
  verbose : Option Bool
  quiet : Option Bool
  format : Option OutputFormat
  extensions : Option (List String)
  includePatterns : Option (List String)
  excludePatterns : Option (List String)

namespace SettingsLayer

/-- Puts a layer on settings. -/
def applyTo (l : SettingsLayer) (s : Settings) : Settings :=
  { check :=
      { threads := l.threads <|> s.check.threads
        failFast := l.failFast.getD s.check.failFast
        timeoutSeconds := l.timeoutSeconds.getD s.check.timeoutSeconds
        schema := l.schema.getD s.check.schema }
    schemas := { s.schemas with directory := l.directory.getD s.schemas.directory }
    rules :=
      { enabled := l.rules.getD s.rules.enabled
        limits :=
          { quay := l.quayDistance.getD s.rules.limits.quay
            assignment := l.assignmentDistance.getD s.rules.limits.assignment } }
    output :=
      { format := l.format.getD s.output.format
        verbose := l.verbose.getD s.output.verbose
        quiet := l.quiet.getD s.output.quiet }
    files := { s.files with
      extensions := l.extensions.getD s.files.extensions
      includePatterns := l.includePatterns.getD s.files.includePatterns
      excludePatterns := l.excludePatterns.getD s.files.excludePatterns } }

/-- A list that counts as given unless it is empty. -/
def unlessEmpty {α : Type} (xs : List α) : Option (List α) :=
  if xs.isEmpty then none else some xs

/-- The settings given on the command line. Failing fast can only be switched on there, and being
verbose and being quiet are given together. -/
def ofCommandLine (c : CommandLine) : SettingsLayer :=
  let loudness := c.verbose || c.quiet
  { threads := c.threads
    failFast := if c.failFast then some true else none
    timeoutSeconds := c.timeout
    schema := c.schema
    directory := c.schemaDirectory
    rules := unlessEmpty c.rules
    quayDistance := c.maxDistance
    assignmentDistance := c.maxAssignmentDistance
    verbose := if loudness then some c.verbose else none
    quiet := if loudness then some c.quiet else none
    format := c.format
    extensions := c.extensionList
    includePatterns := unlessEmpty c.includePatterns
    excludePatterns := unlessEmpty c.excludePatterns }

end SettingsLayer

/-- The variables of an environment. -/
abbrev Environment := List (String × String)

namespace Environment

/-- The name of a variable behind what all of them begin with. -/
def fullName (name : String) : String :=
  "NETEX_INTEGRITY_" ++ name

def invalid (name reason : String) : SettingsError :=
  .environment s!"Invalid {fullName name} value: {reason}"

/-- The value of a variable, if it is set. -/
def given {α : Type} (env : Environment) (name : String)
    (read : String → Except SettingsError α) : Except SettingsError (Option α) :=
  match env.lookup (fullName name) with
  | none => .ok none
  | some text => (read text).map some

/-- The value of a variable as some type; white space around it does not count. -/
def parsed {α : Type} (env : Environment) (name : String) (parse? : String → Option α) :
    Except SettingsError (Option α) :=
  env.given name fun text =>
    match parse? (Text.trimmed text) with
    | some a => .ok a
    | none => .error (invalid name text)

def parseCount? (text : String) : Option Nat :=
  Decimal.readNat? (Nat.pow 2 64) text

def parseFlag? (text : String) : Option Bool :=
  if text = "true" then some true else if text = "false" then some false else none

/-- A list of rules. -/
def readRules (text : String) : Except SettingsError (List Rule) :=
  ((Text.commaList text).mapM Rule.parse).mapError fun e => invalid "RULES" e.message

/-- A format in any case. -/
def readFormat (text : String) : Except SettingsError OutputFormat :=
  match OutputFormat.ofName? (Text.lowercase text) with
  | some f => .ok f
  | none => .error (invalid "FORMAT" text)

/-- The settings given in the environment; the first variable that cannot be read is reported. -/
def layer (env : Environment) : Except SettingsError SettingsLayer := do
  let threads ← env.parsed "THREADS" parseCount?
  let failFast ← env.parsed "FAIL_FAST" parseFlag?
  let timeoutSeconds ← env.parsed "TIMEOUT" parseCount?
  let schema ← env.given "SCHEMA" .ok
  let directory ← env.given "SCHEMA_DIR" .ok
  let rules ← env.given "RULES" readRules
  let quayDistance ← env.parsed "MAX_DISTANCE" Decimal.readFloat?
  let assignmentDistance ← env.parsed "MAX_ASSIGNMENT_DISTANCE" Decimal.readFloat?
  let verbose ← env.parsed "VERBOSE" parseFlag?
  let quiet ← env.parsed "QUIET" parseFlag?
  let format ← env.given "FORMAT" readFormat
  let extensions ← env.given "EXTENSIONS" fun text => .ok (Text.commaList text)
  return {
    threads, failFast, timeoutSeconds, schema, directory, rules, quayDistance, assignmentDistance
    verbose, quiet, format, extensions, includePatterns := none, excludePatterns := none }

end Environment

end TransitAudit
