import TransitAudit.Json.Value
import TransitAudit.Settings.Basic
import TransitAudit.Toml.Value

/-!
Settings as data. A file may leave out any setting, and has the default there; members that are no
settings are ignored. TOML tables are read as the same kind of data as JSON objects.
-/

namespace TransitAudit

/-- The only member of the record that a date or time of TOML is. -/
def Toml.momentName : String := "$__toml_private_datetime"

mutual

/-- The data of a TOML value. A date or time is a record of its own and holds no setting. -/
def Toml.Value.data : Toml.Value → Json.Value
  | .string s => .string s
  | .integer i => .integer i
  | .real x => .real x
  | .bool b => .bool b
  | .moment text => .object [(momentName, .string text)]
  | .array vs => .array (Toml.dataOfElements vs)
  | .table ms => .object (Toml.dataOfMembers ms)

def Toml.dataOfElements : List Toml.Value → List Json.Value
  | [] => []
  | v :: vs => v.data :: Toml.dataOfElements vs

def Toml.dataOfMembers : List (String × Toml.Value) → List (String × Json.Value)
  | [] => []
  | (n, v) :: ms => (n, v.data) :: Toml.dataOfMembers ms

end

/-- The formats of settings files. -/
inductive SettingsFormat where
  | toml
  | json
deriving DecidableEq, Repr

namespace SettingsFormat

open Json (Value)

/-- The settings of a section by their names, or in order. In TOML an array may have more elements
than there are settings. -/
def section? (f : SettingsFormat) (names : List String) (v : Value) :
    Option (List (Option Value)) :=
  match f, v with
  | .toml, .array vs => Value.fields? names (.array (vs.take names.length))
  | _, v => v.fields? names

/-- A number; only TOML can write numbers that are not finite. -/
def number? (f : SettingsFormat) (v : Value) : Option Float :=
  match f, v with
  | .toml, .real x => some x
  | _, v => v.real?

/-- What stands for nothing: JSON has a value for it, and TOML an empty table or array. -/
def isNothing (f : SettingsFormat) (v : Value) : Bool :=
  match f, v with
  | .json, .null => true
  | .toml, .object [] => true
  | .toml, .array [] => true
  | _, _ => false

/-- One of several choices by its name, which may also be a member that holds nothing. -/
def choice? {α : Type} (f : SettingsFormat) (ofName? : String → Option α) (v : Value) : Option α :=
  match v with
  | .string name => ofName? name
  | .object [(name, content)] => if f.isNothing content then ofName? name else none
  | _ => none

end SettingsFormat

namespace Settings

open Json (Value)

/-- A setting that was given or else has its default. -/
def field? {α : Type} (default : α) (decode : Value → Option α) : Option Value → Option α
  | none => some default
  | some v => decode v

def list? {α : Type} (decode : Value → Option α) (v : Value) : Option (List α) :=
  v.elements?.bind (·.mapM decode)

/-- Counts fit into 64 bits. -/
def count? (v : Value) : Option Nat :=
  v.nat? (Nat.pow 2 64)

/-- Texts by their names, in the order of names; the last text of a name counts. -/
def versions? : Value → Option (List (String × String))
  | .object members =>
    members.foldlM (fun vs m => m.2.string?.map fun path =>
      SchemaRegistry.insertOrdered m.1 path vs) []
  | _ => none

def checkSection? (f : SettingsFormat) (v : Value) : Option CheckSettings := do
  let d := default.check
  match ← f.section? ["threads", "fail_fast", "timeout_seconds", "schema"] v with
  | [threads, failFast, timeout, schema] =>
    return {
      threads := ← Value.optional? count? threads
      failFast := ← field? d.failFast Value.bool? failFast
      timeoutSeconds := ← field? d.timeoutSeconds count? timeout
      schema := ← field? d.schema Value.string? schema }
  | _ => none

def schemaSection? (f : SettingsFormat) (v : Value) : Option SchemaSettings := do
  let d := default.schemas
  match ← f.section? ["directory", "versions"] v with
  | [directory, versions] =>
    return {
      directory := ← field? d.directory Value.string? directory
      versions := ← field? d.versions versions? versions }
  | _ => none

def ruleSection? (f : SettingsFormat) (v : Value) : Option RuleSettings := do
  let d := default.rules
  match ← f.section? ["enabled", "quay_distance_meters", "assignment_distance_meters"] v with
  | [enabled, quay, assignment] =>
    let enabled ← field? d.enabled (list? (f.choice? Rule.ofName?)) enabled
    let quay ← field? d.limits.quay f.number? quay
    return ⟨enabled, ⟨quay, ← field? d.limits.assignment f.number? assignment⟩⟩
  | _ => none

def outputSection? (f : SettingsFormat) (v : Value) : Option OutputSettings := do
  let d := default.output
  match ← f.section? ["format", "verbose", "quiet"] v with
  | [format, verbose, quiet] =>
    return {
      format := ← field? d.format (f.choice? OutputFormat.ofName?) format
      verbose := ← field? d.verbose Value.bool? verbose
      quiet := ← field? d.quiet Value.bool? quiet }
  | _ => none

def fileSection? (f : SettingsFormat) (v : Value) : Option FileSettings := do
  let d := default.files
  let names :=
    ["extensions", "include_patterns", "exclude_patterns", "max_depth", "follow_symlinks"]
  match ← f.section? names v with
  | [extensions, included, excluded, depth, follow] =>
    return {
      extensions := ← field? d.extensions (list? Value.string?) extensions
      includePatterns := ← field? d.includePatterns (list? Value.string?) included
      excludePatterns := ← field? d.excludePatterns (list? Value.string?) excluded
      maxDepth := ← Value.optional? count? depth
      followLinks := ← field? d.followLinks Value.bool? follow }
  | _ => none

/-- The settings that data hold. -/
def ofValue? (f : SettingsFormat) (v : Value) : Option Settings := do
  match ← f.section? ["validation", "schemas", "rules", "output", "files"] v with
  | [check, schemas, rules, output, files] =>
    return {
      check := ← field? default.check (checkSection? f) check
      schemas := ← field? default.schemas (schemaSection? f) schemas
      rules := ← field? default.rules (ruleSection? f) rules
      output := ← field? default.output (outputSection? f) output
      files := ← field? default.files (fileSection? f) files }
  | _ => none

def texts (ts : List String) : Value :=
  .array (ts.map .string)

def countValue (n : Option Nat) : Value :=
  match n with
  | some n => .integer n
  | none => .null

/-- Settings as data, with nothing left out. -/
def toValue (s : Settings) : Value :=
  .object
    [("validation", .object
      [("threads", countValue s.check.threads), ("fail_fast", .bool s.check.failFast),
        ("timeout_seconds", .integer s.check.timeoutSeconds), ("schema", .string s.check.schema)]),
      ("schemas", .object
        [("directory", .string s.schemas.directory),
          ("versions", .object (s.schemas.versions.map fun v => (v.1, .string v.2)))]),
      ("rules", .object
        [("enabled", texts (s.rules.enabled.map (·.name))),
          ("quay_distance_meters", .real s.rules.limits.quay),
          ("assignment_distance_meters", .real s.rules.limits.assignment)]),
      ("output", .object
        [("format", .string s.output.format.name), ("verbose", .bool s.output.verbose),
          ("quiet", .bool s.output.quiet)]),
      ("files", .object
        [("extensions", texts s.files.extensions),
          ("include_patterns", texts s.files.includePatterns),
          ("exclude_patterns", texts s.files.excludePatterns),
          ("max_depth", countValue s.files.maxDepth),
          ("follow_symlinks", .bool s.files.followLinks)])]

end Settings

end TransitAudit
