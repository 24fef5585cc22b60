import TransitAudit.Proofs.Failure
import TransitAudit.Proofs.Files.Walk
import TransitAudit.Proofs.Text.Trim
import TransitAudit.Settings.Load

/-! Settings from a file, the environment and the command line. What the three say is put together
setting by setting; no settings come of it just when a variable cannot be read or something in the
result cannot be used. -/
namespace TransitAudit

/-! Variables of the environment -/

/-- The variables that hold settings. -/
inductive Variable where
  | threads
  | failFast
  | timeout
  | schema
  | schemaDirectory
  | rules
  | maxDistance
  | maxAssignmentDistance
  | verbose
  | quiet
  | format
  | extensions
deriving DecidableEq

namespace Variable

/-- The name behind what the names of all variables begin with. -/
def name : Variable → String
  | threads => "THREADS"
  | failFast => "FAIL_FAST"
  | timeout => "TIMEOUT"
  | schema => "SCHEMA"
  | schemaDirectory => "SCHEMA_DIR"
  | rules => "RULES"
  | maxDistance => "MAX_DISTANCE"
  | maxAssignmentDistance => "MAX_ASSIGNMENT_DISTANCE"
  | verbose => "VERBOSE"
  | quiet => "QUIET"
  | format => "FORMAT"
  | extensions => "EXTENSIONS"

/-- What the variable is a value of. -/
abbrev Value : Variable → Type
  | threads | timeout => Nat
  | failFast | verbose | quiet => Bool
  | schema | schemaDirectory => String
  | rules => List Rule
  | maxDistance | maxAssignmentDistance => Float
  | format => OutputFormat
  | extensions => List String

/-- The value that a text stands for. White space around numbers and flags does not count, and
formats are named in any case. -/
def read? : (v : Variable) → String → Option v.Value
  | threads, text | timeout, text => Environment.parseCount? (Text.trimmed text)
  | failFast, text | verbose, text | quiet, text => Environment.parseFlag? (Text.trimmed text)
  | schema, text | schemaDirectory, text => some text
  | rules, text => ((Text.commaList text).mapM Rule.parse).toOption
  | maxDistance, text | maxAssignmentDistance, text => Decimal.readFloat? (Text.trimmed text)
  | format, text => OutputFormat.ofName? (Text.lowercase text)
  | extensions, text => some (Text.commaList text)

end Variable

namespace Environment

/-- What the variable gives, if it is set. -/
def value? (env : Environment) (v : Variable) : Option v.Value :=
  (env.lookup (fullName v.name)).bind v.read?

/-- The variable is set to a text that is no value. -/
def Malformed (env : Environment) (v : Variable) : Prop :=
  ∃ text, env.lookup (fullName v.name) = some text ∧ v.read? text = none

/-- Reading the variable gives its value, or else an error that names it. -/
structure Reads (env : Environment) (v : Variable)
    (x : Except SettingsError (Option v.Value)) : Prop where
  ok_iff : ∀ a, x = .ok a ↔ ¬ env.Malformed v ∧ a = env.value? v
  error : ∀ e, x = .error e → env.Malformed v ∧ ∃ reason, e = invalid v.name reason

variable {env : Environment}

theorem reads_ok {v : Variable} (hread : ¬ env.Malformed v) : env.Reads v (.ok (env.value? v)) := by
  constructor
  · intro a
    rw [Except.ok.injEq, and_iff_right hread, eq_comm]
  · rintro e ⟨⟩

theorem reads_error {v : Variable} (hmalformed : env.Malformed v) (reason : String) :
    env.Reads v (.error (invalid v.name reason)) := by
  constructor
  · intro a
    exact iff_of_false (by rintro ⟨⟩) fun h => h.1 hmalformed
  · rintro e ⟨⟩
    exact ⟨hmalformed, reason, rfl⟩

theorem reads_given {v : Variable} {read : String → Except SettingsError v.Value}
    (hok : ∀ text a, read text = .ok a → v.read? text = some a)
    (herror : ∀ text e, read text = .error e →
      v.read? text = none ∧ ∃ reason, e = invalid v.name reason) :
    env.Reads v (env.given v.name read) := by
  unfold given
  cases hset : env.lookup (fullName v.name) with
  | none =>
    have hvalue : env.value? v = none := by rw [value?, hset, Option.bind_none]
    rw [← hvalue]
    refine reads_ok ?_
    rintro ⟨text, htext, -⟩
    rw [hset] at htext
    cases htext
  | some text =>
    change env.Reads v ((read text).map some)
    cases hread : read text with
    | ok a =>
      have htext := hok text a hread
      have hvalue : env.value? v = some a := by rw [value?, hset, Option.bind_some, htext]
      rw [Except.map, ← hvalue]
      refine reads_ok ?_
      rintro ⟨text', htext', hnone⟩
      rw [hset] at htext'
      cases htext'
      rw [htext] at hnone
      cases hnone
    | error e =>
      obtain ⟨hnone, reason, rfl⟩ := herror text e hread
      exact reads_error ⟨text, hset, hnone⟩ reason

theorem reads_parsed {v : Variable} {parse? : String → Option v.Value}
    (h : ∀ text, v.read? text = parse? (Text.trimmed text)) :
    env.Reads v (env.parsed v.name parse?) := by
  apply reads_given
  · intro text a ha
    rw [h]
    split at ha
    · cases ha
      assumption
    · cases ha
  · intro text e he
    rw [h]
    split at he
    · cases he
    · cases he
      exact ⟨by assumption, text, rfl⟩

/-- A variable that any text is a value of. -/
theorem reads_any {v : Variable} {read : String → v.Value}
    (h : ∀ text, v.read? text = some (read text)) :
    env.Reads v (env.given v.name fun text => .ok (read text)) := by
  apply reads_given
  · rintro text a ⟨⟩
    exact h text
  · rintro text e ⟨⟩

theorem reads_rules : env.Reads .rules (env.given "RULES" readRules) := by
  apply reads_given (v := .rules)
  · intro text rules hrules
    rw [readRules, mapError_eq_ok_iff] at hrules
    rw [Variable.read?, hrules]
    rfl
  · intro text e he
    rw [readRules] at he
    rw [Variable.read?]
    cases hrules : (Text.commaList text).mapM Rule.parse with
    | ok rules =>
      rw [hrules] at he
      cases he
    | error fault =>
      rw [hrules] at he
      cases he
      exact ⟨rfl, _, rfl⟩

theorem reads_format : env.Reads .format (env.given "FORMAT" readFormat) := by
  apply reads_given (v := .format)
  · intro text format hformat
    rw [readFormat] at hformat
    rw [Variable.read?]
    split at hformat
    · cases hformat
      assumption
    · cases hformat
  · intro text e he
    rw [readFormat] at he
    rw [Variable.read?]
    split at he
    · cases he
    · cases he
      exact ⟨by assumption, text, rfl⟩

/-- How each variable is read. -/
def reading (env : Environment) : (v : Variable) → Except SettingsError (Option v.Value)
  | .threads => env.parsed "THREADS" parseCount?
  | .failFast => env.parsed "FAIL_FAST" parseFlag?
  | .timeout => env.parsed "TIMEOUT" parseCount?
  | .schema => env.given "SCHEMA" .ok
  | .schemaDirectory => env.given "SCHEMA_DIR" .ok
  | .rules => env.given "RULES" readRules
  | .maxDistance => env.parsed "MAX_DISTANCE" Decimal.readFloat?
  | .maxAssignmentDistance => env.parsed "MAX_ASSIGNMENT_DISTANCE" Decimal.readFloat?
  | .verbose => env.parsed "VERBOSE" parseFlag?
  | .quiet => env.parsed "QUIET" parseFlag?
  | .format => env.given "FORMAT" readFormat
  | .extensions => env.given "EXTENSIONS" fun text => .ok (Text.commaList text)

theorem reads_reading (env : Environment) (v : Variable) : env.Reads v (env.reading v) := by
  -- by the equations, as the reading of numbers is not to be unfolded
  cases v with
  | threads | failFast | timeout | maxDistance | maxAssignmentDistance | verbose | quiet =>
    rw [reading]
    exact reads_parsed fun text => by rw [Variable.read?]
  | schema | schemaDirectory | extensions =>
    rw [reading]
    exact reads_any fun text => by rw [Variable.read?]
  | rules => exact reads_rules
  | format => exact reads_format

section Sequence

variable {β : Type} {v : Variable} {f : Option v.Value → Except SettingsError β}

theorem reading_bind_eq_ok_iff {b : β} :
    env.reading v >>= f = .ok b ↔ ¬ env.Malformed v ∧ f (env.value? v) = .ok b := by
  rw [bind_eq_ok_iff]
  constructor
  · rintro ⟨a, ha, hf⟩
    obtain ⟨hread, rfl⟩ := ((env.reads_reading v).ok_iff a).mp ha
    exact ⟨hread, hf⟩
  · rintro ⟨hread, hf⟩
    exact ⟨_, ((env.reads_reading v).ok_iff _).mpr ⟨hread, rfl⟩, hf⟩

/-- The error names a variable that cannot be read. -/
def Blames (env : Environment) (e : SettingsError) : Prop :=
  ∃ v reason, env.Malformed v ∧ e = invalid v.name reason

theorem blames_of_reading_bind (hf : ∀ a e, f a = .error e → env.Blames e) (e : SettingsError)
    (he : env.reading v >>= f = .error e) : env.Blames e := by
  rcases bind_eq_error_iff.mp he with hx | ⟨a, -, ha⟩
  · obtain ⟨hmalformed, reason, rfl⟩ := (env.reads_reading v).error e hx
    exact ⟨v, reason, hmalformed, rfl⟩
  · exact hf a e ha

end Sequence

/-- What the whole environment gives. -/
def values (env : Environment) : SettingsLayer where
  threads := env.value? .threads
  failFast := env.value? .failFast
  timeoutSeconds := env.value? .timeout
  schema := env.value? .schema
  directory := env.value? .schemaDirectory
  rules := env.value? .rules
  quayDistance := env.value? .maxDistance
  assignmentDistance := env.value? .maxAssignmentDistance
  verbose := env.value? .verbose
  quiet := env.value? .quiet
  format := env.value? .format
  extensions := env.value? .extensions
  includePatterns := none
  excludePatterns := none

theorem layer_eq (env : Environment) : env.layer = (do
    let threads ← env.reading .threads
    let failFast ← env.reading .failFast
    let timeoutSeconds ← env.reading .timeout
    let schema ← env.reading .schema
    let directory ← env.reading .schemaDirectory
    let rules ← env.reading .rules
    let quayDistance ← env.reading .maxDistance
    let assignmentDistance ← env.reading .maxAssignmentDistance
    let verbose ← env.reading .verbose
    let quiet ← env.reading .quiet
    let format ← env.reading .format
    let extensions ← env.reading .extensions
    return {
      threads, failFast, timeoutSeconds, schema, directory, rules, quayDistance
      assignmentDistance, verbose, quiet, format, extensions
      includePatterns := none, excludePatterns := none }) :=
  rfl

theorem layer_eq_ok_iff {l : SettingsLayer} :
    env.layer = .ok l ↔ (∀ v, ¬ env.Malformed v) ∧ l = env.values := by
  rw [layer_eq]
  repeat rw [reading_bind_eq_ok_iff]
  constructor
  · rintro ⟨h1, h2, h3, h4, h5, h6, h7, h8, h9, h10, h11, h12, hret⟩
    cases hret
    exact ⟨fun v => by cases v <;> assumption, rfl⟩
  · rintro ⟨h, rfl⟩
    exact ⟨h _, h _, h _, h _, h _, h _, h _, h _, h _, h _, h _, h _, rfl⟩

theorem blames_of_layer_eq_error {e : SettingsError} (h : env.layer = .error e) :
    env.Blames e := by
  rw [layer_eq] at h
  revert h
  revert e
  repeat
    apply blames_of_reading_bind
    intro a
  intro e he
  cases he

end Environment

/-! What the three say together -/

namespace Settings

/-- The settings of a file with what the environment and the command line say. The command line
counts most, then the environment. Failing fast is only switched on there, being verbose and being
quiet are given together, and some settings are only in files. -/
def merged (file : Settings) (env : Environment) (c : CommandLine) : Settings where
  check :=
    { threads := c.threads <|> env.value? .threads <|> file.check.threads
      failFast := c.failFast || (env.value? .failFast).getD file.check.failFast
      timeoutSeconds := (c.timeout <|> env.value? .timeout).getD file.check.timeoutSeconds
      schema := (c.schema <|> env.value? .schema).getD file.check.schema }
  schemas :=
    { directory :=
        (c.schemaDirectory <|> env.value? .schemaDirectory).getD file.schemas.directory
      versions := file.schemas.versions }
  rules :=
    { enabled := if c.rules.isEmpty then (env.value? .rules).getD file.rules.enabled else c.rules
      limits :=
        { quay := (c.maxDistance <|> env.value? .maxDistance).getD file.rules.limits.quay
          assignment := (c.maxAssignmentDistance <|> env.value? .maxAssignmentDistance).getD
            file.rules.limits.assignment } }
  output :=
    { format := (c.format <|> env.value? .format).getD file.output.format
      verbose :=
        if c.verbose || c.quiet then c.verbose
        else (env.value? .verbose).getD file.output.verbose
      quiet :=
        if c.verbose || c.quiet then c.quiet else (env.value? .quiet).getD file.output.quiet }
  files :=
    { extensions := (c.extensionList <|> env.value? .extensions).getD file.files.extensions
      includePatterns :=
        if c.includePatterns.isEmpty then file.files.includePatterns else c.includePatterns
      excludePatterns :=
        if c.excludePatterns.isEmpty then file.files.excludePatterns else c.excludePatterns
      maxDepth := file.files.maxDepth
      followLinks := file.files.followLinks }

theorem getD_orElse {α : Type} (a b : Option α) (d : α) :
    (a <|> b).getD d = a.getD (b.getD d) := by
  cases a <;> rfl

theorem getD_unlessEmpty {α : Type} (as ds : List α) :
    (SettingsLayer.unlessEmpty as).getD ds = if as.isEmpty then ds else as := by
  unfold SettingsLayer.unlessEmpty
  split <;> rfl

theorem getD_ite_some {α : Type} (p : Bool) (a d : α) :
    (if p = true then some a else none).getD d = if p = true then a else d := by
  split <;> rfl

/-- Putting one layer on the other is the same. -/
theorem applyTo_applyTo_eq_merged (file : Settings) (env : Environment) (c : CommandLine) :
    (SettingsLayer.ofCommandLine c).applyTo (env.values.applyTo file) = file.merged env c := by
  have hfast (d : Bool) : (if c.failFast = true then true else d) = (c.failFast || d) := by
    cases c.failFast <;> rfl
  simp only [SettingsLayer.applyTo, SettingsLayer.ofCommandLine, Environment.values, merged,
    getD_orElse, getD_unlessEmpty, getD_ite_some, hfast, Option.getD_none]

/-! Settings that cannot be used -/

/-- Something in the settings cannot be used. -/
inductive Violates (s : Settings) : InvalidSetting → Prop
  | noThreads (h : s.check.threads = some 0) : Violates s .noThreads
  | tooManyThreads {count : Nat} (h : s.check.threads = some count) (hcount : 1000 < count) :
    Violates s .tooManyThreads
  | noTimeout (h : s.check.timeoutSeconds = 0) : Violates s .noTimeout
  | noSchema (h : Text.AllBlank s.check.schema.toList) : Violates s .noSchema
  | noRules (h : s.rules.enabled = []) : Violates s .noRules
  | quayDistance (h : s.rules.limits.quay.isFinite = false ∨ s.rules.limits.quay ≤ 0.0) :
    Violates s (.quayDistance s.rules.limits.quay)
  | assignmentDistance
    (h : s.rules.limits.assignment.isFinite = false ∨ s.rules.limits.assignment ≤ 0.0) :
    Violates s (.assignmentDistance s.rules.limits.assignment)
  | verboseAndQuiet (hverbose : s.output.verbose = true) (hquiet : s.output.quiet = true) :
    Violates s .verboseAndQuiet
  | noExtensions (h : s.files.extensions = []) : Violates s .noExtensions
  | extension {text : String} (htext : text ∈ s.files.extensions) {c : Char}
    (hc : c ∈ text.toList) (hmark : c = '/' ∨ c = '\\' ∨ c = '.') :
    Violates s (.extension text)

theorem trimmed_eq_empty_iff (text : String) :
    Text.trimmed text = "" ↔ Text.AllBlank text.toList := by
  rw [Text.trimmed, ← String.toList_eq_nil_iff, String.toList_ofList, Text.trim_eq_nil_iff]

theorem isDistance_eq_false_iff (x : Float) :
    isDistance x = false ↔ x.isFinite = false ∨ x ≤ 0.0 := by
  rw [isDistance, Bool.and_eq_false_iff, Bool.not_eq_false', decide_eq_true_eq]

theorem isExtension_eq_false_iff (text : String) :
    isExtension text = false ↔ ∃ c ∈ text.toList, c = '/' ∨ c = '\\' ∨ c = '.' := by
  rw [isExtension, List.all_eq_false]
  simp only [ne_eq, Bool.and_eq_true, decide_eq_true_eq]
  grind

/-- What is reported cannot be used. -/
theorem violates_of_firstInvalid? {s : Settings} {fault : InvalidSetting}
    (h : s.firstInvalid? = some fault) : s.Violates fault := by
  unfold firstInvalid? at h
  -- each check either reports or leaves it to the next one
  rcases ite_eq_iff.mp h with ⟨hzero, ⟨⟩⟩ | ⟨-, h⟩
  · exact .noThreads hzero
  rcases ite_eq_iff.mp h with ⟨hmany, ⟨⟩⟩ | ⟨-, h⟩
  · cases hthreads : s.check.threads with
    | none =>
      rw [hthreads] at hmany
      cases hmany
    | some count =>
      rw [hthreads] at hmany
      exact .tooManyThreads hthreads (of_decide_eq_true hmany)
  rcases ite_eq_iff.mp h with ⟨htimeout, ⟨⟩⟩ | ⟨-, h⟩
  · exact .noTimeout htimeout
  rcases ite_eq_iff.mp h with ⟨hschema, ⟨⟩⟩ | ⟨-, h⟩
  · exact .noSchema ((trimmed_eq_empty_iff _).mp hschema)
  rcases ite_eq_iff.mp h with ⟨hrules, ⟨⟩⟩ | ⟨-, h⟩
  · exact .noRules (List.isEmpty_iff.mp hrules)
  rcases ite_eq_iff.mp h with ⟨hquay, ⟨⟩⟩ | ⟨-, h⟩
  · rw [Bool.not_eq_true', isDistance_eq_false_iff] at hquay
    exact .quayDistance hquay
  rcases ite_eq_iff.mp h with ⟨hassignment, ⟨⟩⟩ | ⟨-, h⟩
  · rw [Bool.not_eq_true', isDistance_eq_false_iff] at hassignment
    exact .assignmentDistance hassignment
  rcases ite_eq_iff.mp h with ⟨hboth, ⟨⟩⟩ | ⟨-, h⟩
  · rw [Bool.and_eq_true] at hboth
    exact .verboseAndQuiet hboth.1 hboth.2
  rcases ite_eq_iff.mp h with ⟨hextensions, ⟨⟩⟩ | ⟨-, h⟩
  · exact .noExtensions (List.isEmpty_iff.mp hextensions)
  obtain ⟨text, hfind, rfl⟩ := Option.map_eq_some_iff.mp h
  have hbad := List.find?_some hfind
  rw [Bool.not_eq_true', isExtension_eq_false_iff] at hbad
  obtain ⟨c, hc, hmark⟩ := hbad
  exact .extension (List.mem_of_find?_eq_some hfind) hc hmark

/-- Where nothing is reported, everything can be used. -/
theorem not_violates_of_firstInvalid? {s : Settings} (h : s.firstInvalid? = none)
    (fault : InvalidSetting) : ¬ s.Violates fault := by
  simp only [firstInvalid?, ite_eq_iff, reduceCtorEq, and_false, false_or] at h
  obtain ⟨hzero, hmany, htimeout, hschema, hrules, hquay, hassignment, hboth, hextensions, hall⟩ := h
  intro hfault
  cases hfault with
  | noThreads hthreads => exact hzero hthreads
  | tooManyThreads hthreads hcount =>
    rw [hthreads] at hmany
    exact hmany (decide_eq_true hcount)
  | noTimeout hnone => exact htimeout hnone
  | noSchema hblank => exact hschema ((trimmed_eq_empty_iff _).mpr hblank)
  | noRules hnone => exact hrules (List.isEmpty_iff.mpr hnone)
  | quayDistance hbad =>
    rw [Bool.not_eq_true', isDistance_eq_false_iff] at hquay
    exact hquay hbad
  | assignmentDistance hbad =>
    rw [Bool.not_eq_true', isDistance_eq_false_iff] at hassignment
    exact hassignment hbad
  | verboseAndQuiet hverbose hquiet => exact hboth (Bool.and_eq_true_iff.mpr ⟨hverbose, hquiet⟩)
  | noExtensions hnone => exact hextensions (List.isEmpty_iff.mpr hnone)
  | extension htext hc hmark =>
    rw [Option.map_eq_none_iff, List.find?_eq_none] at hall
    have hgood := hall _ htext
    rw [Bool.not_eq_true', isExtension_eq_false_iff] at hgood
    exact hgood ⟨_, hc, hmark⟩

theorem validated_eq_ok_iff {s t : Settings} :
    s.validated = .ok t ↔ t = s ∧ ∀ fault, ¬ s.Violates fault := by
  unfold validated
  cases h : s.firstInvalid? with
  | none => simp [not_violates_of_firstInvalid? h, eq_comm]
  | some fault =>
    simp only [reduceCtorEq, false_iff, not_and, not_forall, not_not]
    exact fun _ => ⟨fault, violates_of_firstInvalid? h⟩

theorem exists_violates_of_validated {s : Settings} {e : SettingsError}
    (h : s.validated = .error e) : ∃ fault, s.Violates fault ∧ e = .invalid fault.message := by
  unfold validated at h
  cases hfault : s.firstInvalid? with
  | none =>
    rw [hfault] at h
    cases h
  | some fault =>
    rw [hfault] at h
    cases h
    exact ⟨fault, violates_of_firstInvalid? hfault, rfl⟩

/-! Loading settings -/

section Loading

variable {fs : FileSystem} {userDirectory : Option String} {env : Environment} {c : CommandLine}
  {file s : Settings}

theorem load_eq (hfile : ofFiles fs userDirectory c.config = .ok file) :
    load fs userDirectory env c = (do
      let fromEnvironment ← env.layer
      ((SettingsLayer.ofCommandLine c).applyTo (fromEnvironment.applyTo file)).validated) := by
  rw [load, hfile]
  rfl

theorem load_eq_ok_iff (hfile : ofFiles fs userDirectory c.config = .ok file) :
    load fs userDirectory env c = .ok s ↔ (∀ v, ¬ env.Malformed v) ∧
      s = file.merged env c ∧ ∀ fault, ¬ (file.merged env c).Violates fault := by
  rw [load_eq hfile, bind_eq_ok_iff]
  simp only [Environment.layer_eq_ok_iff]
  constructor
  · rintro ⟨_, ⟨hread, rfl⟩, h⟩
    rw [applyTo_applyTo_eq_merged, validated_eq_ok_iff] at h
    exact ⟨hread, h⟩
  · rintro ⟨hread, h⟩
    refine ⟨env.values, ⟨hread, rfl⟩, ?_⟩
    rw [applyTo_applyTo_eq_merged, validated_eq_ok_iff]
    exact h

theorem cause_of_load_eq_error (hfile : ofFiles fs userDirectory c.config = .ok file)
    {e : SettingsError} (h : load fs userDirectory env c = .error e) :
    env.Blames e ∨ (∀ v, ¬ env.Malformed v) ∧
      ∃ fault, (file.merged env c).Violates fault ∧ e = .invalid fault.message := by
  rw [load_eq hfile, bind_eq_error_iff] at h
  rcases h with h | ⟨l, hl, h⟩
  · exact .inl (Environment.blames_of_layer_eq_error h)
  · obtain ⟨hread, rfl⟩ := Environment.layer_eq_ok_iff.mp hl
    rw [applyTo_applyTo_eq_merged] at h
    exact .inr ⟨hread, exists_violates_of_validated h⟩

/-- From a file that can be read, or from the defaults, the settings that the three say together are
loaded. This fails just when some variable is malformed, whatever the command line says, or
something in these settings cannot be used; the error tells which. -/
theorem load_merges_layers (fs : FileSystem) (userDirectory : Option String) (env : Environment)
    (c : CommandLine) (file : Settings) (hfile : ofFiles fs userDirectory c.config = .ok file) :
    (∀ s, load fs userDirectory env c = .ok s → s = file.merged env c) ∧
    ((∃ e, load fs userDirectory env c = .error e) ↔
      (∃ v, env.Malformed v) ∨ ∃ fault, (file.merged env c).Violates fault) ∧
    ∀ e, load fs userDirectory env c = .error e →
      (∃ v reason, env.Malformed v ∧ e = Environment.invalid v.name reason) ∨
      (∀ v, ¬ env.Malformed v) ∧
        ∃ fault, (file.merged env c).Violates fault ∧ e = .invalid fault.message := by
  refine ⟨fun s hs => ((load_eq_ok_iff hfile).mp hs).2.1, ?_, fun e => cause_of_load_eq_error hfile⟩
  constructor
  · rintro ⟨e, he⟩
    rcases cause_of_load_eq_error hfile he with ⟨v, -, hv, -⟩ | ⟨-, fault, hfault, -⟩
    · exact .inl ⟨v, hv⟩
    · exact .inr ⟨fault, hfault⟩
  · intro h
    cases hload : load fs userDirectory env c with
    | error e => exact ⟨e, rfl⟩
    | ok s =>
      obtain ⟨hread, -, hnone⟩ := (load_eq_ok_iff hfile).mp hload
      rcases h with ⟨v, hv⟩ | ⟨fault, hfault⟩
      · exact absurd hv (hread v)
      · exact absurd hfault (hnone fault)

/-- An empty working directory. -/
def emptyDirectory : FileSystem :=
  ⟨.directory [], []⟩

theorem ofFiles_emptyDirectory : ofFiles emptyDirectory none none = .ok default := by
  have hmissing (path : String) (hpath : path ∈ fileNames) :
      emptyDirectory.pathExists path = false := by
    have hresolve : emptyDirectory.resolve path = .error .notFound := by
      rcases List.mem_pair.mp hpath with rfl | rfl
      · rw [FileSystem.resolve_of_relative rfl (by decide) (by decide) (by decide)
          (by with_unfolding_all rfl) (by with_unfolding_all rfl :
            PathName.segments "netex-integrity.toml" = ["netex-integrity.toml"]),
          FileSystem.follow_missing _ _ rfl (by decide) (by decide) rfl]
      · rw [FileSystem.resolve_of_relative rfl (by decide) (by decide) (by decide)
          (by with_unfolding_all rfl) (by with_unfolding_all rfl :
            PathName.segments "netex-integrity.json" = ["netex-integrity.json"]),
          FileSystem.follow_missing _ _ rfl (by decide) (by decide) rfl]
    rw [FileSystem.pathExists, hresolve]
    rfl
  have hnone : (candidates none).find? emptyDirectory.pathExists = none := by
    rw [List.find?_eq_none]
    intro path hpath
    rw [candidates, List.append_nil] at hpath
    rw [hmissing path hpath]
    exact Bool.false_ne_true
  rw [ofFiles, Option.orElse_eq_orElse, Option.orElse_none, hnone]

/-- A command line with two threads and more to be told. -/
def twoThreads : CommandLine :=
  ⟨".", none, [], some 2, none, none, none, none, [], [], false, none, none, none, true, false⟩

/-- Variables that can be read. -/
def readableVariables : Environment :=
  [("NETEX_INTEGRITY_THREADS", " 8 "), ("NETEX_INTEGRITY_TIMEOUT", "5"),
    ("NETEX_INTEGRITY_QUIET", "true")]

theorem readableVariables_not_malformed (v : Variable) : ¬ readableVariables.Malformed v := by
  rintro ⟨text, hset, hread⟩
  have hnone : (readableVariables.lookup (Environment.fullName v.name)).all
      (fun text => (v.read? text).isSome) = true := by
    cases v <;> decide +kernel
  rw [hset] at hnone
  simp [hread] at hnone

/-- It overrides variables, but not one that is malformed. -/
theorem load_merges_layers_of_two_threads :
    (∃ e, load emptyDirectory none [("NETEX_INTEGRITY_THREADS", "many")] twoThreads = .error e) ∧
      ∃ s, load emptyDirectory none readableVariables twoThreads = .ok s ∧
        s.check.threads = some 2 ∧ s.check.timeoutSeconds = 5 ∧ s.output.quiet = false := by
  constructor
  · obtain ⟨-, hfails, -⟩ := load_merges_layers emptyDirectory none
      [("NETEX_INTEGRITY_THREADS", "many")] twoThreads default ofFiles_emptyDirectory
    exact hfails.mpr (.inl ⟨.threads, "many", by decide +kernel, by decide +kernel⟩)
  · obtain ⟨hmerged, hfails, -⟩ := load_merges_layers emptyDirectory none readableVariables
      twoThreads default ofFiles_emptyDirectory
    have hvalid : (default.merged readableVariables twoThreads).firstInvalid? = none := by
      rw [← Option.isNone_iff_eq_none]
      decide +kernel
    cases hload : load emptyDirectory none readableVariables twoThreads with
    | error e =>
      rcases hfails.mp ⟨e, hload⟩ with ⟨v, hv⟩ | ⟨fault, hfault⟩
      · exact absurd hv (readableVariables_not_malformed v)
      · exact absurd hfault (not_violates_of_firstInvalid? hvalid fault)
    | ok s =>
      rw [hmerged s hload]
      exact ⟨_, rfl, rfl, by decide +kernel, rfl⟩

end Loading

end Settings

end TransitAudit
