import TransitAudit.Decimal.Layout
import TransitAudit.Settings.Basic
import TransitAudit.Settings.Error

/-!
What is wrong with settings that cannot be used.
-/

namespace TransitAudit

inductive InvalidSetting where
  | noThreads
  | tooManyThreads
  | noTimeout
  | noSchema
  | noRules
  | quayDistance (value : Float)
  | assignmentDistance (value : Float)
  | verboseAndQuiet
  | noExtensions
  | extension (text : String)

namespace InvalidSetting

def distanceMessage (what : String) (value : Float) : String :=
  s!"{what} must be a positive number of metres, got {Decimal.plain value}"

def message : InvalidSetting → String
  | .noThreads => "Number of threads must be greater than 0"
  | .tooManyThreads => "Number of threads cannot exceed 1000"
  | .noTimeout => "Timeout must be greater than 0"
  | .noSchema => "A schema identifier must be specified"
  | .noRules => "At least one rule must be enabled"
  | .quayDistance value => distanceMessage "Quay distance" value
  | .assignmentDistance value => distanceMessage "Stop assignment distance" value
  | .verboseAndQuiet => "Cannot enable both verbose and quiet modes"
  | .noExtensions => "At least one file extension must be specified"
  | .extension text => s!"Invalid file extension: {text}"

end InvalidSetting

namespace Settings

def isDistance (x : Float) : Bool :=
  x.isFinite && !(x ≤ 0.0)

/-- Extensions have neither dots nor what separates directories. -/
def isExtension (text : String) : Bool :=
  text.toList.all fun c => c ≠ '/' && c ≠ '\\' && c ≠ '.'

/-- The first setting that cannot be used. -/
def firstInvalid? (s : Settings) : Option InvalidSetting :=
  if s.check.threads = some 0 then some .noThreads
  else if s.check.threads.any (1000 < ·) then some .tooManyThreads
  else if s.check.timeoutSeconds = 0 then some .noTimeout
  else if Text.trimmed s.check.schema = "" then some .noSchema
  else if s.rules.enabled.isEmpty then some .noRules
  else if !isDistance s.rules.limits.quay then some (.quayDistance s.rules.limits.quay)
  else if !isDistance s.rules.limits.assignment then
    some (.assignmentDistance s.rules.limits.assignment)
  else if s.output.verbose && s.output.quiet then some .verboseAndQuiet
  else if s.files.extensions.isEmpty then some .noExtensions
  else (s.files.extensions.find? (!isExtension ·)).map .extension

/-- The settings, if all of them can be used. -/
def validated (s : Settings) : Except SettingsError Settings :=
  match s.firstInvalid? with
  | none => .ok s
  | some e => .error (.invalid e.message)

end Settings

end TransitAudit
