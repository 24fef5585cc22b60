import TransitAudit.Error

/-!
Why no settings could be put together.
-/

namespace TransitAudit

inductive SettingsError where
  | io (details : String)
  | toml (details : String)
  | json (details : String)
  | invalid (details : String)
  | environment (details : String)
  | unsupportedFormat (extension : String)
deriving DecidableEq, Repr

namespace SettingsError

def message : SettingsError → String
  | .io details => s!"IO error: {details}"
  | .toml details => s!"TOML parsing error: {details}"
  | .json details => s!"JSON parsing error: {details}"
  | .invalid details => s!"Configuration validation error: {details}"
  | .environment details => s!"Environment variable error: {details}"
  | .unsupportedFormat extension => s!"Unsupported configuration file format: {extension}"

/-- The message followed by its cause, which is repeated where the message tells it already. -/
def chain (e : SettingsError) : String :=
  match e with
  | .io details => s!"{e.message}: {details}"
  | .toml details => s!"{e.message}: {details}"
  | .json details => s!"{e.message}: {details}"
  | _ => e.message

def toAuditError (e : SettingsError) : AuditError :=
  .config e.message

end SettingsError

end TransitAudit
