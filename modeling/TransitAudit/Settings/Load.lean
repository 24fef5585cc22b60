import TransitAudit.Json.Read
import TransitAudit.Settings.Layer
import TransitAudit.Settings.Record
import TransitAudit.Settings.Validity
import TransitAudit.Toml.Read

/-!
Putting settings together: a file or the defaults, over them the environment, and over that the
command line. A settings file is named on the command line or else looked for in the working
directory and then in the user's directory.
-/

namespace TransitAudit

namespace Settings

def ofToml (text : String) : Except SettingsError Settings :=
  match (Toml.parse text).toOption.bind fun t => ofValue? .toml (Toml.Value.table t).data with
  | some s => .ok s
  | none => .error (.toml "no settings")

def ofJson (text : String) : Except SettingsError Settings :=
  match (Json.parse text).toOption.bind (ofValue? .json) with
  | some s => .ok s
  | none => .error (.json "no settings")

/-- Reads the text of a file by the extension of its name; without one it is TOML or else JSON. -/
def ofText (extension : Option String) (text : String) : Except SettingsError Settings :=
  match extension with
  | some "toml" => ofToml text
  | some "json" => ofJson text
  | some other => .error (.unsupportedFormat other)
  | none =>
    match ofToml text with
    | .ok s => .ok s
    | .error _ => ofJson text

def ofFile (fs : FileSystem) (path : String) : Except SettingsError Settings :=
  match fs.readText path with
  | .ok text => ofText (PathName.extension? path) text
  | .error e => .error (.io e.message)

/-- The names of settings files. -/
def fileNames : List String :=
  ["netex-integrity.toml", "netex-integrity.json"]

/-- Where settings files are looked for. -/
def candidates (userDirectory : Option String) : List String :=
  fileNames ++ match userDirectory with
    | some d => fileNames.map (PathName.join (PathName.join d "netex-integrity"))
    | none => []

/-- The settings of the file that is named, or of the first that is there. -/
def ofFiles (fs : FileSystem) (userDirectory named : Option String) :
    Except SettingsError Settings :=
  match named <|> (candidates userDirectory).find? fs.pathExists with
  | some path => ofFile fs path
  | none => .ok default

/-- The settings of a run. -/
def load (fs : FileSystem) (userDirectory : Option String) (env : Environment) (c : CommandLine) :
    Except SettingsError Settings := do
  let s ← ofFiles fs userDirectory c.config
  let fromEnvironment ← env.layer
  ((SettingsLayer.ofCommandLine c).applyTo (fromEnvironment.applyTo s)).validated

end Settings

end TransitAudit
