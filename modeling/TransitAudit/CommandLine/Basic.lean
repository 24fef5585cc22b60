import TransitAudit.Files.Resolve
import TransitAudit.Report.Format
import TransitAudit.Rule.Basic

/-!
What can be given on the command line: a path and options, some with a value and some that can be
repeated.
-/

namespace TransitAudit

inductive Argument where
  | path
  | schema
  | rule
  | threads
  | format
  | config
  | schemaDirectory
  | extensions
  | includePattern
  | excludePattern
  | failFast
  | timeout
  | maxDistance
  | maxAssignmentDistance
  | verbose
  | quiet
  | help
  | version
deriving DecidableEq, Repr

namespace Argument

/-- The options with their long names. -/
def longNames : List (String × Argument) :=
  [("schema", .schema), ("rule", .rule), ("threads", .threads), ("format", .format),
    ("config", .config), ("schema-dir", .schemaDirectory), ("extensions", .extensions),
    ("include", .includePattern), ("exclude", .excludePattern), ("fail-fast", .failFast),
    ("timeout", .timeout), ("max-distance", .maxDistance),
    ("max-assignment-distance", .maxAssignmentDistance), ("verbose", .verbose),
    ("quiet", .quiet), ("help", .help), ("version", .version)]

/-- The options with their letters. -/
def letters : List (Char × Argument) :=
  [('s', .schema), ('r', .rule), ('t', .threads), ('f', .format), ('c', .config),
    ('e', .extensions), ('v', .verbose), ('q', .quiet), ('h', .help), ('V', .version)]

def takesValue : Argument → Bool
  | .failFast => false
  | .verbose => false
  | .quiet => false
  | .help => false
  | .version => false
  | _ => true

end Argument

/-- What was given; a list is empty and a flag off where nothing was. -/
structure CommandLine where
  path : String
  schema : Option String
  rules : List Rule
  threads : Option Nat
  format : Option OutputFormat
  config : Option String
  schemaDirectory : Option String
  extensions : Option String
  includePatterns : List String
  excludePatterns : List String
  failFast : Bool
  timeout : Option Nat
  maxDistance : Option Float
  maxAssignmentDistance : Option Float
  verbose : Bool
  quiet : Bool

/-- Why no command line could be read. -/
inductive CommandFault where
  | missingArgument
  | unknownArgument
  | invalidValue
  | malformedValue
  | conflict
  | tooManyValues
  | helpAsked
  | versionAsked
deriving DecidableEq, Repr

def CommandFault.message : CommandFault → String
  | .missingArgument => "a path to validate has to be given"
  | .unknownArgument => "there is an argument that is not known"
  | .invalidValue => "an option has no value or none of those it may have"
  | .malformedValue => "the value of an option is no number"
  | .conflict => "an option is given twice, or two options exclude each other"
  | .tooManyValues => "an option has a value that takes none"
  | .helpAsked => "Usage: netex-integrity [OPTIONS] <PATH>"
  | .versionAsked => "netex-integrity 0.1.0"

namespace CommandLine

/-- The extensions as a list, if any were given. -/
def extensionList (c : CommandLine) : Option (List String) :=
  c.extensions.map Text.commaList

def verbosity (c : CommandLine) : Verbosity :=
  .ofFlags c.verbose c.quiet

/-- Checks what can be checked before any setting is read: the path has to exist, and there have to
be threads. -/
def validate (c : CommandLine) (fs : FileSystem) : Except String Unit :=
  if !fs.pathExists c.path then .error s!"Path does not exist: {c.path}"
  else if c.threads = some 0 then .error "Number of threads must be greater than 0"
  else .ok ()

end CommandLine

end TransitAudit
