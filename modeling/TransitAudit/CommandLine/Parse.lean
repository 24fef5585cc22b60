import TransitAudit.CommandLine.Basic
import TransitAudit.Decimal.Read

/-!
Reading a command line. What looks like an option is one, unless two dashes came before; the value
of an option is the rest of its argument or else the next argument. A value is looked at when the
next option or path comes, so that an unknown option is reported before a bad value.
-/

namespace TransitAudit

/-- What has been given so far. -/
structure Given where
  path : Option String
  schema : Option String
  rules : List Rule
  threads : Option Nat
  format : Option OutputFormat
  config : Option String
  schemaDirectory : Option String
  extensions : Option String
  includePatterns : List String
  excludePatterns : List String
  failFast : Bool
  timeout : Option Nat
  maxDistance : Option Float
  maxAssignmentDistance : Option Float
  verbose : Bool
  quiet : Bool

namespace Given

def nothing : Given :=
  { path := none, schema := none, rules := [], threads := none, format := none, config := none
    schemaDirectory := none, extensions := none, includePatterns := [], excludePatterns := []
    failFast := false, timeout := none, maxDistance := none, maxAssignmentDistance := none
    verbose := false, quiet := false }

/-- A value that is given for the first time. -/
def once {α : Type} (old : Option α) (new : Except CommandFault α) :
    Except CommandFault (Option α) :=
  if old.isSome then .error .conflict else new.map some

def flag (old : Bool) : Except CommandFault Bool :=
  if old then .error .conflict else .ok true

/-- Paths must not be empty. -/
def pathValue (value : String) : Except CommandFault String :=
  if value = "" then .error .invalidValue else .ok value

def chosen {α : Type} : Option α → Except CommandFault α
  | some a => .ok a
  | none => .error .invalidValue

def measured {α : Type} : Option α → Except CommandFault α
  | some a => .ok a
  | none => .error .malformedValue

/-- Whole numbers fit into 64 bits. -/
def numberLimit : Nat := Nat.pow 2 64

/-- Takes an option or the path with its value. -/
def take (g : Given) (a : Argument) (value : String) : Except CommandFault Given :=
  match a with
  | .path => do
    let path ← once g.path (pathValue value)
    return { g with path }
  | .schema => do return { g with schema := ← once g.schema (.ok value) }
  | .rule => do return { g with rules := g.rules ++ [← chosen (Rule.ofName? value)] }
  | .threads => do
    return { g with threads := ← once g.threads (measured (Decimal.readNat? numberLimit value)) }
  | .format => do return { g with format := ← once g.format (chosen (OutputFormat.ofName? value)) }
  | .config => do return { g with config := ← once g.config (pathValue value) }
  | .schemaDirectory => do
    return { g with schemaDirectory := ← once g.schemaDirectory (pathValue value) }
  | .extensions => do return { g with extensions := ← once g.extensions (.ok value) }
  | .includePattern => .ok { g with includePatterns := g.includePatterns ++ [value] }
  | .excludePattern => .ok { g with excludePatterns := g.excludePatterns ++ [value] }
  | .failFast => do return { g with failFast := ← flag g.failFast }
  | .timeout => do
    return { g with timeout := ← once g.timeout (measured (Decimal.readNat? numberLimit value)) }
  | .maxDistance => do
    return { g with maxDistance := ← once g.maxDistance (measured (Decimal.readFloat? value)) }
  | .maxAssignmentDistance => do
    let distance ← once g.maxAssignmentDistance (measured (Decimal.readFloat? value))
    return { g with maxAssignmentDistance := distance }
  | .verbose => do return { g with verbose := ← flag g.verbose }
  | .quiet => do return { g with quiet := ← flag g.quiet }
  | .help => .error .helpAsked
  | .version => .error .versionAsked

end Given

/-- The state of reading: what was taken, the argument whose value comes next or has not been
looked at, and whether options have ended. -/
structure CommandState where
  given : Given
  pending : Option (Argument × Option String)
  optionsEnded : Bool

namespace CommandState

def start : CommandState :=
  ⟨.nothing, none, false⟩

/-- Takes the pending argument, which needs a value by now. -/
def settle (s : CommandState) : Except CommandFault CommandState :=
  match s.pending with
  | none => .ok s
  | some (_, none) => .error .invalidValue
  | some (a, some value) => do return { s with given := ← s.given.take a value, pending := none }

/-- Takes an argument whose value is known or that has none. -/
def takeNow (s : CommandState) (a : Argument) (value : String) :
    Except CommandFault CommandState := do
  let s ← s.settle
  return { s with given := ← s.given.take a value }

/-- Leaves an argument to be taken later. -/
def await (s : CommandState) (a : Argument) (value : Option String) :
    Except CommandFault CommandState := do
  return { ← s.settle with pending := some (a, value) }

/-- The next argument is the value of an option. -/
def awaitsValue (s : CommandState) : Bool :=
  match s.pending with
  | some (_, none) => true
  | _ => false

/-- Reads an option by its long name, with a value behind an equals sign or without. -/
def readLong (s : CommandState) (name : List Char) : Except CommandFault CommandState :=
  let attached := name.dropWhile (· ≠ '=')
  match Argument.longNames.lookup (String.ofList (name.takeWhile (· ≠ '='))) with
  | none => .error .unknownArgument
  | some a =>
    match a.takesValue, attached with
    | true, [] => s.await a none
    | true, _ :: value => s.takeNow a (String.ofList value)
    | false, [] => s.takeNow a ""
    | false, _ :: _ => .error .tooManyValues

/-- Reads letters: flags, and an option whose value is the rest. -/
def readLetters (s : CommandState) : List Char → Except CommandFault CommandState
  | [] => .ok s
  | c :: rest =>
    match Argument.letters.lookup c with
    | none => .error .unknownArgument
    | some a =>
      if !a.takesValue then do readLetters (← s.takeNow a "") rest
      else match rest with
        | [] => s.await a none
        | '=' :: value => s.takeNow a (String.ofList value)
        | value => s.takeNow a (String.ofList value)

/-- Reads the path, of which there is one. -/
def readPath (s : CommandState) (text : String) : Except CommandFault CommandState :=
  let known := s.given.path.isSome || (s.pending.map (·.1)) = some .path
  if known then .error .unknownArgument else s.await .path (some text)

/-- Reads an argument that is no option. -/
def readPlain (s : CommandState) (text : String) : Except CommandFault CommandState :=
  if s.awaitsValue && !s.optionsEnded then
    .ok { s with pending := s.pending.map fun p => (p.1, some text) }
  else s.readPath text

def read (s : CommandState) (text : String) : Except CommandFault CommandState :=
  if s.optionsEnded then s.readPlain text
  else match text.toList with
    | ['-', '-'] => .ok { s with optionsEnded := true }
    | '-' :: '-' :: name => s.readLong name
    | ['-'] => s.readPlain text
    | '-' :: letters => s.readLetters letters
    | _ => s.readPlain text

def readAll (s : CommandState) : List String → Except CommandFault CommandState
  | [] => s.settle
  | text :: rest => do readAll (← s.read text) rest

end CommandState

namespace CommandLine

/-- The command line, once everything has been read. Being verbose and quiet at once conflicts. -/
def ofGiven (g : Given) : Except CommandFault CommandLine :=
  if g.verbose && g.quiet then .error .conflict
  else match g.path with
    | none => .error .missingArgument
    | some path =>
      .ok {
        path := path, schema := g.schema, rules := g.rules, threads := g.threads
        format := g.format, config := g.config, schemaDirectory := g.schemaDirectory
        extensions := g.extensions, includePatterns := g.includePatterns
        excludePatterns := g.excludePatterns, failFast := g.failFast, timeout := g.timeout
        maxDistance := g.maxDistance, maxAssignmentDistance := g.maxAssignmentDistance
        verbose := g.verbose, quiet := g.quiet }

/-- Reads the arguments after the program's name. -/
def parse (arguments : List String) : Except CommandFault CommandLine := do
  ofGiven (← CommandState.start.readAll arguments).given

end CommandLine

end TransitAudit
