import Std.Time.DateTime.Timestamp
import TransitAudit.Program

/-!
The program. It reads the files that a run may ask for, measures time and prints; what a run does
with them is decided elsewhere.
-/

namespace TransitAudit

/-- Reads what is at a path; what cannot be read is not there. Links are kept as links to where
they lead. -/
partial def readEntry (path : String) : IO (Option FileEntry) :=
  try
    let location ← IO.FS.realPath path
    match (← location.metadata).type with
    | .dir =>
      let entries ← (← location.readDir).toList.filterMapM fun e => do
        let linked := (← e.path.symlinkMetadata).type == .symlink
        let path := e.path.toString
        let entry ← if linked then some <$> readLink path else readEntry path
        return entry.map (e.fileName, ·)
      return some (.directory entries)
    | _ => return some (.file (← IO.FS.readBinFile location))
  catch _ => return none
where
  readLink (path : String) : IO FileEntry := do
    return .link (← (do return (← IO.FS.realPath path).toString) <|> pure path)

/-- The targets of the links in a tree. -/
partial def linkTargets : FileEntry → List String
  | .link target => [target]
  | .file _ => []
  | .directory entries => entries.flatMap fun e => linkTargets e.2

/-- The names that lead from the root to a path. -/
def locationOf (working : List String) (path : String) : List String :=
  (PathName.parts path).foldl (fun names p =>
    match p with
    | .root => []
    | .current => names
    | .parent => names.dropLast
    | .name n => names ++ [n]) working

/-- Adds what is at paths to a tree, and what links in it lead to. -/
partial def addPaths (fs : FileSystem) (added : List (List String)) :
    List String → IO FileSystem
  | [] => return fs
  | path :: rest => do
    let location := locationOf fs.working path
    if added.contains location then addPaths fs added rest
    else
      match ← readEntry path with
      | none => addPaths fs (location :: added) rest
      | some e =>
        let fs := { fs with root := fs.root.insert e location }
        addPaths fs (location :: added) (rest ++ linkTargets e)

/-- The variables that settings can come from. -/
def readEnvironment : IO Environment := do
  let names := ["THREADS", "FAIL_FAST", "TIMEOUT", "SCHEMA", "SCHEMA_DIR", "RULES", "MAX_DISTANCE",
    "MAX_ASSIGNMENT_DISTANCE", "VERBOSE", "QUIET", "FORMAT", "EXTENSIONS"]
  let found ← names.mapM fun name => do
    return (← IO.getEnv (Environment.fullName name)).map fun v => (Environment.fullName name, v)
  return found.filterMap id

/-- The directory for the user's settings. -/
def findUserDirectory : IO (Option String) := do
  match ← IO.getEnv "XDG_CONFIG_HOME" with
  | some d => if PathName.isAbsolute d then return some d
  | none => pure ()
  return (← IO.getEnv "HOME").map (PathName.join · ".config")

def readClock : IO Timestamp := do
  let t := (← Std.Time.Timestamp.now).toNanosecondsSinceUnixEpoch.val
  return ⟨t.fdiv 1000000000, (t.fmod 1000000000).toNat⟩

/-- Checks documents one after another and measures how long each takes. -/
def checkMeasured (r : PreparedRun) (fs : FileSystem) : IO (List FileResult) := do
  let mut progress : AuditConfig.Progress := ⟨.ofRegistry r.registry, false⟩
  let mut results := []
  for path in r.paths do
    let begun ← IO.monoNanosNow
    let (result, next) ← IO.lazyPure fun _ => r.config.step fs progress path
    let ended ← IO.monoNanosNow
    progress := next
    results := (if result.status.isSkipped then result
      else result.withDuration ⟨ended - begun⟩) :: results
  return results.reverse

/-- Runs the program on a command line. -/
def runProgram (arguments : List String) : IO Outcome := do
  let working := locationOf [] (← IO.currentDir).toString
  let userDirectory ← findUserDirectory
  let environment ← readEnvironment
  let named := match CommandLine.parse arguments with
    | .ok c => c.path :: c.config.toList
    | .error _ => []
  let empty : FileSystem := ⟨(FileEntry.directory []).makeDirectory working, working⟩
  let fs ← addPaths empty [] (named ++ Settings.candidates userDirectory)
  match PreparedRun.ofArguments ⟨fs, userDirectory, environment⟩ arguments with
  | .error o => return o
  | .ok r =>
    let fs ← addPaths fs [] (r.registry.resolve r.config.schema).toOption.toList
    let results ← checkMeasured r fs
    return r.report results (← (← IO.getStdout).isTty) (← readClock)

end TransitAudit

def main (arguments : List String) : IO UInt32 := do
  let o ← TransitAudit.runProgram arguments
  IO.print o.output
  for line in o.errors do
    IO.eprintln line
  return o.code.toUInt32
