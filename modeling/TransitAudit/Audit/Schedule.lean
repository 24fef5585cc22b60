import TransitAudit.Audit.Engine

/-!
Checking files side by side. Every file has a task of its own; a task needs one of a number of
permits, looks once whether the run has been halted, checks its file, halts the run if it fails
fast and its file is not valid, and gives its permit back. A check reads the file, loads the
schema's part and runs the rules, unless its time is up before it is done. Tasks may do these in
any order among each other, and files and loaded schemas may change in between. All files share
their workers, so how these get ahead in the batches of a file depends on the whole run. Checking
files one after another with one worker is the order in which each task ends before the next one
begins.
-/

namespace TransitAudit

/-- How far the task of a file has come. -/
inductive TaskPhase where
  | waiting
  | admitted
  | reading
  | loading (source : Source)
  | running (source : Source) (inputs : RuleInputs)
  | checked (result : FileResult)
  | decided (result : FileResult)
  | ended (result : FileResult)

namespace TaskPhase

/-- The check of the file has begun and is not done. -/
def isChecking : TaskPhase → Bool
  | .reading => true
  | .loading _ => true
  | .running _ _ => true
  | .waiting => false
  | .admitted => false
  | .checked _ => false
  | .decided _ => false
  | .ended _ => false

/-- The outcome for the file, once the run has been told about it. -/
def outcome? : TaskPhase → Option FileResult
  | .decided result => some result
  | .ended result => some result
  | .waiting => none
  | .admitted => none
  | .reading => none
  | .loading _ => none
  | .running _ _ => none
  | .checked _ => none

/-- The outcome for the file, once the task has ended. -/
def result? : TaskPhase → Option FileResult
  | .ended result => some result
  | _ => none

end TaskPhase

/-- What a task does next. -/
inductive TaskAction where
  | enter
  | look
  | read
  | load
  | run (workers : Workers)
  | expire
  | store
  | release
deriving DecidableEq, Repr

/-- The task of the file at a position acts, or others change files and load schemas. -/
inductive RunEvent where
  | task (position : Nat) (action : TaskAction)
  | change (fs : FileSystem) (loader : SchemaLoader)

/-- A run over files with as many permits as are free. -/
structure ScheduledRun where
  paths : List String
  phases : List TaskPhase
  free : Nat
  halted : Bool
  loader : SchemaLoader
  fs : FileSystem

namespace ScheduledRun

/-- A run that is about to begin; there is always a permit. -/
def start (permits : Nat) (fs : FileSystem) (loader : SchemaLoader) (paths : List String) :
    ScheduledRun :=
  ⟨paths, paths.map fun _ => .waiting, max permits 1, false, loader, fs⟩

def setPhase (s : ScheduledRun) (position : Nat) (phase : TaskPhase) : ScheduledRun :=
  { s with phases := s.phases.set position phase }

/-- The run after the task of the file at a position and a path has acted; the action must be one
that the task can do next. -/
def act? (c : AuditConfig) (s : ScheduledRun) (position : Nat) (path : String) :
    TaskAction → TaskPhase → Option ScheduledRun
  | .enter, .waiting =>
    if s.free = 0 then none else some { s.setPhase position .admitted with free := s.free - 1 }
  | .look, .admitted =>
    some (s.setPhase position
      (if s.halted then .decided (.skipped path AuditConfig.skipReason) else .reading))
  | .read, .reading =>
    some (s.setPhase position
      (match Source.read s.fs path with
      | .ok source => .loading source
      | .error e => .checked (AuditConfig.unreadable path e)))
  | .load, .loading source =>
    let (inputs, loader) := c.inputs s.fs s.loader
    some { s.setPhase position
        (match inputs with
        | .ok inputs => .running source inputs
        | .error e => .checked (.failed path e .zero)) with loader }
  | .run w, .running source inputs =>
    if c.allows w then
      some (s.setPhase position
        (.checked (c.conclude path source (w.run c.limits source c.rules inputs))))
    else none
  | .expire, phase =>
    if phase.isChecking then some (s.setPhase position (.checked (c.expired path))) else none
  | .store, .checked result =>
    some { s.setPhase position (.decided result) with
      halted := s.halted || (c.failFast && !result.status.isValid) }
  | .release, .decided result =>
    some { s.setPhase position (.ended result) with free := s.free + 1 }
  | _, _ => none

/-- The run after an event, which must be possible. -/
def advance? (c : AuditConfig) (s : ScheduledRun) : RunEvent → Option ScheduledRun
  | .task position action =>
    match s.paths[position]?, s.phases[position]? with
    | some path, some phase => s.act? c position path action phase
    | _, _ => none
  | .change fs loader => some { s with fs, loader }

/-- The run after events in order, all of which must be possible. -/
def advanceAll? (c : AuditConfig) (s : ScheduledRun) : List RunEvent → Option ScheduledRun
  | [] => some s
  | e :: es => (s.advance? c e).bind fun t => advanceAll? c t es

/-- The outcome for the file at a position, once the run has been told about it. -/
def outcomeAt? (s : ScheduledRun) (position : Nat) : Option FileResult :=
  s.phases[position]?.bind (·.outcome?)

/-- The outcomes of all files in order, once all tasks have ended. -/
def results? (s : ScheduledRun) : Option (List FileResult) :=
  s.phases.mapM (·.result?)

end ScheduledRun

end TransitAudit
