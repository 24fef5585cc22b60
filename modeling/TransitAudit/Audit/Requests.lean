import TransitAudit.Audit.Schedule

/-!
Checking files side by side, with the loader asked for one thing at a time. Loading the schema's
part for a file takes a request for the text of the schema, one for the constraints in it and one
for its grammar, and other tasks may act between them. A request that waits for the same load of
another task counts as made when that load is done.
-/

namespace TransitAudit

/-- How far the loading of the schema's part for a file has come. -/
inductive LoadPhase where
  | begun
  | read (source : SchemaSource)
  | constrained (constraints : Option ConstraintSet)

/-- Makes the next request of a loading, which may be the last. What no rule needs is not asked
for. -/
def AuditConfig.request (c : AuditConfig) (fs : FileSystem) (loader : SchemaLoader) :
    LoadPhase → (LoadPhase ⊕ Except AuditError RuleInputs) × SchemaLoader
  | .begun =>
    if c.rules.any (·.needsConstraints) then
      let (found, loader) := loader.source fs c.schema
      match found with
      | .ok source => (.inl (.read source), loader)
      | .error e => (.inr (.error e), loader)
    else (.inl (.constrained none), loader)
  | .read source =>
    let a := loader.constraintSets.getOrLoad c.schema fun _ => source.constraints
    let loader := { loader with constraintSets := a.cache }
    match a.answer with
    | .ok constraints => (.inl (.constrained (some constraints)), loader)
    | .error e => (.inr (.error e), loader)
  | .constrained constraints =>
    if c.rules.any (·.needsGrammar) then
      let (found, loader) := loader.grammar fs c.schema
      (.inr (found.map fun g => ⟨constraints, some g⟩), loader)
    else (.inr (.ok ⟨constraints, none⟩), loader)

/-- A run over files, and how far the loading for each file has come. -/
structure SharedRun extends ScheduledRun where
  loads : List LoadPhase

/-- The task of the file at a position makes a request or does anything else, or others change files
and load schemas. -/
inductive SharedEvent where
  | request (position : Nat)
  | task (position : Nat) (action : TaskAction)
  | change (fs : FileSystem) (loader : SchemaLoader)

namespace SharedRun

def start (permits : Nat) (fs : FileSystem) (loader : SchemaLoader) (paths : List String) :
    SharedRun :=
  ⟨.start permits fs loader paths, paths.map fun _ => .begun⟩

/-- The phase of a task that has got its inputs. -/
def supplied (path : String) (source : Source) : Except AuditError RuleInputs → TaskPhase
  | .ok inputs => .running source inputs
  | .error e => .checked (.failed path e .zero)

/-- The run after a request of the task of the file at a position and a path. -/
def request (c : AuditConfig) (s : SharedRun) (position : Nat) (path : String) (source : Source)
    (load : LoadPhase) : SharedRun :=
  match c.request s.fs s.loader load with
  | (.inl next, loader) => { s with loads := s.loads.set position next, loader }
  | (.inr inputs, loader) =>
    { s with phases := s.phases.set position (supplied path source inputs), loader }

/-- The run after an event, which must be possible. Requests take the place of the load at once. -/
def advance? (c : AuditConfig) (s : SharedRun) : SharedEvent → Option SharedRun
  | .request position =>
    match s.paths[position]?, s.phases[position]?, s.loads[position]? with
    | some path, some (.loading source), some load => some (s.request c position path source load)
    | _, _, _ => none
  | .task position action =>
    if action = .load then none
    else (s.toScheduledRun.advance? c (.task position action)).map fun run =>
      { s with toScheduledRun := run }
  | .change fs loader => some { s with fs, loader }

/-- The run after events in order, all of which must be possible. -/
def advanceAll? (c : AuditConfig) (s : SharedRun) : List SharedEvent → Option SharedRun
  | [] => some s
  | e :: es => (s.advance? c e).bind fun t => advanceAll? c t es

end SharedRun

end TransitAudit
