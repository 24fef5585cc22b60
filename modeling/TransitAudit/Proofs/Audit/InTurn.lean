import TransitAudit.Proofs.Audit.Schedule

/-! Checking files one after another is a run in which each task does all it has to before the next
one enters. So every list of files has a complete run, with any number of permits. -/
namespace TransitAudit.ScheduledRun

variable {c : AuditConfig} {s : ScheduledRun} {i free : Nat} {path : String} {phase : TaskPhase}
  {halted : Bool} {loader : SchemaLoader} {result : FileResult} {events : List RunEvent}

/-! One task by itself -/

/-- A run in which only the task of the file at a position acts. -/
def alone (s : ScheduledRun) (i : Nat) (phase : TaskPhase) (free : Nat) (halted : Bool)
    (loader : SchemaLoader) : ScheduledRun :=
  ⟨s.paths, s.phases.set i phase, free, halted, loader, s.fs⟩

theorem advanceAll?_alone_cons {action : TaskAction} (hpath : s.paths[i]? = some path)
    (hi : i < s.phases.length) :
    (s.alone i phase free halted loader).advanceAll? c (.task i action :: events) =
      ((s.alone i phase free halted loader).act? c i path action phase).bind
        fun t => t.advanceAll? c events := by
  have hphase : (s.alone i phase free halted loader).phases[i]? = some phase :=
    List.getElem?_set_self hi
  rw [advanceAll?, advance?, hphase]
  simp only [alone, hpath]

/-- What the check of a file gives and leaves loaded. -/
theorem exists_run_check (hpath : s.paths[i]? = some path) (hi : i < s.phases.length) :
    ∃ events, (s.alone i .reading free halted loader).advanceAll? c events =
      some (s.alone i (.checked (c.checkFile s.fs loader path).1) free halted
        (c.checkFile s.fs loader path).2) := by
  cases hsource : Source.read s.fs path with
  | error e =>
    refine ⟨[.task i .read], ?_⟩
    rw [advanceAll?_alone_cons hpath hi]
    simp [act?, setPhase, alone, hsource, advanceAll?, AuditConfig.checkFile, Workers.checkFile]
  | ok source =>
    have hread : (s.alone i .reading free halted loader).act? c i path .read .reading =
        some (s.alone i (.loading source) free halted loader) := by
      simp [act?, setPhase, alone, hsource]
    cases hloaded : c.inputs s.fs loader with
    | mk found next =>
      have hchecked : c.checkFile s.fs loader path =
          (c.conclude path source (found >>= Rule.run c.limits source c.rules), next) := by
        simp only [AuditConfig.checkFile, Workers.checkFile, Workers.checkLoaded,
          Workers.runRules, hsource, hloaded]
        rfl
      rw [hchecked]
      cases found with
      | error e =>
        refine ⟨[.task i .read, .task i .load], ?_⟩
        rw [advanceAll?_alone_cons hpath hi, hread, Option.bind_some,
          advanceAll?_alone_cons hpath hi]
        simp [act?, setPhase, alone, hloaded, advanceAll?]
        rfl
      | ok inputs =>
        have hload : (s.alone i (.loading source) free halted loader).act? c i path .load
            (.loading source) = some (s.alone i (.running source inputs) free halted next) := by
          simp [act?, setPhase, alone, hloaded]
        refine ⟨[.task i .read, .task i .load, .task i (.run .one)], ?_⟩
        rw [advanceAll?_alone_cons hpath hi, hread, Option.bind_some,
          advanceAll?_alone_cons hpath hi, hload, Option.bind_some,
          advanceAll?_alone_cons hpath hi]
        simp only [act?, AuditConfig.allows_one, if_true, Option.bind_some, advanceAll?]
        simp [setPhase, alone]
        rfl

theorem advanceAll?_alone_enter (hpath : s.paths[i]? = some path) (hi : i < s.phases.length) :
    (s.alone i .waiting (free + 1) halted loader).advanceAll? c [.task i .enter, .task i .look] =
      some (s.alone i (if halted then .decided (.skipped path AuditConfig.skipReason) else .reading)
        free halted loader) := by
  have henter : (s.alone i .waiting (free + 1) halted loader).act? c i path .enter .waiting =
      some (s.alone i .admitted free halted loader) := by
    simp [act?, setPhase, alone]
  rw [advanceAll?_alone_cons hpath hi, henter, Option.bind_some, advanceAll?_alone_cons hpath hi]
  simp [act?, setPhase, alone, advanceAll?]
  rfl

theorem advanceAll?_alone_release (hpath : s.paths[i]? = some path) (hi : i < s.phases.length) :
    (s.alone i (.decided result) free halted loader).advanceAll? c [.task i .release] =
      some (s.alone i (.ended result) (free + 1) halted loader) := by
  rw [advanceAll?_alone_cons hpath hi]
  simp [act?, setPhase, alone, advanceAll?]

theorem advanceAll?_alone_store (hpath : s.paths[i]? = some path) (hi : i < s.phases.length) :
    (s.alone i (.checked result) free false loader).advanceAll? c
        [.task i .store, .task i .release] =
      some (s.alone i (.ended result) (free + 1) (c.failFast && !result.status.isValid)
        loader) := by
  have hstore : (s.alone i (.checked result) free false loader).act? c i path .store
      (.checked result) = some (s.alone i (.decided result) free
        (c.failFast && !result.status.isValid) loader) := by
    simp [act?, setPhase, alone]
  rw [advanceAll?_alone_cons hpath hi, hstore, Option.bind_some,
    advanceAll?_alone_release hpath hi]

/-- What a file gives and leaves behind when its turn has come. -/
theorem exists_run_step (hpath : s.paths[i]? = some path) (hi : i < s.phases.length) :
    ∃ events, (s.alone i .waiting (free + 1) halted loader).advanceAll? c events =
      some (s.alone i (.ended (c.step s.fs ⟨loader, halted⟩ path).1) (free + 1)
        (c.step s.fs ⟨loader, halted⟩ path).2.halted
        (c.step s.fs ⟨loader, halted⟩ path).2.loader) := by
  have henter := @advanceAll?_alone_enter c s i free path halted loader hpath hi
  cases halted with
  | true =>
    refine ⟨[.task i .enter, .task i .look] ++ [.task i .release], ?_⟩
    rw [advanceAll?_append, henter]
    exact advanceAll?_alone_release hpath hi
  | false =>
    obtain ⟨events, hcheck⟩ := @exists_run_check c s i free path false loader hpath hi
    refine ⟨[.task i .enter, .task i .look] ++ (events ++ [.task i .store, .task i .release]), ?_⟩
    exact advanceAll?_append_eq_some.mpr ⟨_, henter,
      advanceAll?_append_eq_some.mpr ⟨_, hcheck, advanceAll?_alone_store hpath hi⟩⟩

/-! All files in turn -/

variable {fs : FileSystem} {rest : List String}

/-- A run in which the files at the front are done and the others wait. -/
def inTurn (fs : FileSystem) (before rest : List String) (done : List FileResult) (free : Nat)
    (halted : Bool) (loader : SchemaLoader) : ScheduledRun :=
  ⟨before ++ rest, done.map .ended ++ rest.map fun _ => .waiting, free, halted, loader, fs⟩

theorem exists_run_checkFrom {before : List String} {done : List FileResult}
    (hlength : before.length = done.length) :
    ∃ events t, (inTurn fs before rest done (free + 1) halted loader).advanceAll? c events =
      some t ∧ t.results? = some (done ++ c.checkFrom fs ⟨loader, halted⟩ rest) := by
  induction rest generalizing before done halted loader with
  | nil =>
    refine ⟨[], _, rfl, results?_eq_some_iff.mpr ?_⟩
    simp [inTurn, AuditConfig.checkFrom]
  | cons path rest ih =>
    have hpath : (inTurn fs before (path :: rest) done (free + 1) halted
        loader).paths[done.length]? = some path := by
      simp [inTurn, ← hlength]
    have hi : done.length <
        (inTurn fs before (path :: rest) done (free + 1) halted loader).phases.length := by
      simp [inTurn]
    obtain ⟨events, hstep⟩ := @exists_run_step c _ _ free path halted loader hpath hi
    -- the task was waiting, and the next file is the first that waits then
    have hnow : (inTurn fs before (path :: rest) done (free + 1) halted loader).alone done.length
        .waiting (free + 1) halted loader =
          inTurn fs before (path :: rest) done (free + 1) halted loader := by
      simp [inTurn, alone]
    have hthen : ∀ result halted' loader',
        (inTurn fs before (path :: rest) done (free + 1) halted loader).alone done.length
          (.ended result) (free + 1) halted' loader' =
        inTurn fs (before ++ [path]) rest (done ++ [result]) (free + 1) halted' loader' := by
      intro result halted' loader'
      simp [inTurn, alone]
    rw [hnow, hthen] at hstep
    obtain ⟨later, t, hlater, hresults⟩ := @ih _ _ (before ++ [path]) (done ++ [_])
      (by simp [hlength])
    refine ⟨events ++ later, t, advanceAll?_append_eq_some.mpr ⟨_, hstep, hlater⟩, ?_⟩
    rw [hresults, List.append_assoc]
    rfl

/-- Whatever the number of permits, checking the files in turn is a complete run. -/
theorem exists_run_checkFiles (c : AuditConfig) (permits : Nat) (fs : FileSystem)
    (loader : SchemaLoader) (paths : List String) :
    ∃ events s, (start permits fs loader paths).advanceAll? c events = some s ∧
      s.results? = some (c.checkFiles fs loader paths) := by
  obtain ⟨events, s, hrun, hresults⟩ := @exists_run_checkFrom c (max permits 1 - 1) false loader fs
    paths [] [] rfl
  refine ⟨events, s, ?_, hresults⟩
  have hpermits : max permits 1 - 1 + 1 = max permits 1 := by omega
  rw [hpermits] at hrun
  exact hrun

end TransitAudit.ScheduledRun
