import Mathlib.Algebra.BigOperators.Group.Finset.Basic
import Mathlib.Algebra.Order.BigOperators.Group.Finset
import TransitAudit.Proofs.Audit.Requests
import TransitAudit.Proofs.Audit.Schedule
import TransitAudit.Proofs.Rule.Run
import TransitAudit.Proofs.Schema.LoaderHistory

/-! Files do not influence each other. While files stay as they are, nothing halts the run and no
check runs out of time, a run can always be completed, and however its tasks act and make their
requests, the outcome for each file is one of checking it by itself with a new loader. There is one
such outcome, except where several tasks of a batch fail: then any of them may be told of, in a run
as well as for the file by itself. -/
namespace TransitAudit

variable {c : AuditConfig} {fs : FileSystem} {base loader : SchemaLoader} {path : String}
  {paths : List String} {permits : Nat}

/-! What one action does -/

namespace ScheduledRun

variable {s t : ScheduledRun} {i : Nat} {action : TaskAction}

/-- An action changes no file, and only a load asks the loader. -/
theorem frame_of_act? {phase : TaskPhase} (h : s.act? c i path action phase = some t) :
    t.fs = s.fs ∧ (action ≠ .load → t.loader = s.loader) := by
  unfold act? at h
  split at h
  -- the load; entering, the rules and running out of time, which have a guard; all other actions
  case h_4 =>
    cases h
    exact ⟨rfl, fun hload => absurd rfl hload⟩
  case h_1 | h_5 | h_6 =>
    split at h
    all_goals cases h
    all_goals exact ⟨rfl, fun _ => rfl⟩
  all_goals
    cases h
    try exact ⟨rfl, fun _ => rfl⟩

theorem frame_of_task (h : s.advance? c (.task i action) = some t) :
    t.fs = s.fs ∧ (action ≠ .load → t.loader = s.loader) := by
  rw [advance?] at h
  split at h
  · exact frame_of_act? h
  · cases h

end ScheduledRun

/-! Which workers run the rules -/

/-- The workers that may run the rules on the file at each position, all of which are possible. -/
structure Assignment (c : AuditConfig) where
  allowed : Nat → Workers → Prop
  possible : ∀ k w, allowed k w → c.allows w = true
  exists_allowed : ∀ k, ∃ w, allowed k w

namespace Assignment

/-- Any workers that are possible. -/
def any (c : AuditConfig) : Assignment c :=
  ⟨fun _ w => c.allows w = true, fun _ _ h => h, fun _ => ⟨.one, c.allows_one⟩⟩

/-- Certain workers for each position. -/
def fixed (ws : Nat → Workers) (h : ∀ k, c.allows (ws k) = true) : Assignment c :=
  ⟨fun k w => w = ws k, fun k _ hw => hw ▸ h k, fun k => ⟨ws k, rfl⟩⟩

end Assignment

/-- An outcome of checking the file at a path by itself with a new loader and some of the given
workers. -/
def CheckedBy (c : AuditConfig) (fs : FileSystem) (base : SchemaLoader) (allowed : Workers → Prop)
    (path : String) (result : FileResult) : Prop :=
  ∃ w, allowed w ∧ result = (w.checkFile c fs base.renewed path).1

namespace TaskPhase

/-- What a task has got for the file at a path is what checking it by itself gives. -/
def Fits (c : AuditConfig) (fs : FileSystem) (base : SchemaLoader) (allowed : Workers → Prop)
    (path : String) : TaskPhase → Prop
  | .waiting => True
  | .admitted => True
  | .reading => True
  | .loading source => Source.read fs path = .ok source
  | .running source inputs => Source.read fs path = .ok source ∧
      (c.inputs fs base.renewed).1 = .ok inputs
  | .checked result => CheckedBy c fs base allowed path result
  | .decided result => CheckedBy c fs base allowed path result
  | .ended result => CheckedBy c fs base allowed path result

end TaskPhase

theorem TaskMove.fits {s : ScheduledRun} {action : TaskAction} {phase next : TaskPhase}
    {allowed : Workers → Prop} (h : TaskMove c s path action phase next)
    (hhalted : s.halted = false) (hload : action ≠ .load) (hexpire : action ≠ .expire)
    (hsome : ∃ w, allowed w) (hrun : ∀ w, action = .run w → allowed w)
    (hphase : phase.Fits c s.fs base allowed path) : next.Fits c s.fs base allowed path := by
  cases h with
  | enter => trivial
  | begin => trivial
  | skip hskip =>
    -- a file is skipped only in a run that has been halted
    rw [hhalted] at hskip
    cases hskip
  | read hread => exact hread
  | unreadable hread =>
    obtain ⟨w, hw⟩ := hsome
    exact ⟨w, hw, by rw [Workers.checkFile_of_unreadable hread]⟩
  | load => exact absurd rfl hload
  | unloadable => exact absurd rfl hload
  | run =>
    obtain ⟨hread, hinputs⟩ := hphase
    refine ⟨_, hrun _ rfl, ?_⟩
    rw [Workers.checkFile_of_source hread, hinputs]
    rfl
  | expire => exact absurd rfl hexpire
  | store => exact hphase
  | release => exact hphase

/-! One event -/

/-- An event that changes no file, lets no time run out and leaves a loader that keeps nothing but
what a new one answers with. -/
def SharedEvent.Undisturbed (base : SchemaLoader) (fs : FileSystem) : SharedEvent → Prop
  | .request _ => True
  | .task _ action => action ≠ .expire
  | .change fs' loader => fs' = fs ∧ loader.Reflects base fs

/-- The rules run with workers that the file may have. -/
def SharedEvent.Respects (g : Assignment c) : SharedEvent → Prop
  | .request _ => True
  | .task position action => ∀ w, action = .run w → g.allowed position w
  | .change _ _ => True

namespace SharedRun

variable {s t : SharedRun} {i k : Nat} {action : TaskAction} {e : SharedEvent} {g : Assignment c}

/-- How far the loading for the file at a position has come. -/
def loadAt (s : SharedRun) (k : Nat) : LoadPhase :=
  s.loads[k]?.getD .begun

theorem exists_of_request (h : s.advance? c (.request i) = some t) :
    ∃ path source load, s.paths[i]? = some path ∧ s.phases[i]? = some (.loading source) ∧
      s.loads[i]? = some load ∧ t = s.request c i path source load := by
  rw [advance?] at h
  split at h
  case h_1 path source load hpath hphase hload =>
    exact ⟨path, source, load, hpath, hphase, hload, (Option.some.inj h).symm⟩
  case h_2 => cases h

theorem exists_of_task (h : s.advance? c (.task i action) = some t) :
    action ≠ .load ∧ ∃ run, s.toScheduledRun.advance? c (.task i action) = some run ∧
      t = { s with toScheduledRun := run } := by
  rw [advance?] at h
  split at h
  case isTrue => cases h
  case isFalse hload =>
    obtain ⟨run, hrun, rfl⟩ := Option.map_eq_some_iff.mp h
    exact ⟨hload, run, hrun, rfl⟩

/-- How far the task of the file at a position has come, its requests included. -/
def progress (s : SharedRun) (k : Nat) : Nat :=
  (s.phaseAt k).rank + (s.loadAt k).rank

/-- Only the task of the file at a position has got on. -/
structure Moves (s t : SharedRun) (i : Nat) : Prop where
  inside : i < s.paths.length
  lt : s.progress i < t.progress i
  eq : ∀ k, k ≠ i → t.progress k = s.progress k

/-- All that a run has got is what checking each file by itself gives with workers that it may have;
nothing has halted the run, and no permit is lost. -/
structure Faithful (g : Assignment c) (fs : FileSystem) (base : SchemaLoader) (paths : List String)
    (s : SharedRun) : Prop where
  paths_eq : s.paths = paths
  length_phases : s.phases.length = paths.length
  length_loads : s.loads.length = paths.length
  fs_eq : s.fs = fs
  halted_eq : s.halted = false
  loader : s.loader.Reflects base fs
  phases : ∀ k path, paths[k]? = some path → (s.phaseAt k).Fits c fs base (g.allowed k) path
  loads : ∀ k, (s.loadAt k).Fits c fs base
  permit : s.free ≠ 0 ∨ ∃ k, (s.phaseAt k).permits = 1

/-- Only one task has a new phase, and what it has got now is right. -/
theorem Faithful.phases_of_one (h : Faithful g fs base paths s) (hpath : s.paths[i]? = some path)
    (hself : (t.phaseAt i).Fits c fs base (g.allowed i) path)
    (hother : ∀ k, k ≠ i → t.phaseAt k = s.phaseAt k) :
    ∀ k path, paths[k]? = some path → (t.phaseAt k).Fits c fs base (g.allowed k) path := by
  intro k path' hpath'
  by_cases hk : k = i
  · rw [hk, ← h.paths_eq, hpath] at hpath'
    obtain rfl : path = path' := Option.some.inj hpath'
    rw [hk]
    exact hself
  · rw [hother k hk]
    exact h.phases k path' hpath'

theorem moves_of_phase (hpath : s.paths[i]? = some path)
    (hrank : (s.phaseAt i).rank < (t.phaseAt i).rank)
    (hother : ∀ k, k ≠ i → t.phaseAt k = s.phaseAt k) (hloads : t.loads = s.loads) :
    Moves s t i := by
  have hload (k : Nat) : t.loadAt k = s.loadAt k := by rw [loadAt, loadAt, hloads]
  refine ⟨(List.getElem?_eq_some_iff.mp hpath).1, ?_, fun k hk => ?_⟩
  · rw [progress, progress, hload]
    exact Nat.add_lt_add_right hrank _
  · rw [progress, progress, hload, hother k hk]

variable {source : Source} {load : LoadPhase}

/-! A request -/

theorem supplied_fits {allowed : Workers → Prop} (hsome : ∃ w, allowed w)
    (h : Source.read fs path = .ok source) :
    (supplied path source (c.inputs fs base.renewed).1).Fits c fs base allowed path := by
  cases hinputs : (c.inputs fs base.renewed).1 with
  | ok inputs => exact ⟨h, hinputs⟩
  | error e =>
    obtain ⟨w, hw⟩ := hsome
    refine ⟨w, hw, ?_⟩
    rw [Workers.checkFile_of_source h, hinputs]
    rfl

theorem supplied_rank (inputs : Except AuditError RuleInputs) :
    3 < (supplied path source inputs).rank ∧ (supplied path source inputs).permits = 1 := by
  cases inputs <;> exact ⟨by simp [supplied, TaskPhase.rank], rfl⟩

/-- A request that is not the last. -/
theorem Faithful.asked {next : LoadPhase} (h : Faithful g fs base paths s)
    (hpath : s.paths[i]? = some path) (hload : s.loads[i]? = some load)
    (hl : loader.Reflects base fs) (hfits : next.Fits c fs base) (hrank : load.rank < next.rank) :
    Faithful g fs base paths { s with loads := s.loads.set i next, loader } ∧
      Moves s { s with loads := s.loads.set i next, loader } i := by
  obtain ⟨hi, -⟩ := List.getElem?_eq_some_iff.mp hload
  have hbefore : s.loadAt i = load := by rw [loadAt, hload, Option.getD_some]
  have hself : ({ s with loads := s.loads.set i next, loader } : SharedRun).loadAt i = next := by
    simp [loadAt, hi]
  have hother (k : Nat) (hk : k ≠ i) :
      ({ s with loads := s.loads.set i next, loader } : SharedRun).loadAt k = s.loadAt k := by
    simp [loadAt, List.getElem?_set_ne hk.symm]
  refine ⟨⟨h.paths_eq, h.length_phases, ?_, h.fs_eq, h.halted_eq, hl, h.phases, ?_, h.permit⟩,
    (List.getElem?_eq_some_iff.mp hpath).1, ?_, ?_⟩
  · rw [List.length_set, h.length_loads]
  · intro k
    by_cases hk : k = i
    · rw [hk, hself]
      exact hfits
    · rw [hother k hk]
      exact h.loads k
  · rw [progress, progress, hself, hbefore]
    exact Nat.add_lt_add_left hrank _
  · intro k hk
    rw [progress, progress, hother k hk]
    rfl

/-- The last request. -/
theorem Faithful.supplied (h : Faithful g fs base paths s) (hpath : s.paths[i]? = some path)
    (hphase : s.phases[i]? = some (.loading source)) (hl : loader.Reflects base fs) :
    Faithful g fs base paths { s with
        phases := s.phases.set i (supplied path source (c.inputs fs base.renewed).1), loader } ∧
      Moves s { s with
        phases := s.phases.set i (supplied path source (c.inputs fs base.renewed).1), loader } i := by
  obtain ⟨hi, -⟩ := List.getElem?_eq_some_iff.mp hphase
  obtain ⟨hrank, hpermits⟩ := @supplied_rank path source (c.inputs fs base.renewed).1
  have hbefore : s.phaseAt i = .loading source := by
    rw [ScheduledRun.phaseAt, hphase, Option.getD_some]
  have hread : Source.read fs path = .ok source := by
    have hfits := h.phases i path (h.paths_eq ▸ hpath)
    rw [hbefore] at hfits
    exact hfits
  have hfits := @supplied_fits c fs base path source _ (g.exists_allowed i) hread
  generalize SharedRun.supplied path source (c.inputs fs base.renewed).1 = phase at *
  have hself : ({ s with phases := s.phases.set i phase, loader } : SharedRun).phaseAt i = phase :=
    ScheduledRun.phaseAt_setPhase_self hi
  have hother (k : Nat) (hk : k ≠ i) :
      ({ s with phases := s.phases.set i phase, loader } : SharedRun).phaseAt k = s.phaseAt k :=
    ScheduledRun.phaseAt_setPhase_of_ne hk
  refine ⟨⟨h.paths_eq, ?_, h.length_loads, h.fs_eq, h.halted_eq, hl, ?_, h.loads, ?_⟩, ?_⟩
  · rw [List.length_set, h.length_phases]
  · refine h.phases_of_one hpath ?_ hother
    rw [hself]
    exact hfits
  · exact .inr ⟨i, by rw [hself, hpermits]⟩
  · refine moves_of_phase hpath ?_ hother rfl
    rw [hself, hbefore]
    exact hrank

theorem Faithful.request (h : Faithful g fs base paths s)
    (he : s.advance? c (.request i) = some t) : Faithful g fs base paths t ∧ Moves s t i := by
  obtain ⟨path, source, load, hpath, hphase, hload, rfl⟩ := exists_of_request he
  obtain rfl : s.fs = fs := h.fs_eq
  -- the request gives what it gives with a new loader, from the phase in which the load is
  have hfits : load.Fits c s.fs base := by
    have hfits := h.loads i
    rw [loadAt, hload] at hfits
    exact hfits
  have hgives := hfits.request h.loader
  unfold SharedRun.request
  generalize c.request s.fs s.loader load = given at hgives ⊢
  obtain ⟨next | inputs, loader⟩ := given
  · obtain ⟨hnext, hrank⟩ := hgives.next next rfl
    exact h.asked hpath hload hgives.reflects hnext hrank
  · obtain rfl := hgives.inputs inputs rfl
    exact h.supplied hpath hphase hgives.reflects

/-! Any other event -/

theorem permits_eq_zero_or_one (p : TaskPhase) : p.permits = 0 ∨ p.permits = 1 := by
  cases p <;> simp [TaskPhase.permits]

/-- A permit that a task takes or gives back is not lost. -/
theorem permit_of_acts {run : ScheduledRun}
    (h : ScheduledRun.Acts c s.toScheduledRun i path action run)
    (hpermit : s.free ≠ 0 ∨ ∃ k, (s.phaseAt k).permits = 1) :
    run.free ≠ 0 ∨ ∃ k, (run.phaseAt k).permits = 1 := by
  have hfree := h.free_eq
  -- if the task holds none now, it gave its own back or had none to begin with
  rcases permits_eq_zero_or_one (run.phaseAt i) with hzero | hone
  · rcases hpermit with hpos | ⟨k, hk⟩
    · exact .inl (by omega)
    · by_cases hki : k = i
      · subst hki
        exact .inl (by omega)
      · exact .inr ⟨k, by rw [h.phaseAt_eq k hki, hk]⟩
  · exact .inr ⟨i, hone⟩

theorem Faithful.task (h : Faithful g fs base paths s) (hslow : c.failFast = false)
    (hexpire : action ≠ .expire) (hrun : ∀ w, action = .run w → g.allowed i w)
    (he : s.advance? c (.task i action) = some t) :
    Faithful g fs base paths t ∧ Moves s t i := by
  obtain ⟨hload, run, hnext, rfl⟩ := exists_of_task he
  obtain ⟨path, hacts⟩ := ScheduledRun.exists_acts hnext
  obtain ⟨hfs, hloader⟩ := ScheduledRun.frame_of_task hnext
  obtain rfl : s.fs = fs := h.fs_eq
  have hfits := h.phases i path (h.paths_eq ▸ hacts.path_at)
  refine ⟨⟨hacts.paths_eq.trans h.paths_eq, hacts.length_eq.trans h.length_phases, h.length_loads,
    hfs, ?_, (hloader hload).symm ▸ h.loader, ?_, h.loads, permit_of_acts hacts h.permit⟩,
    moves_of_phase hacts.path_at hacts.move.rank_lt hacts.phaseAt_eq rfl⟩
  · rw [← Bool.not_eq_true, hacts.halted_iff, h.halted_eq, hslow]
    simp
  · exact h.phases_of_one hacts.path_at (hacts.move.fits h.halted_eq hload hexpire
      (g.exists_allowed i) hrun hfits) hacts.phaseAt_eq

theorem Faithful.change {fs' : FileSystem} (h : Faithful g fs base paths s)
    (hfs : fs' = fs) (hl : loader.Reflects base fs) :
    Faithful g fs base paths { s with fs := fs', loader } :=
  ⟨h.paths_eq, h.length_phases, h.length_loads, hfs, h.halted_eq, hl, h.phases, h.loads, h.permit⟩

theorem Faithful.advance (h : Faithful g fs base paths s) (hslow : c.failFast = false)
    (hundisturbed : e.Undisturbed base fs) (hrespects : e.Respects g)
    (he : s.advance? c e = some t) : Faithful g fs base paths t := by
  cases e with
  | request i => exact (h.request he).1
  | task i action => exact (h.task hslow hundisturbed hrespects he).1
  | change fs' loader =>
    obtain rfl : _ = t := Option.some.inj he
    exact h.change hundisturbed.1 hundisturbed.2

/-- No other workers are possible. -/
theorem respects_any (he : s.advance? c e = some t) : e.Respects (.any c) := by
  cases e with
  | request i => trivial
  | task i action =>
    rintro w rfl
    obtain ⟨-, run, hrun, -⟩ := exists_of_task he
    obtain ⟨path, hacts⟩ := ScheduledRun.exists_acts hrun
    exact hacts.move.allows_of_run
  | change fs' loader => trivial

/-! Runs can be completed -/

/-- A run goes on undisturbed. -/
def Reaches (c : AuditConfig) (fs : FileSystem) (base : SchemaLoader) (s t : SharedRun) : Prop :=
  ∃ events : List SharedEvent, (∀ e ∈ events, e.Undisturbed base fs) ∧
    s.advanceAll? c events = some t

theorem Reaches.refl (c : AuditConfig) (fs : FileSystem) (base : SchemaLoader) (s : SharedRun) :
    Reaches c fs base s s :=
  ⟨[], List.forall_mem_nil _, rfl⟩

theorem Reaches.cons {u : SharedRun} (hundisturbed : e.Undisturbed base fs)
    (he : s.advance? c e = some u) (h : Reaches c fs base u t) : Reaches c fs base s t := by
  obtain ⟨events, hevents, hrun⟩ := h
  refine ⟨e :: events, List.forall_mem_cons.mpr ⟨hundisturbed, hevents⟩, ?_⟩
  rw [advanceAll?, he]
  exact hrun

theorem Faithful.reaches (h : Faithful (.any c) fs base paths s) (hslow : c.failFast = false)
    (hreach : Reaches c fs base s t) : Faithful (.any c) fs base paths t := by
  obtain ⟨events, hevents, hrun⟩ := hreach
  induction events generalizing s with
  | nil =>
    obtain rfl : s = t := Option.some.inj hrun
    exact h
  | cons e events ih =>
    obtain ⟨hundisturbed, hlater⟩ := List.forall_mem_cons.mp hevents
    obtain ⟨u, hu, hthen⟩ := Option.bind_eq_some_iff.mp hrun
    exact ih (h.advance hslow hundisturbed (respects_any hu) hu) hlater hthen

end SharedRun

end TransitAudit
