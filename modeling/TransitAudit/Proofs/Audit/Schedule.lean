import Mathlib.Data.Finset.Card
import TransitAudit.Audit.Schedule
import TransitAudit.Proofs.Failure

/-! Runs over files, one event after another. What one action of a task does is said once, as a
move of its phase with what it takes from the run and leaves there; all that holds throughout a run
follows by induction on its events. -/
namespace TransitAudit

/-- The file was checked, or should have been, and is not valid. -/
def FileResult.Fails (r : FileResult) : Prop :=
  r.status.isInvalid = true ∨ r.status.isError = true

theorem FileResult.fails_iff {r : FileResult} :
    r.Fails ↔ r.status.isValid = false ∧ r.status.isSkipped = false := by
  unfold FileResult.Fails
  cases r.status <;> simp [FileStatus.isInvalid, FileStatus.isError, FileStatus.isValid,
    FileStatus.isSkipped]

/-- One worker is always possible, and the only possibility with a single thread. -/
@[simp] theorem AuditConfig.allows_one (c : AuditConfig) : c.allows .one = true := by
  simp [allows]

namespace TaskPhase

/-- Phases in the order in which a task takes them. -/
def rank : TaskPhase → Nat
  | .waiting => 0
  | .admitted => 1
  | .reading => 2
  | .loading _ => 3
  | .running _ _ => 4
  | .checked _ => 5
  | .decided _ => 6
  | .ended _ => 7

/-- The permits that a task holds. -/
def permits : TaskPhase → Nat
  | .waiting => 0
  | .ended _ => 0
  | _ => 1

variable {p : TaskPhase} {r : FileResult}

theorem rank_of_outcome (h : p.outcome? = some r) : 6 ≤ p.rank := by
  cases p <;> simp [outcome?, rank] at h ⊢

theorem outcome_of_rank (h : p.rank = 7) : ∃ r, p.outcome? = some r := by
  cases p <;> simp [outcome?, rank] at h ⊢

theorem permits_eq_one_iff : p.permits = 1 ↔ 1 ≤ p.rank ∧ p.rank ≤ 6 := by
  cases p <;> simp [permits, rank]

theorem rank_le : p.rank ≤ 7 := by
  cases p <;> simp [rank]

end TaskPhase

/-- What the task of the file at a path can do in a run, and its phases before and after. -/
inductive TaskMove (c : AuditConfig) (s : ScheduledRun) (path : String) :
    TaskAction → TaskPhase → TaskPhase → Prop where
  | enter (hfree : s.free ≠ 0) : TaskMove c s path .enter .waiting .admitted
  | skip (hhalted : s.halted = true) :
    TaskMove c s path .look .admitted (.decided (.skipped path AuditConfig.skipReason))
  | begin (hhalted : s.halted = false) : TaskMove c s path .look .admitted .reading
  | read {source : Source} (hread : Source.read s.fs path = .ok source) :
    TaskMove c s path .read .reading (.loading source)
  | unreadable {e : FileFault} (hread : Source.read s.fs path = .error e) :
    TaskMove c s path .read .reading (.checked (AuditConfig.unreadable path e))
  | load {source : Source} {inputs : RuleInputs}
    (hinputs : (c.inputs s.fs s.loader).1 = .ok inputs) :
    TaskMove c s path .load (.loading source) (.running source inputs)
  | unloadable {source : Source} {e : AuditError}
    (hinputs : (c.inputs s.fs s.loader).1 = .error e) :
    TaskMove c s path .load (.loading source) (.checked (.failed path e .zero))
  | run {w : Workers} {source : Source} {inputs : RuleInputs} (hallows : c.allows w = true) :
    TaskMove c s path (.run w) (.running source inputs)
      (.checked (c.conclude path source (w.run c.limits source c.rules inputs)))
  | expire {phase : TaskPhase} (hchecking : phase.isChecking = true) :
    TaskMove c s path .expire phase (.checked (c.expired path))
  | store {result : FileResult} : TaskMove c s path .store (.checked result) (.decided result)
  | release {result : FileResult} : TaskMove c s path .release (.decided result) (.ended result)

namespace TaskMove

variable {c : AuditConfig} {s : ScheduledRun} {path : String} {action : TaskAction}
  {phase next : TaskPhase} {r : FileResult}

theorem rank_lt (h : TaskMove c s path action phase next) : phase.rank < next.rank := by
  cases h with
  | expire hchecking =>
    cases phase <;> simp [TaskPhase.isChecking, TaskPhase.rank] at hchecking ⊢
  | _ => simp [TaskPhase.rank]

/-- An outcome that the run has been told about is final. -/
theorem outcome (h : TaskMove c s path action phase next) (hr : phase.outcome? = some r) :
    next.outcome? = some r := by
  cases h with
  | release => exact hr
  | expire hchecking => cases phase <;> simp [TaskPhase.isChecking, TaskPhase.outcome?] at *
  | _ => simp [TaskPhase.outcome?] at hr

/-- The run is told about an outcome when the task skips its file or stores the result. -/
theorem outcome_inv (h : TaskMove c s path action phase next) (hr : next.outcome? = some r) :
    phase.outcome? = some r ∨
      (action = .look ∧ s.halted = true ∧ r = .skipped path AuditConfig.skipReason) ∨
      action = .store ∧ phase = .checked r := by
  cases h with
  | skip hhalted =>
    obtain rfl : _ = r := by simpa [TaskPhase.outcome?] using hr
    exact .inr (.inl ⟨rfl, hhalted, rfl⟩)
  | store =>
    obtain rfl : _ = r := by simpa [TaskPhase.outcome?] using hr
    exact .inr (.inr ⟨rfl, rfl⟩)
  | release => exact .inl hr
  | _ => simp [TaskPhase.outcome?] at hr

theorem enter_inv (h : TaskMove c s path .enter phase next) : s.free ≠ 0 ∧ phase = .waiting := by
  cases h with
  | enter hfree => exact ⟨hfree, rfl⟩

theorem allows_of_run {w : Workers} (h : TaskMove c s path (.run w) phase next) :
    c.allows w = true := by
  cases h with
  | run hallows => exact hallows

theorem store_inv (h : TaskMove c s path .store phase next) :
    ∃ result, phase = .checked result ∧ next = .decided result := by
  cases h
  exact ⟨_, rfl, rfl⟩

theorem look_inv (h : TaskMove c s path .look phase next) : phase = .admitted ∧
    next = if s.halted then .decided (.skipped path AuditConfig.skipReason) else .reading := by
  cases h with
  | skip hhalted => exact ⟨rfl, by rw [if_pos hhalted]⟩
  | begin hhalted => exact ⟨rfl, by rw [hhalted]; rfl⟩

/-- Nothing that a check gives is a skipped file. -/
theorem not_skipped (h : TaskMove c s path action phase (.checked r)) :
    r.status.isSkipped = false := by
  cases h with
  | @run w source inputs =>
    cases w.run c.limits source c.rules inputs with
    | error e => rfl
    | ok rules =>
      simp only [AuditConfig.conclude, FileResult.completed]
      split <;> rfl
  | _ => rfl

theorem entered_iff (h : TaskMove c s path action phase next) :
    1 ≤ next.rank ↔ 1 ≤ phase.rank ∨ action = .enter := by
  cases h with
  | expire hchecking =>
    cases phase <;> simp [TaskPhase.isChecking, TaskPhase.rank] at hchecking ⊢
  | _ => simp [TaskPhase.rank]

theorem looked_iff (h : TaskMove c s path action phase next) :
    2 ≤ next.rank ↔ 2 ≤ phase.rank ∨ action = .look := by
  cases h with
  | expire hchecking =>
    cases phase <;> simp [TaskPhase.isChecking, TaskPhase.rank] at hchecking ⊢
  | _ => simp [TaskPhase.rank]

end TaskMove

/-! One event -/

namespace ScheduledRun

variable {c : AuditConfig} {s t : ScheduledRun} {i k : Nat} {path : String}
  {action : TaskAction} {r : FileResult} {events : List RunEvent}

/-- The phase of the task of the file at a position; there is nothing to do where there is no
file. -/
def phaseAt (s : ScheduledRun) (k : Nat) : TaskPhase :=
  s.phases[k]?.getD .waiting

theorem outcomeAt?_eq : s.outcomeAt? k = (s.phaseAt k).outcome? := by
  unfold outcomeAt? phaseAt
  cases s.phases[k]? <;> rfl

/-- All that an action of the task of the file at a position and a path does. -/
structure Acts (c : AuditConfig) (s : ScheduledRun) (i : Nat) (path : String)
    (action : TaskAction) (t : ScheduledRun) : Prop where
  path_at : s.paths[i]? = some path
  move : TaskMove c s path action (s.phaseAt i) (t.phaseAt i)
  phaseAt_eq : ∀ k, k ≠ i → t.phaseAt k = s.phaseAt k
  paths_eq : t.paths = s.paths
  length_eq : t.phases.length = s.phases.length
  free_eq : t.free + (t.phaseAt i).permits = s.free + (s.phaseAt i).permits
  halted_iff : t.halted = true ↔ s.halted = true ∨
    c.failFast = true ∧ action = .store ∧
      ∃ r, t.phaseAt i = .decided r ∧ r.status.isValid = false

theorem Acts.outcomeAt?_eq_some (h : Acts c s i path action t) (hr : s.outcomeAt? k = some r) :
    t.outcomeAt? k = some r := by
  rw [outcomeAt?_eq] at hr ⊢
  by_cases hk : k = i
  · subst hk
    exact h.move.outcome hr
  · rw [h.phaseAt_eq k hk, hr]

theorem phaseAt_setPhase_self {phase : TaskPhase} (h : i < s.phases.length) :
    (s.setPhase i phase).phaseAt i = phase := by
  simp [setPhase, phaseAt, h]

theorem phaseAt_setPhase_of_ne {phase : TaskPhase} (h : k ≠ i) :
    (s.setPhase i phase).phaseAt k = s.phaseAt k := by
  simp [setPhase, phaseAt, List.getElem?_set_ne h.symm]

/-- The run after a move, when the permits and the flag follow it. -/
theorem acts_of_move {next : TaskPhase} {free : Nat} {halted : Bool} {loader : SchemaLoader}
    (hpath : s.paths[i]? = some path) (hi : i < s.phases.length)
    (hmove : TaskMove c s path action (s.phaseAt i) next)
    (hfree : free + next.permits = s.free + (s.phaseAt i).permits)
    (hhalted : halted = true ↔ s.halted = true ∨ c.failFast = true ∧ action = .store ∧
      ∃ r, next = .decided r ∧ r.status.isValid = false) :
    Acts c s i path action { s.setPhase i next with free, halted, loader } := by
  have hself : ({ s.setPhase i next with free, halted, loader } : ScheduledRun).phaseAt i = next :=
    phaseAt_setPhase_self hi
  refine ⟨hpath, ?_, fun k hk => phaseAt_setPhase_of_ne hk, rfl, List.length_set .., ?_, ?_⟩
  · rw [hself]
    exact hmove
  · rw [hself]
    exact hfree
  · rw [hself]
    exact hhalted

theorem acts_of_work {next : TaskPhase} {loader : SchemaLoader}
    (hpath : s.paths[i]? = some path) (hi : i < s.phases.length)
    (hmove : TaskMove c s path action (s.phaseAt i) next) (haction : action ≠ .store)
    (hpermits : next.permits = (s.phaseAt i).permits) :
    Acts c s i path action { s.setPhase i next with loader } := by
  apply acts_of_move hpath hi hmove
  · rw [hpermits]
    rfl
  · simp [haction, setPhase]

theorem acts_of_act? (hpath : s.paths[i]? = some path) (hi : i < s.phases.length)
    (h : s.act? c i path action (s.phaseAt i) = some t) : Acts c s i path action t := by
  have hwork {next : TaskPhase} (loader : SchemaLoader)
      (hmove : TaskMove c s path action (s.phaseAt i) next) (haction : action ≠ .store)
      (hpermits : next.permits = (s.phaseAt i).permits) :
      Acts c s i path action { s.setPhase i next with loader } :=
    acts_of_work hpath hi hmove haction hpermits
  generalize hphase : s.phaseAt i = phase at h hwork
  unfold act? at h
  split at h
  case h_1 =>
    split at h
    case isTrue => cases h
    case isFalse hfree =>
      cases h
      apply acts_of_move hpath hi (hphase ▸ .enter hfree)
      · rw [hphase]
        simp only [TaskPhase.permits]
        omega
      · simp [setPhase]
  case h_2 =>
    cases h
    cases hhalted : s.halted with
    | true => exact hwork s.loader (.skip hhalted) (by decide) rfl
    | false => exact hwork s.loader (.begin hhalted) (by decide) rfl
  case h_3 =>
    cases h
    cases hread : Source.read s.fs path with
    | ok source => exact hwork s.loader (.read hread) (by decide) rfl
    | error e => exact hwork s.loader (.unreadable hread) (by decide) rfl
  case h_4 =>
    cases hloaded : c.inputs s.fs s.loader with
    | mk found loader =>
      rw [hloaded] at h
      cases h
      have hfound : (c.inputs s.fs s.loader).1 = found := by rw [hloaded]
      cases found with
      | ok inputs => exact hwork loader (.load hfound) (by decide) rfl
      | error e => exact hwork loader (.unloadable hfound) (by decide) rfl
  case h_5 =>
    split at h
    case isTrue hallows =>
      cases h
      exact hwork s.loader (.run hallows) nofun rfl
    case isFalse => cases h
  case h_6 =>
    split at h
    case isTrue hchecking =>
      cases h
      refine hwork s.loader (.expire hchecking) (by decide) ?_
      cases phase <;> first | rfl | cases hchecking
    case isFalse => cases h
  case h_7 result =>
    cases h
    apply acts_of_move hpath hi (hphase ▸ .store)
    · rw [hphase]
      rfl
    · simp
  case h_8 result =>
    cases h
    apply acts_of_move hpath hi (hphase ▸ .release)
    · rw [hphase]
      rfl
    · simp [setPhase]
  case h_9 => cases h

theorem exists_acts (h : s.advance? c (.task i action) = some t) :
    ∃ path, Acts c s i path action t := by
  rw [advance?] at h
  split at h
  case h_1 path phase hpath hphase =>
    obtain ⟨hi, -⟩ := List.getElem?_eq_some_iff.mp hphase
    obtain rfl : s.phaseAt i = phase := by rw [phaseAt, hphase, Option.getD_some]
    exact ⟨path, acts_of_act? hpath hi h⟩
  case h_2 => cases h

/-! Many events -/

theorem advanceAll?_append {before after : List RunEvent} :
    s.advanceAll? c (before ++ after) =
      (s.advanceAll? c before).bind fun u => u.advanceAll? c after := by
  induction before generalizing s with
  | nil => rfl
  | cons e before ih =>
    rw [List.cons_append, advanceAll?, advanceAll?]
    cases s.advance? c e with
    | none => rfl
    | some u => exact ih

theorem advanceAll?_append_eq_some {before after : List RunEvent} :
    s.advanceAll? c (before ++ after) = some t ↔
      ∃ u, s.advanceAll? c before = some u ∧ u.advanceAll? c after = some t := by
  rw [advanceAll?_append, Option.bind_eq_some_iff]

theorem advanceAll?_cons_eq_some {e : RunEvent} {after : List RunEvent} :
    s.advanceAll? c (e :: after) = some t ↔
      ∃ u, s.advance? c e = some u ∧ u.advanceAll? c after = some t := by
  rw [advanceAll?, Option.bind_eq_some_iff]

/-- A run up to, at and after one action of a task. -/
theorem exists_acts_of_split {before after : List RunEvent}
    (h : s.advanceAll? c (before ++ .task i action :: after) = some t) :
    ∃ u v path, s.advanceAll? c before = some u ∧ Acts c u i path action v ∧
      s.advanceAll? c (before ++ [.task i action]) = some v ∧ v.advanceAll? c after = some t := by
  obtain ⟨u, hu, h⟩ := advanceAll?_append_eq_some.mp h
  obtain ⟨v, hv, h⟩ := advanceAll?_cons_eq_some.mp h
  obtain ⟨path, hacts⟩ := exists_acts hv
  have hnext : u.advanceAll? c [.task i action] = some v :=
    advanceAll?_cons_eq_some.mpr ⟨v, hv, rfl⟩
  exact ⟨u, v, path, hu, hacts, advanceAll?_append_eq_some.mpr ⟨u, hu, hnext⟩, h⟩

/-- What holds at first and is kept by every change from outside and every action holds throughout
a run, together with the events so far. -/
theorem run_induction {P : List RunEvent → ScheduledRun → Prop} (hstart : P [] s)
    (hchange : ∀ es u fs loader, P es u → P (es ++ [.change fs loader]) { u with fs, loader })
    (hacts : ∀ es u i path action v, s.advanceAll? c es = some u → Acts c u i path action v →
      P es u → P (es ++ [.task i action]) v)
    (h : s.advanceAll? c events = some t) : P events t := by
  induction events using List.reverseRecOn generalizing t with
  | nil =>
    obtain rfl : s = t := by simpa [advanceAll?] using h
    exact hstart
  | append_singleton es e ih =>
    obtain ⟨u, hu, h⟩ := advanceAll?_append_eq_some.mp h
    obtain ⟨v, hv, h⟩ := advanceAll?_cons_eq_some.mp h
    obtain rfl : v = t := by simpa [advanceAll?] using h
    cases e with
    | change fs loader =>
      obtain rfl : _ = v := by simpa [advance?] using hv
      exact hchange es u fs loader (ih hu)
    | task i action =>
      obtain ⟨path, hacts'⟩ := exists_acts hv
      exact hacts es u i path action v hu hacts' (ih hu)

/-- The same for what does not speak of the events. -/
theorem run_invariant {P : ScheduledRun → Prop} (hstart : P s)
    (hchange : ∀ u fs loader, P u → P { u with fs, loader })
    (hacts : ∀ u i path action v, Acts c u i path action v → P u → P v)
    (h : s.advanceAll? c events = some t) : P t :=
  run_induction (P := fun _ => P) hstart (fun _ => hchange)
    (fun _ u i path action v _ => hacts u i path action v) h

theorem outcomeAt?_of_run (h : s.advanceAll? c events = some t) (hr : s.outcomeAt? k = some r) :
    t.outcomeAt? k = some r := by
  refine run_invariant (P := fun u => u.outcomeAt? k = some r) hr (fun _ _ _ h => h) ?_ h
  intro u i path action v hacts hu
  exact hacts.outcomeAt?_eq_some hu

/-! Runs from their beginning -/

variable {permits : Nat} {fs : FileSystem} {loader : SchemaLoader} {paths : List String}

theorem phaseAt_start : (start permits fs loader paths).phaseAt k = .waiting := by
  unfold phaseAt start
  rw [List.getElem?_map]
  cases paths[k]? <;> rfl

theorem paths_eq (h : (start permits fs loader paths).advanceAll? c events = some s) :
    s.paths = paths := by
  refine run_invariant (P := fun u => u.paths = paths) rfl (fun _ _ _ h => h) ?_ h
  intro u i path action v hacts hu
  rw [hacts.paths_eq, hu]

theorem length_phases (h : (start permits fs loader paths).advanceAll? c events = some s) :
    s.phases.length = paths.length := by
  refine run_invariant (P := fun u => u.phases.length = paths.length) (by simp [start])
    (fun _ _ _ h => h) ?_ h
  intro u i path action v hacts hu
  rw [hacts.length_eq, hu]

/-- A mark that exactly one action sets tells whether the task has done it. -/
theorem mark_iff {P : TaskPhase → Prop} {a : TaskAction} (hwaiting : ¬P .waiting)
    (hmove : ∀ {u path b phase next}, TaskMove c u path b phase next →
      (P next ↔ P phase ∨ b = a))
    (h : (start permits fs loader paths).advanceAll? c events = some s) :
    P (s.phaseAt k) ↔ .task k a ∈ events := by
  refine run_induction (P := fun es u => P (u.phaseAt k) ↔ .task k a ∈ es) ?_ ?_ ?_ h
  · simp [phaseAt_start, hwaiting]
  · intro es u fs loader hu
    rw [List.mem_append, List.mem_singleton, or_iff_left (by simp)]
    exact hu
  · intro es u i path b v _ hacts hu
    rw [List.mem_append, List.mem_singleton]
    by_cases hk : k = i
    · subst hk
      rw [hmove hacts.move, hu, RunEvent.task.injEq, and_iff_right rfl, eq_comm]
    · rw [hacts.phaseAt_eq k hk, hu]
      simp [hk]

theorem entered_iff (h : (start permits fs loader paths).advanceAll? c events = some s) :
    1 ≤ (s.phaseAt k).rank ↔ .task k .enter ∈ events :=
  mark_iff (P := fun p => 1 ≤ p.rank) (by simp [TaskPhase.rank]) TaskMove.entered_iff h

theorem looked_iff (h : (start permits fs loader paths).advanceAll? c events = some s) :
    2 ≤ (s.phaseAt k).rank ↔ .task k .look ∈ events :=
  mark_iff (P := fun p => 2 ≤ p.rank) (by simp [TaskPhase.rank]) TaskMove.looked_iff h

/-- Tasks never hold more permits than there are. -/
theorem card_add_free_le (h : (start permits fs loader paths).advanceAll? c events = some s)
    (holders : Finset Nat) (hholders : ∀ k ∈ holders, (s.phaseAt k).permits = 1) :
    holders.card + s.free ≤ max permits 1 := by
  refine run_invariant (P := fun u => ∀ holders : Finset Nat,
    (∀ k ∈ holders, (u.phaseAt k).permits = 1) → holders.card + u.free ≤ max permits 1)
    ?_ (fun _ _ _ h => h) ?_ h holders hholders
  · intro holders hholders
    have hnone : holders = ∅ := by
      apply Finset.eq_empty_of_forall_notMem
      intro k hk
      have hone := hholders k hk
      rw [phaseAt_start] at hone
      cases hone
    rw [hnone, Finset.card_empty, Nat.zero_add]
    exact le_refl (max permits 1)
  · intro u i path action v hacts hu holders hholders
    have hfree := hacts.free_eq
    -- the other holders are the same before the action
    have hothers : ∀ k ∈ holders.erase i, (u.phaseAt k).permits = 1 := by
      intro k hk
      obtain ⟨hne, hmem⟩ := Finset.mem_erase.mp hk
      rw [← hacts.phaseAt_eq k hne]
      exact hholders k hmem
    have hbefore : (holders.erase i).card + (u.phaseAt i).permits + u.free ≤ max permits 1 := by
      rcases Nat.eq_zero_or_pos (u.phaseAt i).permits with hzero | hpos
      · rw [hzero]
        exact hu _ hothers
      · have hone : (u.phaseAt i).permits = 1 := by
          cases hphase : u.phaseAt i <;> simp [hphase, TaskPhase.permits] at hpos ⊢
        rw [hone, ← Finset.card_insert_of_notMem (Finset.notMem_erase i holders)]
        apply hu
        intro k hk
        rcases Finset.mem_insert.mp hk with rfl | hk
        · exact hone
        · exact hothers k hk
    have hafter : holders.card ≤ (holders.erase i).card + (v.phaseAt i).permits := by
      by_cases hi : i ∈ holders
      · rw [hholders i hi, Finset.card_erase_add_one hi]
      · rw [Finset.erase_eq_of_notMem hi]
        exact Nat.le_add_right ..
    omega

/-! Runs that are complete -/

/-- A run is complete when every task has ended with a result. -/
theorem results?_eq_some_iff {results : List FileResult} :
    s.results? = some results ↔ s.phases = results.map .ended := by
  have hended : ∀ (p : TaskPhase) (r : FileResult), p.result? = some r ↔ p = .ended r := by
    intro p r
    cases p <;> simp [TaskPhase.result?]
  unfold results?
  simp only [mapM_eq_some_iff, hended]
  rw [← List.forall₂_map_right_iff (R := Eq), List.forall₂_eq_eq_eq]

theorem getElem?_results {results : List FileResult} (h : s.results? = some results) :
    results[k]? = s.outcomeAt? k := by
  rw [outcomeAt?, results?_eq_some_iff.mp h, List.getElem?_map]
  cases results[k]? <;> rfl

/-! The flag that halts a run -/

theorem not_skipped_of_checked
    (h : (start permits fs loader paths).advanceAll? c events = some s)
    (hk : s.phaseAt k = .checked r) : r.status.isSkipped = false := by
  refine run_invariant (P := fun u => ∀ r, u.phaseAt k = .checked r → r.status.isSkipped = false)
    ?_ (fun _ _ _ h => h) ?_ h r hk
  · intro r hr
    rw [phaseAt_start] at hr
    cases hr
  · intro u i path action v hacts hu r hr
    by_cases hk : k = i
    · subst hk
      exact (hr ▸ hacts.move).not_skipped
    · exact hu r (hacts.phaseAt_eq k hk ▸ hr)

theorem exists_outcome_of_store
    (h : (start permits fs loader paths).advanceAll? c events = some s)
    (hmem : .task k .store ∈ events) : ∃ r, s.outcomeAt? k = some r := by
  obtain ⟨before, after, rfl⟩ := List.append_of_mem hmem
  obtain ⟨u, v, path, -, hacts, -, h⟩ := exists_acts_of_split h
  obtain ⟨result, -, hnext⟩ := hacts.move.store_inv
  exact ⟨result, outcomeAt?_of_run h (by rw [outcomeAt?_eq, hnext, TaskPhase.outcome?])⟩

/-- A halted run has been told about a file that is not valid. -/
theorem exists_fails_of_halted
    (h : (start permits fs loader paths).advanceAll? c events = some s) (hs : s.halted = true) :
    ∃ j r, .task j .store ∈ events ∧ s.outcomeAt? j = some r ∧ r.Fails := by
  refine run_induction (P := fun es u => u.halted = true →
    ∃ j r, .task j .store ∈ es ∧ u.outcomeAt? j = some r ∧ r.Fails) ?_ ?_ ?_ h hs
  · intro hs
    cases hs
  · intro es u fs loader hu hs
    obtain ⟨j, r, hj, hr, hfails⟩ := hu hs
    exact ⟨j, r, List.mem_append_left _ hj, hr, hfails⟩
  · intro es u i path action v hrun hacts hu hv
    rcases hacts.halted_iff.mp hv with hhalted | ⟨-, rfl, r, hr, hvalid⟩
    · obtain ⟨j, r, hj, hr, hfails⟩ := hu hhalted
      exact ⟨j, r, List.mem_append_left _ hj, hacts.outcomeAt?_eq_some hr, hfails⟩
    · obtain ⟨result, hphase, hnext⟩ := hacts.move.store_inv
      obtain rfl : result = r := by simpa [hnext] using hr
      refine ⟨i, result, List.mem_append_right _ (List.mem_singleton_self _), ?_, ?_⟩
      · rw [outcomeAt?_eq, hr, TaskPhase.outcome?]
      · exact FileResult.fails_iff.mpr ⟨hvalid, not_skipped_of_checked hrun hphase⟩

/-- Failing fast, a run that has been told about a file that is not valid is halted; a file that is
skipped shows this without. -/
theorem halted_of_outcome
    (h : (start permits fs loader paths).advanceAll? c events = some s)
    (hr : s.outcomeAt? k = some r)
    (hbad : r.status.isSkipped = true ∨ c.failFast = true ∧ r.status.isValid = false) :
    s.halted = true := by
  refine run_induction (P := fun _ u => ∀ k r, u.outcomeAt? k = some r →
    r.status.isSkipped = true ∨ c.failFast = true ∧ r.status.isValid = false →
    u.halted = true) ?_ (fun _ _ _ _ h => h) ?_ h k r hr hbad
  · intro k r hr
    rw [outcomeAt?_eq, phaseAt_start] at hr
    cases hr
  · intro es u i path action v hrun hacts hu k r hr hbad
    rw [hacts.halted_iff]
    by_cases hk : k = i
    · subst hk
      rw [outcomeAt?_eq] at hr
      rcases hacts.move.outcome_inv hr with hbefore | ⟨-, hhalted, -⟩ | ⟨rfl, hchecked⟩
      · exact .inl (hu k r (by rw [outcomeAt?_eq, hbefore]) hbad)
      · exact .inl hhalted
      · have hskip := not_skipped_of_checked hrun hchecked
        rcases hbad with hskipped | ⟨hfast, hvalid⟩
        · rw [hskipped] at hskip
          cases hskip
        · obtain ⟨result, hphase, hnext⟩ := hacts.move.store_inv
          obtain rfl : result = r := by simpa [hchecked] using hphase.symm
          exact .inr ⟨hfast, rfl, result, hnext, hvalid⟩
    · rw [outcomeAt?_eq, hacts.phaseAt_eq k hk, ← outcomeAt?_eq] at hr
      exact .inl (hu k r hr hbad)

end ScheduledRun
end TransitAudit
