import TransitAudit.Proofs.Audit.Schedule

/-! Failing fast with many tasks at a time. A file is skipped just when its task looks at the flag
after a file that is not valid has set it. Files that were being checked at that moment still
finish; their tasks hold permits then, which bounds how many there are. -/
namespace TransitAudit

/-- The task that an event lets into the run. -/
def RunEvent.entered? : RunEvent → Option Nat
  | .task position .enter => some position
  | _ => none

namespace ScheduledRun

variable {c : AuditConfig} {s t u : ScheduledRun} {permits : Nat} {fs : FileSystem}
  {loader : SchemaLoader} {paths : List String} {events before after : List RunEvent} {i j : Nat}
  {r : FileResult}

/-! Looking at the flag -/

/-- A task that looks at the flag of a halted run skips its file. -/
theorem outcomeAt?_of_look (hu : s.advanceAll? c before = some u) (hhalted : u.halted = true)
    (h : s.advanceAll? c (before ++ .task i .look :: after) = some t) :
    ∃ path, t.outcomeAt? i = some (.skipped path AuditConfig.skipReason) := by
  obtain ⟨u', v, path, hu', hacts, -, h⟩ := exists_acts_of_split h
  obtain rfl : u = u' := Option.some.inj (hu.symm.trans hu')
  obtain ⟨-, hnext⟩ := hacts.move.look_inv
  rw [if_pos hhalted] at hnext
  exact ⟨path, outcomeAt?_of_run h (by rw [outcomeAt?_eq, hnext, TaskPhase.outcome?])⟩

/-- The task of the file at a position looks at the flag after that of a file that fails has stored
its outcome. -/
def LooksAfterFailure (events : List RunEvent) (s : ScheduledRun) (i : Nat) : Prop :=
  ∃ before after j r, events = before ++ .task i .look :: after ∧ .task j .store ∈ before ∧
    s.outcomeAt? j = some r ∧ r.Fails

theorem LooksAfterFailure.concat {e : RunEvent} (h : LooksAfterFailure events s i)
    (hkept : ∀ j r, s.outcomeAt? j = some r → t.outcomeAt? j = some r) :
    LooksAfterFailure (events ++ [e]) t i := by
  obtain ⟨before, after, j, r, rfl, hj, hr, hfails⟩ := h
  exact ⟨before, after ++ [e], j, r, List.append_assoc .., hj, hkept j r hr, hfails⟩

theorem looksAfterFailure_of_skipped
    (h : (start permits fs loader paths).advanceAll? c events = some s)
    (hr : s.outcomeAt? i = some r) (hskip : r.status.isSkipped = true) :
    LooksAfterFailure events s i := by
  refine run_induction (P := fun es u => ∀ r, u.outcomeAt? i = some r →
    r.status.isSkipped = true → LooksAfterFailure es u i) ?_ ?_ ?_ h r hr hskip
  · intro r hr
    rw [outcomeAt?_eq, phaseAt_start] at hr
    cases hr
  · intro es u fs loader hu r hr hskip
    exact (hu r hr hskip).concat fun j r hr => hr
  · intro es u k path action v hrun hacts hu r hr hskip
    have hkept : ∀ j r, u.outcomeAt? j = some r → v.outcomeAt? j = some r :=
      fun j r => hacts.outcomeAt?_eq_some
    by_cases hk : i = k
    · subst hk
      rw [outcomeAt?_eq] at hr
      rcases hacts.move.outcome_inv hr with hbefore | ⟨rfl, hhalted, -⟩ | ⟨-, hchecked⟩
      · exact (hu r (by rw [outcomeAt?_eq, hbefore]) hskip).concat hkept
      · obtain ⟨j, r', hj, hr', hfails⟩ := exists_fails_of_halted hrun hhalted
        exact ⟨es, [], j, r', rfl, hj, hkept j r' hr', hfails⟩
      · rw [not_skipped_of_checked hrun hchecked] at hskip
        cases hskip
    · rw [outcomeAt?_eq, hacts.phaseAt_eq i hk, ← outcomeAt?_eq] at hr
      exact (hu r hr hskip).concat hkept

theorem skipped_of_looksAfterFailure (hfast : c.failFast = true)
    (h : (start permits fs loader paths).advanceAll? c events = some s)
    (hlooks : LooksAfterFailure events s i) :
    ∃ r, s.outcomeAt? i = some r ∧ r.status.isSkipped = true := by
  obtain ⟨before, after, j, r, rfl, hj, hr, hfails⟩ := hlooks
  obtain ⟨u, hu, hafter⟩ := advanceAll?_append_eq_some.mp h
  -- the outcome of the other file is the final one already when the task looks
  obtain ⟨r', hr'⟩ := exists_outcome_of_store hu hj
  obtain rfl : r' = r := Option.some.inj ((outcomeAt?_of_run hafter hr').symm.trans hr)
  have hhalted := halted_of_outcome hu hr' (.inr ⟨hfast, (FileResult.fails_iff.mp hfails).1⟩)
  obtain ⟨path, hskipped⟩ := outcomeAt?_of_look hu hhalted h
  exact ⟨_, hskipped, rfl⟩

/-! Files that finish after the flag is set -/

/-- The task of the file at a position tells the run its outcome or ends. -/
def Finishes (events : List RunEvent) (i : Nat) : Prop :=
  .task i .store ∈ events ∨ .task i .release ∈ events

/-- A task that has not looked when the run is halted will skip its file. -/
theorem skipped_of_not_looked (hhalted : s.halted = true) (hlooked : (s.phaseAt i).rank < 2)
    (h : s.advanceAll? c events = some t) (hr : t.outcomeAt? i = some r) :
    r.status.isSkipped = true := by
  have hlater : t.halted = true ∧ (2 ≤ (t.phaseAt i).rank →
      ∃ r, t.outcomeAt? i = some r ∧ r.status.isSkipped = true) := by
    refine run_invariant (P := fun u => u.halted = true ∧ (2 ≤ (u.phaseAt i).rank →
      ∃ r, u.outcomeAt? i = some r ∧ r.status.isSkipped = true)) ?_ (fun _ _ _ h => h) ?_ h
    · exact ⟨hhalted, fun h => absurd h (by omega)⟩
    · intro u k path action v hacts hu
      refine ⟨hacts.halted_iff.mpr (.inl hu.1), fun hv => ?_⟩
      by_cases hk : i = k
      · subst hk
        rcases hacts.move.looked_iff.mp hv with hbefore | rfl
        · obtain ⟨r, hr, hskip⟩ := hu.2 hbefore
          exact ⟨r, hacts.outcomeAt?_eq_some hr, hskip⟩
        · obtain ⟨-, hnext⟩ := hacts.move.look_inv
          rw [if_pos hu.1] at hnext
          exact ⟨_, by rw [outcomeAt?_eq, hnext, TaskPhase.outcome?], rfl⟩
      · rw [hacts.phaseAt_eq i hk] at hv
        obtain ⟨r, hr, hskip⟩ := hu.2 hv
        exact ⟨r, hacts.outcomeAt?_eq_some hr, hskip⟩
  rw [outcomeAt?_eq] at hr
  obtain ⟨r', hr', hskip⟩ := hlater.2 (by have := TaskPhase.rank_of_outcome hr; omega)
  rw [outcomeAt?_eq, hr] at hr'
  exact Option.some.inj hr' ▸ hskip

/-- A task that has ended does nothing any more. -/
theorem not_mem_of_ended {action : TaskAction} (hended : (s.phaseAt i).rank = 7)
    (h : s.advanceAll? c events = some t) : .task i action ∉ events := by
  have hlater : (t.phaseAt i).rank = 7 ∧ .task i action ∉ events := by
    refine run_induction (P := fun es u => (u.phaseAt i).rank = 7 ∧ .task i action ∉ es)
      ⟨hended, List.not_mem_nil⟩ ?_ ?_ h
    · intro es u fs loader hu
      exact ⟨hu.1, by simpa using hu.2⟩
    · intro es u k path a v _ hacts hu
      by_cases hk : i = k
      · subst hk
        have hlt := hacts.move.rank_lt
        have hle : (v.phaseAt i).rank ≤ 7 := TaskPhase.rank_le
        omega
      · rw [hacts.phaseAt_eq i hk]
        exact ⟨hu.1, by simpa [hk] using hu.2⟩
  exact hlater.2

/-- When the run is halted, the tasks of all files that finish after it and are not skipped hold
permits. -/
theorem permits_of_finishes (hhalted : s.halted = true) (h : s.advanceAll? c events = some t)
    (hfinishes : Finishes events i) (hr : t.outcomeAt? i = some r)
    (hskip : r.status.isSkipped = false) : (s.phaseAt i).permits = 1 := by
  rw [TaskPhase.permits_eq_one_iff]
  constructor
  · by_contra hrank
    rw [skipped_of_not_looked hhalted (by omega) h hr] at hskip
    cases hskip
  · by_contra hrank
    have hle : (s.phaseAt i).rank ≤ 7 := TaskPhase.rank_le
    have hended : (s.phaseAt i).rank = 7 := by omega
    rcases hfinishes with hmem | hmem
    · exact not_mem_of_ended hended h hmem
    · exact not_mem_of_ended hended h hmem

/-- Besides the file that fails, fewer files than there are permits are checked to their end after
the run has been told about it. -/
theorem card_late_lt (hfast : c.failFast = true)
    (h : (start permits fs loader paths).advanceAll? c (before ++ .task j .store :: after) = some s)
    (hr : s.outcomeAt? j = some r) (hfails : r.Fails) {late : Finset Nat}
    (hlate : ∀ i ∈ late, i ≠ j ∧ Finishes after i ∧
      ∃ r, s.outcomeAt? i = some r ∧ r.status.isSkipped = false) :
    late.card < max permits 1 := by
  obtain ⟨u, v, path, -, hacts, hv, hafter⟩ := exists_acts_of_split h
  obtain ⟨result, -, hnext⟩ := hacts.move.store_inv
  have hstored : v.outcomeAt? j = some result := by
    rw [outcomeAt?_eq, hnext, TaskPhase.outcome?]
  obtain rfl : result = r := Option.some.inj ((outcomeAt?_of_run hafter hstored).symm.trans hr)
  have hhalted := halted_of_outcome hv hstored
    (.inr ⟨hfast, (FileResult.fails_iff.mp hfails).1⟩)
  have hj : j ∉ late := fun hmem => (hlate j hmem).1 rfl
  -- the task that has stored its result still holds its own permit
  have hholders : ∀ i ∈ insert j late, (v.phaseAt i).permits = 1 := by
    intro i hi
    rcases Finset.mem_insert.mp hi with rfl | hi
    · rw [hnext]
      rfl
    · obtain ⟨-, hfinishes, r', hr', hskip⟩ := hlate i hi
      exact permits_of_finishes hhalted hafter hfinishes hr' hskip
  have hcard := card_add_free_le hv (insert j late) hholders
  rw [Finset.card_insert_of_notMem hj] at hcard
  omega

/-! One file at a time -/

/-- The tasks that enter the run, in order. -/
def entries (events : List RunEvent) : List Nat :=
  events.filterMap RunEvent.entered?

theorem mem_entries : i ∈ entries events ↔ .task i .enter ∈ events := by
  unfold entries
  rw [List.mem_filterMap]
  constructor
  · rintro ⟨e, he, hi⟩
    cases e with
    | change fs loader => cases hi
    | task k action =>
      cases action <;> simp [RunEvent.entered?] at hi
      exact hi ▸ he
  · intro h
    exact ⟨_, h, rfl⟩

theorem entries_append : entries (before ++ after) = entries before ++ entries after :=
  List.filterMap_append

/-- With one permit and the files in order, a task that has entered finds the tasks of all earlier
files that have entered at their end. -/
theorem ended_of_entered (hone : permits ≤ 1)
    (h : (start permits fs loader paths).advanceAll? c events = some s)
    (horder : (entries events).Pairwise (· < ·)) (hij : i < j)
    (hi : 1 ≤ (s.phaseAt i).rank) (hj : 1 ≤ (s.phaseAt j).rank) : (s.phaseAt i).rank = 7 := by
  refine run_induction (P := fun es u => (entries es).Pairwise (· < ·) → ∀ i j, i < j →
    1 ≤ (u.phaseAt i).rank → 1 ≤ (u.phaseAt j).rank → (u.phaseAt i).rank = 7)
    ?_ ?_ ?_ h horder i j hij hi hj
  · intro _ i j _ hi
    rw [phaseAt_start] at hi
    cases hi
  · intro es u fs loader hu horder
    rw [entries_append] at horder
    exact hu (List.pairwise_append.mp horder).1
  · intro es u k path action v hrun hacts hu horder i j hij hi hj
    rw [entries_append, List.pairwise_append] at horder
    obtain ⟨hbefore, -, hlast⟩ := horder
    -- what a task has entered it has entered before, unless it enters now
    have hentered : ∀ m, 1 ≤ (v.phaseAt m).rank →
        1 ≤ (u.phaseAt m).rank ∨ m = k ∧ action = .enter := by
      intro m hm
      by_cases hk : m = k
      · subst hk
        exact (hacts.move.entered_iff.mp hm).imp_right fun h => ⟨rfl, h⟩
      · rw [← hacts.phaseAt_eq m hk]
        exact .inl hm
    have hended : ∀ m, (u.phaseAt m).rank = 7 → (v.phaseAt m).rank = 7 := by
      intro m hm
      by_cases hk : m = k
      · subst hk
        have hlt := hacts.move.rank_lt
        have hle : (v.phaseAt m).rank ≤ 7 := TaskPhase.rank_le
        omega
      · rw [hacts.phaseAt_eq m hk, hm]
    rcases hentered i hi with hi | ⟨rfl, rfl⟩
    · rcases hentered j hj with hj | ⟨rfl, rfl⟩
      · exact hended i (hu hbefore i j hij hi hj)
      · -- the permit was free, so the earlier file does not hold it
        obtain ⟨hfree, -⟩ := hacts.move.enter_inv
        apply hended
        by_contra hrank
        have hle : (u.phaseAt i).rank ≤ 7 := TaskPhase.rank_le
        have hholds : (u.phaseAt i).permits = 1 :=
          TaskPhase.permits_eq_one_iff.mpr ⟨hi, by omega⟩
        have hcard := card_add_free_le hrun {i} (by simpa using hholds)
        rw [Finset.card_singleton] at hcard
        omega
    · -- the later file has entered first
      obtain ⟨-, hwaiting⟩ := hacts.move.enter_inv
      rcases hentered j hj with hj | ⟨rfl, -⟩
      · have hji := hlast j (mem_entries.mpr ((entered_iff hrun).mp hj)) i
          (mem_entries.mpr (List.mem_singleton_self _))
        omega
      · omega

theorem skipped_iff_of_in_order (hfast : c.failFast = true) (hone : permits ≤ 1)
    (h : (start permits fs loader paths).advanceAll? c events = some s)
    (horder : (entries events).Pairwise (· < ·)) (hr : s.outcomeAt? i = some r) :
    r.status.isSkipped = true ↔
      ∃ j, j < i ∧ ∃ r, s.outcomeAt? j = some r ∧ r.status.isValid = false := by
  constructor
  · intro hskip
    obtain ⟨before, after, j, r', rfl, hj, hr', hfails⟩ := looksAfterFailure_of_skipped h hr hskip
    refine ⟨j, ?_, r', hr', (FileResult.fails_iff.mp hfails).1⟩
    obtain ⟨u, v, path, hu, hacts, -, -⟩ := exists_acts_of_split h
    rw [entries_append, List.pairwise_append] at horder
    obtain ⟨hphase, -⟩ := hacts.move.look_inv
    obtain ⟨result, hresult⟩ := exists_outcome_of_store hu hj
    rw [outcomeAt?_eq] at hresult
    have hrank := TaskPhase.rank_of_outcome hresult
    by_contra hij
    rcases Nat.lt_or_eq_of_le (not_lt.mp hij) with hlt | rfl
    · -- the task that looks would have ended
      have hended := ended_of_entered hone hu horder.1 hlt (by rw [hphase]; decide) (by omega)
      rw [hphase] at hended
      cases hended
    · rw [hphase] at hresult
      cases hresult
  · rintro ⟨j, hij, r', hr', hbad⟩
    rw [outcomeAt?_eq] at hr hr'
    have hranki := TaskPhase.rank_of_outcome hr
    have hrankj := TaskPhase.rank_of_outcome hr'
    have hlooked : 2 ≤ (s.phaseAt i).rank := by omega
    obtain ⟨before, after, rfl⟩ := List.append_of_mem ((looked_iff h).mp hlooked)
    obtain ⟨u, v, path, hu, hacts, -, hafter⟩ := exists_acts_of_split h
    obtain ⟨hphase, -⟩ := hacts.move.look_inv
    have hin : 1 ≤ (u.phaseAt i).rank := by rw [hphase]; decide
    rw [entries_append, List.pairwise_append] at horder
    -- the earlier file has entered first, so its task has ended when the later one looks
    have hj : 1 ≤ (u.phaseAt j).rank := by
      have henter : .task j .enter ∈ before ++ .task i .look :: after :=
        (entered_iff h).mp (by omega)
      rcases List.mem_append.mp henter with hmem | hmem
      · exact (entered_iff hu).mpr hmem
      · have hji := horder.2.2 i (mem_entries.mpr ((entered_iff hu).mp hin)) j
          (mem_entries.mpr hmem)
        omega
    obtain ⟨result, hresult⟩ :=
      TaskPhase.outcome_of_rank (ended_of_entered hone hu horder.1 hij hj hin)
    rw [← outcomeAt?_eq] at hresult hr hr'
    have hsame := outcomeAt?_of_run hafter (hacts.outcomeAt?_eq_some hresult)
    obtain rfl : result = r' := Option.some.inj (hsame.symm.trans hr')
    have hhalted := halted_of_outcome hu hresult (.inr ⟨hfast, hbad⟩)
    obtain ⟨path, hskipped⟩ := outcomeAt?_of_look hu hhalted h
    obtain rfl : _ = r := Option.some.inj (hskipped.symm.trans hr)
    rfl

/-! All of it -/

/-- A run that fails fast, in whatever order its tasks act and files and schemas change. -/
theorem fail_fast_safe (hfast : c.failFast = true)
    (h : (start permits fs loader paths).advanceAll? c events = some s) :
    (∀ i, (∃ r, s.outcomeAt? i = some r ∧ r.status.isSkipped = true) ↔
      LooksAfterFailure events s i) ∧
    ((∃ i r, s.outcomeAt? i = some r ∧ r.status.isSkipped = true) →
      ∃ j r, s.outcomeAt? j = some r ∧ r.Fails) ∧
    (∀ before after j r, events = before ++ .task j .store :: after → s.outcomeAt? j = some r →
      r.Fails → ∀ late : Finset Nat,
        (∀ i ∈ late, i ≠ j ∧ Finishes after i ∧
          ∃ r, s.outcomeAt? i = some r ∧ r.status.isSkipped = false) →
        late.card ≤ max permits 1 - 1) ∧
    (permits ≤ 1 → (entries events).Pairwise (· < ·) → ∀ i r, s.outcomeAt? i = some r →
      (r.status.isSkipped = true ↔
        ∃ j, j < i ∧ ∃ r, s.outcomeAt? j = some r ∧ r.status.isValid = false)) ∧
    ∀ results, s.results? = some results →
      results.length = paths.length ∧ ∀ i, results[i]? = s.outcomeAt? i := by
  refine ⟨?_, ?_, ?_, ?_, ?_⟩
  · intro i
    constructor
    · rintro ⟨r, hr, hskip⟩
      exact looksAfterFailure_of_skipped h hr hskip
    · exact skipped_of_looksAfterFailure hfast h
  · rintro ⟨i, r, hr, hskip⟩
    obtain ⟨j, r', -, hr', hfails⟩ := exists_fails_of_halted h (halted_of_outcome h hr (.inl hskip))
    exact ⟨j, r', hr', hfails⟩
  · rintro before after j r rfl hr hfails late hlate
    exact Nat.le_sub_one_of_lt (card_late_lt hfast h hr hfails hlate)
  · intro hone horder i r hr
    exact skipped_iff_of_in_order hfast hone h horder hr
  · intro results hresults
    refine ⟨?_, fun i => getElem?_results hresults⟩
    rw [← length_phases h, results?_eq_some_iff.mp hresults, List.length_map]

/-- An audit that fails fast. -/
def hasty : AuditConfig :=
  { AuditConfig.default with failFast := true }

def threeFiles (permits : Nat) : ScheduledRun :=
  start permits ⟨.directory [], []⟩ (.ofRegistry ⟨"schemas", []⟩) ["a.xml", "b.xml", "c.xml"]

def passedOver (path : String) : FileResult :=
  .skipped path AuditConfig.skipReason

/-- Two files at a time. Both have looked before the first runs out of time, so the second one
finishes after that. -/
def twoAtATime : List RunEvent :=
  [.task 0 .enter, .task 1 .enter, .task 0 .look, .task 1 .look, .task 0 .expire, .task 0 .store,
    .task 1 .expire, .task 1 .store, .task 1 .release, .task 0 .release, .task 2 .enter,
    .task 2 .look, .task 2 .release]

/-- One file after another. -/
def oneAtATime : List RunEvent :=
  [.task 0 .enter, .task 0 .look, .task 0 .expire, .task 0 .store, .task 0 .release,
    .task 1 .enter, .task 1 .look, .task 1 .release, .task 2 .enter, .task 2 .look,
    .task 2 .release]

theorem fail_fast_safe_out_of_time :
    (∃ s, (threeFiles 2).advanceAll? hasty twoAtATime = some s ∧
      s.results? = some [hasty.expired "a.xml", hasty.expired "b.xml", passedOver "c.xml"] ∧
      LooksAfterFailure twoAtATime s 2 ∧ Finishes (twoAtATime.drop 6) 1 ∧
      Finset.card {1} ≤ max 2 1 - 1) ∧
    ∃ s, (threeFiles 1).advanceAll? hasty oneAtATime = some s ∧
      s.results? = some [hasty.expired "a.xml", passedOver "b.xml", passedOver "c.xml"] ∧
      ∃ j, j < 2 ∧ ∃ r, s.outcomeAt? j = some r ∧ r.status.isValid = false := by
  have htwo : (threeFiles 2).advanceAll? hasty twoAtATime =
      some { threeFiles 2 with
        phases := [hasty.expired "a.xml", hasty.expired "b.xml", passedOver "c.xml"].map .ended
        halted := true } := rfl
  have hone : (threeFiles 1).advanceAll? hasty oneAtATime =
      some { threeFiles 1 with
        phases := [hasty.expired "a.xml", passedOver "b.xml", passedOver "c.xml"].map .ended
        halted := true } := rfl
  obtain ⟨hskipped, -, hlate, -, -⟩ := fail_fast_safe rfl htwo
  obtain ⟨-, -, -, horder, -⟩ := fail_fast_safe rfl hone
  refine ⟨⟨_, htwo, results?_eq_some_iff.mpr rfl, (hskipped 2).mp ⟨_, rfl, rfl⟩,
    .inl (by simp [twoAtATime]), ?_⟩, _, hone, results?_eq_some_iff.mpr rfl, ?_⟩
  · apply hlate (twoAtATime.take 5) (twoAtATime.drop 6) 0 _ rfl rfl (.inr rfl)
    intro i hi
    obtain rfl : i = 1 := by simpa using hi
    exact ⟨by decide, .inl (by simp [twoAtATime]), _, rfl, rfl⟩
  · exact (horder le_rfl (by decide) 2 _ rfl).mp rfl

end ScheduledRun
end TransitAudit
