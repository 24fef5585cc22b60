import TransitAudit.Proofs.Failure
import TransitAudit.Task.Integrity

/-! What batches of tasks find. A batch succeeds just when each of its tasks does, and finds what
they find, one after another; so each family of checks is a sequence of single checks. A batch that
fails tells of one of its tasks that fail, and which one is all that depends on the workers. -/
namespace TransitAudit

/-! Failures of tasks -/

/-- Failures of tasks at different positions. -/
def AuditError.OfDifferentTasks (e e' : AuditError) : Prop :=
  ∃ i j handler handler' details details', i ≠ j ∧ e = .taskFailed i handler details ∧
    e' = .taskFailed j handler' details'

/-- The same outcome, but for which task is told to have failed. -/
inductive SameUpToTask {α : Type} : Except AuditError α → Except AuditError α → Prop where
  | same (x : Except AuditError α) : SameUpToTask x x
  | tasks {e e' : AuditError} (h : e.OfDifferentTasks e') : SameUpToTask (.error e) (.error e')

namespace SameUpToTask

variable {α β : Type} {x y : Except AuditError α} {a : α}

theorem bind (h : SameUpToTask x y) {f g : α → Except AuditError β}
    (hfg : ∀ a, SameUpToTask (f a) (g a)) : SameUpToTask (x >>= f) (y >>= g) := by
  cases h with
  | same =>
    cases x with
    | ok a => exact hfg a
    | error e => exact .same _
  | tasks h => exact .tasks h

theorem eq_ok (h : SameUpToTask x y) (hx : x = .ok a) : y = .ok a := by
  cases h with
  | same => exact hx
  | tasks => cases hx

end SameUpToTask

theorem Task.runFrom_eq_ok_iff {index : Nat} {tasks : List Task} {batches : List (List Finding)} :
    runFrom index tasks = .ok batches ↔ tasks.mapM execute = .ok batches := by
  induction tasks generalizing index batches with
  | nil =>
    constructor
    · intro h
      cases h
      rfl
    · intro h
      cases h
      rfl
  | cons t ts ih =>
    rw [runFrom, List.mapM_cons, bind_eq_ok_iff, bind_eq_ok_iff]
    have hrest (findings : List Finding) :
        (do return findings :: (← runFrom (index + 1) ts)) = Except.ok batches ↔
          (do return findings :: (← ts.mapM execute)) = Except.ok batches := by
      rw [bind_eq_ok_iff, bind_eq_ok_iff]
      exact exists_congr fun rest => and_congr_left fun _ => ih
    -- a failure names the task, a success is the task's own
    exact exists_congr fun findings => and_congr mapError_eq_ok_iff (hrest findings)

namespace Task

variable {tasks : List Task} {position : Nat} {e : AuditError}

theorem failureAt?_eq_some_iff : failureAt? tasks position = some e ↔
    ∃ t, tasks[position]? = some t ∧ t.run position = .error e := by
  rw [failureAt?, Option.bind_eq_some_iff]
  refine exists_congr fun t => and_congr_right fun _ => ?_
  cases t.run position <;> simp

/-- A failure names the task. -/
theorem exists_of_failureAt? (h : failureAt? tasks position = some e) :
    ∃ handler details, e = .taskFailed position handler details := by
  obtain ⟨t, -, hrun⟩ := failureAt?_eq_some_iff.mp h
  rw [run] at hrun
  cases hexecute : t.execute with
  | ok findings =>
    rw [hexecute] at hrun
    cases hrun
  | error cause =>
    rw [hexecute] at hrun
    exact ⟨_, _, (Except.error.inj hrun).symm⟩

theorem failureAt?_of_mapM {batches : List (List Finding)}
    (h : tasks.mapM execute = .ok batches) (position : Nat) :
    failureAt? tasks position = none := by
  cases hfailure : failureAt? tasks position with
  | none => rfl
  | some e =>
    obtain ⟨t, ht, hrun⟩ := failureAt?_eq_some_iff.mp hfailure
    obtain ⟨findings, -, hexecute⟩ :=
      exists_of_mem_forall₂ (mapM_eq_ok_iff.mp h) (List.mem_of_getElem? ht)
    rw [run, hexecute] at hrun
    cases hrun

theorem exists_failureAt?_of_runFrom {index : Nat} (h : runFrom index tasks = .error e) :
    ∃ k, ∃ t : Task, tasks[k]? = some t ∧ t.run (index + k) = .error e := by
  induction tasks generalizing index with
  | nil => cases h
  | cons t ts ih =>
    rw [runFrom, bind_eq_error_iff] at h
    rcases h with hfirst | ⟨findings, -, hrest⟩
    · exact ⟨0, t, rfl, hfirst⟩
    · rcases bind_eq_error_iff.mp hrest with hrest | ⟨batches, -, hret⟩
      · obtain ⟨k, t', ht', hrun⟩ := ih hrest
        exact ⟨k + 1, t', ht', by rwa [Nat.add_assoc, Nat.add_comm 1] at hrun⟩
      · cases hret

end Task

namespace Workers

variable {w : Workers} {tasks : List Task} {findings : List Finding} {e : AuditError}

theorem runBatch_eq_ok_iff : w.runBatch tasks = .ok findings ↔
    ∃ batches, tasks.mapM Task.execute = .ok batches ∧ batches.flatten = findings := by
  have hqueue : (Task.runFrom 0 tasks).map Finding.concat = .ok findings ↔
      ∃ batches, tasks.mapM Task.execute = .ok batches ∧ batches.flatten = findings := by
    rw [map_eq_ok_iff]
    exact exists_congr fun batches => and_congr_left fun _ => Task.runFrom_eq_ok_iff
  rw [runBatch, ← hqueue]
  cases hahead : w.ahead.findSome? (Task.failureAt? tasks) with
  | none => rfl
  | some e =>
    -- a task that fails is not one of a batch that succeeds
    obtain ⟨position, -, hfailure⟩ := List.exists_of_findSome?_eq_some hahead
    refine ⟨nofun, fun h => ?_⟩
    obtain ⟨batches, hbatches, -⟩ := hqueue.mp h
    rw [Task.failureAt?_of_mapM hbatches] at hfailure
    cases hfailure

theorem exists_failureAt?_of_runBatch (h : w.runBatch tasks = .error e) :
    ∃ position, Task.failureAt? tasks position = some e := by
  rw [runBatch] at h
  cases hahead : w.ahead.findSome? (Task.failureAt? tasks) with
  | some e' =>
    obtain ⟨position, -, hfailure⟩ := List.exists_of_findSome?_eq_some hahead
    rw [hahead] at h
    cases h
    exact ⟨position, hfailure⟩
  | none =>
    rw [hahead] at h
    obtain ⟨k, t, ht, hrun⟩ := Task.exists_failureAt?_of_runFrom (map_eq_error_iff.mp h)
    rw [Nat.zero_add] at hrun
    exact ⟨k, Task.failureAt?_eq_some_iff.mpr ⟨t, ht, hrun⟩⟩

theorem sameUpToTask_runBatch (w w' : Workers) (tasks : List Task) :
    SameUpToTask (w.runBatch tasks) (w'.runBatch tasks) := by
  cases hw : w.runBatch tasks with
  | ok findings =>
    rw [runBatch_eq_ok_iff.mpr (runBatch_eq_ok_iff.mp hw)]
    exact .same _
  | error e =>
    cases hw' : w'.runBatch tasks with
    | ok findings =>
      rw [runBatch_eq_ok_iff.mpr (runBatch_eq_ok_iff.mp hw')] at hw
      cases hw
    | error e' =>
      obtain ⟨i, hi⟩ := exists_failureAt?_of_runBatch hw
      obtain ⟨j, hj⟩ := exists_failureAt?_of_runBatch hw'
      by_cases hij : i = j
      · subst hij
        obtain rfl : e = e' := Option.some.inj (hi.symm.trans hj)
        exact .same _
      · obtain ⟨handler, details, rfl⟩ := Task.exists_of_failureAt? hi
        obtain ⟨handler', details', rfl⟩ := Task.exists_of_failureAt? hj
        exact .tasks ⟨i, j, _, _, _, _, hij, rfl, rfl⟩

example (n : Node) :
    let tasks : List Task :=
      [⟨n, .unique ⟨"A", .unique, "", ["@id"], none, 1⟩⟩,
        ⟨n, .unique ⟨"B", .unique, "b]", ["@id"], none, 2⟩⟩]
    one.runBatch tasks = .error
        (.taskFailed 0 "UniqueCheck" "Invalid path expression '': empty expression") ∧
      runBatch ⟨[1]⟩ tasks = .error
        (.taskFailed 1 "UniqueCheck" "Invalid path expression 'b]': unbalanced brackets") := by
  with_unfolding_all exact ⟨rfl, rfl⟩

/-! Checks of a document that are batches -/

theorem sameUpToTask_uniqueConstraints (w w' : Workers) (root : Node) (s : ConstraintSet) :
    SameUpToTask (w.uniqueConstraints root s) (w'.uniqueConstraints root s) :=
  sameUpToTask_runBatch w w' _

theorem sameUpToTask_keyrefConstraints (w w' : Workers) (root : Node) (s : ConstraintSet) :
    SameUpToTask (w.keyrefConstraints root s) (w'.keyrefConstraints root s) :=
  .bind (.same _) fun _ => sameUpToTask_runBatch w w' _

theorem sameUpToTask_passingTimes (w w' : Workers) (root : Node) (mode : Monotonicity) :
    SameUpToTask (w.passingTimes root mode) (w'.passingTimes root mode) :=
  .bind (.same _) fun _ => .bind (.same _) fun _ => sameUpToTask_runBatch w w' _

end Workers

namespace Integrity

theorem uniqueConstraints_eq_ok_iff {root : Node} {s : ConstraintSet} {findings : List Finding} :
    uniqueConstraints root s = .ok findings ↔
      ∃ batches, s.uniques.mapM (checkUnique · root) = .ok batches ∧ batches.flatten = findings := by
  rw [uniqueConstraints, Workers.uniqueConstraints, Workers.runBatch_eq_ok_iff, List.mapM_map]
  rfl

theorem keyrefConstraints_eq_ok_iff {root : Node} {s : ConstraintSet} {findings : List Finding} :
    keyrefConstraints root s = .ok findings ↔
      ∃ pairs, s.keyrefPairs = .ok pairs ∧
        ∃ batches, pairs.mapM (fun p => checkKeyref p.keyref p.key root) = .ok batches ∧
          batches.flatten = findings := by
  rw [keyrefConstraints, Workers.keyrefConstraints, bind_eq_ok_iff]
  apply exists_congr
  intro pairs
  rw [Workers.runBatch_eq_ok_iff, List.mapM_map]
  rfl

theorem passingTimes_eq_ok_iff {root : Node} {mode : Monotonicity} {findings : List Finding} :
    passingTimes root mode = .ok findings ↔
      ∃ stopPoints, StopPointIndex.build root = .ok stopPoints ∧
        ∃ journeys, root.nodesAt serviceJourneysPath = .ok journeys ∧
          ∃ batches, journeys.mapM (checkJourney · stopPoints mode) = .ok batches ∧
            batches.flatten = findings := by
  rw [passingTimes, Workers.passingTimes, bind_eq_ok_iff]
  apply exists_congr
  intro stopPoints
  rw [bind_eq_ok_iff]
  apply and_congr_right
  intro _
  apply exists_congr
  intro journeys
  rw [Workers.runBatch_eq_ok_iff, List.mapM_map]
  rfl

theorem check_eq_ok_iff {d : ParsedDocument} {s : ConstraintSet} {findings : List Finding} :
    check d s = .ok findings ↔
      ∃ uniques, uniqueConstraints d.rootNode s = .ok uniques ∧
        ∃ keyrefs, keyrefConstraints d.rootNode s = .ok keyrefs ∧
          ∃ times, passingTimes d.rootNode .increasing = .ok times ∧
            uniques ++ keyrefs ++ times = findings := by
  rw [check, bind_eq_ok_iff]
  apply exists_congr
  intro uniques
  rw [bind_eq_ok_iff]
  apply and_congr_right
  intro _
  apply exists_congr
  intro keyrefs
  rw [bind_eq_ok_iff]
  apply and_congr_right
  intro _
  apply exists_congr
  intro times
  exact and_congr_right fun _ => ⟨Except.ok.inj, congrArg _⟩

end Integrity

end TransitAudit
