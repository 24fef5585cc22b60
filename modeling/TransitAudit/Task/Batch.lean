import TransitAudit.Journey.Check
import TransitAudit.Key.Check

/-!
Tasks over one document and batches of them. A batch gives the findings of its tasks in the order in
which they were queued; the first task that is met with a failure makes the batch fail. One worker
meets the tasks in the order of the queue, several meet them in any order.
-/

namespace TransitAudit

/-- What a task checks. -/
inductive TaskCheck where
  | unique (constraint : Constraint)
  | keyref (keyref key : Constraint)
  | sequence (stopPoints : StopPointIndex) (mode : Monotonicity)
deriving DecidableEq, Repr

def TaskCheck.handler : TaskCheck → String
  | .unique _ => "UniqueCheck"
  | .keyref _ _ => "KeyRefCheck"
  | .sequence _ _ => "SequenceCheck"

/-- A check at a context node. -/
structure Task where
  context : Node
  check : TaskCheck

namespace Task

def execute (t : Task) : Except AuditError (List Finding) :=
  match t.check with
  | .unique constraint => checkUnique constraint t.context
  | .keyref keyref key => checkKeyref keyref key t.context
  | .sequence stopPoints mode => checkJourney t.context stopPoints mode

/-- Runs a task; a failure names the task by its position in the batch and its handler. -/
def run (index : Nat) (t : Task) : Except AuditError (List Finding) :=
  t.execute.mapError fun e => .taskFailed index t.check.handler e.message

/-- The findings of each task, where the first task has the given position. -/
def runFrom : Nat → List Task → Except AuditError (List (List Finding))
  | _, [] => .ok []
  | index, t :: ts => do
    let findings ← t.run index
    return findings :: (← runFrom (index + 1) ts)

/-- The failure of the task at a position, if it fails. -/
def failureAt? (tasks : List Task) (position : Nat) : Option AuditError :=
  tasks[position]?.bind fun t =>
    match t.run position with
    | .ok _ => none
    | .error e => some e

end Task

/-- How the workers of a batch get ahead of its queue: the positions of the tasks that they are done
with before their turn, in the order in which they are done. One worker never does. Of all batches of
a document at most the last one fails, so what the workers do in that one is all that counts. -/
structure Workers where
  ahead : List Nat
deriving DecidableEq, Repr

def Workers.one : Workers :=
  ⟨[]⟩

/-- Runs a batch; the failure that is met first is the one that is told. -/
def Workers.runBatch (w : Workers) (tasks : List Task) : Except AuditError (List Finding) :=
  match w.ahead.findSome? (Task.failureAt? tasks) with
  | some e => .error e
  | none => (Task.runFrom 0 tasks).map Finding.concat

/-- Runs a batch with one worker. -/
def Task.runBatch (tasks : List Task) : Except AuditError (List Finding) :=
  Workers.one.runBatch tasks

end TransitAudit
