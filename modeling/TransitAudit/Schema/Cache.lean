import TransitAudit.Error

/-!
A cache of what has been loaded for identifiers. Only successful loads are kept, and a kept value is
never loaded again unless the cache drops it, which it does only beyond its capacity.
-/

namespace TransitAudit

structure Cache (α : Type) where
  entries : List (String × α)

/-- The outcome of asking a cache: the answer, whether it had to be loaded, and the cache then. -/
structure CacheAnswer (α : Type) where
  answer : Except AuditError α
  loaded : Bool
  cache : Cache α

namespace Cache

def empty {α : Type} : Cache α :=
  ⟨[]⟩

def get? {α : Type} (c : Cache α) (identifier : String) : Option α :=
  c.entries.lookup identifier

def insert {α : Type} (c : Cache α) (identifier : String) (value : α) : Cache α :=
  ⟨(identifier, value) :: c.entries⟩

/-- How a failed load is told. Failures that speak of a schema or of its paths stay as they are; any
other counts as a failure to parse the schema that was asked for. -/
def failure (identifier : String) : AuditError → AuditError
  | .schemaNotFound i => .schemaNotFound i
  | .malformedConstraint name reason => .malformedConstraint name reason
  | .invalidPath expression reason => .invalidPath expression reason
  | .schemaParsing i details => .schemaParsing i details
  | other => .schemaParsing identifier other.message

/-- A load, which may change the world that it runs in. -/
abbrev Load (σ α : Type) :=
  σ → Except AuditError α × σ

/-- What makes a load when it is called. The call may change the world already, before anything is
loaded. -/
abbrev Loader (σ α : Type) :=
  σ → Load σ α × σ

/-- The kept value, or else the loaded one. The loader is called in any case, before the cache is
looked at; the load that it makes runs only where no value is kept. -/
def request {σ α : Type} (c : Cache α) (identifier : String) (loader : Loader σ α) (world : σ) :
    CacheAnswer α × σ :=
  let made := loader world
  match c.get? identifier with
  | some value => (⟨.ok value, false, c⟩, made.2)
  | none =>
    match made.1 made.2 with
    | (.ok value, world) => (⟨.ok value, true, c.insert identifier value⟩, world)
    | (.error e, world) => (⟨.error (failure identifier e), true, c⟩, world)

/-- A request whose loader does nothing until its load runs, where the load changes nothing. -/
def getOrLoad {α : Type} (c : Cache α) (identifier : String) (load : Unit → Except AuditError α) :
    CacheAnswer α :=
  (c.request identifier (fun _ => (fun _ => (load (), ()), ())) ()).1

theorem getOrLoad_eq {α : Type} (c : Cache α) (identifier : String)
    (load : Unit → Except AuditError α) : c.getOrLoad identifier load =
      match c.get? identifier with
      | some value => ⟨.ok value, false, c⟩
      | none =>
        match load () with
        | .ok value => ⟨.ok value, true, c.insert identifier value⟩
        | .error e => ⟨.error (failure identifier e), true, c⟩ := by
  unfold getOrLoad request
  cases c.get? identifier with
  | some value => rfl
  | none => cases load () <;> rfl

/-- The entries that a cache has room for. -/
def capacity : Nat := 32

/-- What a cache may have become by itself: it drops entries, and none while it has room for all. -/
structure Drops {α : Type} (c d : Cache α) : Prop where
  kept : ∀ identifier value, d.get? identifier = some value → c.get? identifier = some value
  within : c.entries.length ≤ capacity → d = c

end Cache

end TransitAudit
