import TransitAudit.Audit.Requests
import TransitAudit.Proofs.Schema.Reflection

/-! Loading the schema's part for a file, one request after another. Over files that do not change
the loader may have been asked anything before and in between: the inputs, and so the outcome for
the file, are those that a new loader gives. -/
namespace TransitAudit

variable {c : AuditConfig} {fs : FileSystem} {l base : SchemaLoader} {path : String}
  {found : SchemaSource} {constraints : Option ConstraintSet} {e : AuditError}

namespace AuditConfig

/-! The two parts of the inputs -/

/-- The constraints, if some rule needs them. -/
def constraintsNeeded (c : AuditConfig) (fs : FileSystem) (l : SchemaLoader) :
    Except AuditError (Option ConstraintSet) × SchemaLoader :=
  if c.rules.any (·.needsConstraints) then
    ((l.constraints fs c.schema).1.map some, (l.constraints fs c.schema).2)
  else (.ok none, l)

/-- The inputs once the constraints are there. -/
def grammarNeeded (c : AuditConfig) (fs : FileSystem) (l : SchemaLoader)
    (constraints : Option ConstraintSet) : Except AuditError RuleInputs × SchemaLoader :=
  if c.rules.any (·.needsGrammar) then
    ((l.grammar fs c.schema).1.map fun g => ⟨constraints, some g⟩, (l.grammar fs c.schema).2)
  else (.ok ⟨constraints, none⟩, l)

theorem inputs_eq (c : AuditConfig) (fs : FileSystem) (l : SchemaLoader) : c.inputs fs l =
    match (c.constraintsNeeded fs l).1 with
    | .error e => (Except.error e, (c.constraintsNeeded fs l).2)
    | .ok constraints => c.grammarNeeded fs (c.constraintsNeeded fs l).2 constraints := by
  rfl

theorem inputs_of_error (h : (c.constraintsNeeded fs l).1 = .error e) :
    c.inputs fs l = (.error e, (c.constraintsNeeded fs l).2) := by
  rw [inputs_eq, h]

theorem inputs_of_ok (h : (c.constraintsNeeded fs l).1 = .ok constraints) :
    c.inputs fs l = c.grammarNeeded fs (c.constraintsNeeded fs l).2 constraints := by
  rw [inputs_eq, h]

/-! Requests -/

theorem request_of_unneeded (h : c.rules.any (·.needsConstraints) = false) :
    c.request fs l .begun = (.inl (.constrained none), l) := by
  rw [request, h]
  rfl

theorem request_of_source (hneeds : c.rules.any (·.needsConstraints) = true)
    (h : (l.source fs c.schema).1 = .ok found) :
    c.request fs l .begun = (.inl (.read found), (l.source fs c.schema).2) := by
  rw [request, if_pos hneeds]
  dsimp only
  rw [h]

theorem request_of_source_error (hneeds : c.rules.any (·.needsConstraints) = true)
    (h : (l.source fs c.schema).1 = .error e) :
    c.request fs l .begun = (.inr (.error e), (l.source fs c.schema).2) := by
  rw [request, if_pos hneeds]
  dsimp only
  rw [h]

theorem request_of_read (c : AuditConfig) (fs : FileSystem) (l : SchemaLoader)
    (found : SchemaSource) : c.request fs l (.read found) =
    (match (l.constraintSets.getOrLoad c.schema fun _ => found.constraints).answer with
      | .ok constraints => .inl (.constrained (some constraints))
      | .error e => .inr (.error e),
    { l with constraintSets :=
        (l.constraintSets.getOrLoad c.schema fun _ => found.constraints).cache }) := by
  rw [request]
  cases (l.constraintSets.getOrLoad c.schema fun _ => found.constraints).answer <;> rfl

theorem request_of_constrained : c.request fs l (.constrained constraints) =
    (.inr (c.grammarNeeded fs l constraints).1, (c.grammarNeeded fs l constraints).2) := by
  rw [request, grammarNeeded]
  split <;> rfl

end AuditConfig

/-! Loaders over files that do not change -/

namespace SchemaLoader

theorem Reflects.constraintsNeeded (h : l.Reflects base fs) (c : AuditConfig) :
    (c.constraintsNeeded fs l).1 = (c.constraintsNeeded fs base.renewed).1 ∧
      (c.constraintsNeeded fs l).2.Reflects base fs := by
  unfold AuditConfig.constraintsNeeded
  split
  · obtain ⟨hanswer, hnext⟩ := h.constraints c.schema
    exact ⟨by rw [hanswer], hnext⟩
  · exact ⟨rfl, h⟩

theorem Reflects.grammarNeeded (h : l.Reflects base fs) (c : AuditConfig)
    (constraints : Option ConstraintSet) :
    (c.grammarNeeded fs l constraints).1 = (c.grammarNeeded fs base.renewed constraints).1 ∧
      (c.grammarNeeded fs l constraints).2.Reflects base fs := by
  unfold AuditConfig.grammarNeeded
  split
  · obtain ⟨hanswer, hnext⟩ := h.grammar c.schema
    exact ⟨by rw [hanswer], hnext⟩
  · exact ⟨rfl, h⟩

/-- With the constraints of a new loader, the rest of its inputs is got from any. -/
theorem inputs_of_constraintsNeeded
    (h : (c.constraintsNeeded fs base.renewed).1 = .ok constraints) :
    (c.inputs fs base.renewed).1 = (c.grammarNeeded fs base.renewed constraints).1 := by
  have hnext := ((reflects_renewed base fs).constraintsNeeded c).2
  rw [AuditConfig.inputs_of_ok h]
  exact (hnext.grammarNeeded c constraints).1

theorem Reflects.inputs (h : l.Reflects base fs) (c : AuditConfig) :
    (c.inputs fs l).1 = (c.inputs fs base.renewed).1 ∧ (c.inputs fs l).2.Reflects base fs := by
  obtain ⟨hanswer, hnext⟩ := h.constraintsNeeded c
  cases hnew : (c.constraintsNeeded fs base.renewed).1 with
  | error e =>
    rw [AuditConfig.inputs_of_error hnew, AuditConfig.inputs_of_error (hanswer.trans hnew)]
    exact ⟨rfl, hnext⟩
  | ok constraints =>
    obtain ⟨hinputs, hthen⟩ := hnext.grammarNeeded c constraints
    rw [inputs_of_constraintsNeeded hnew, AuditConfig.inputs_of_ok (hanswer.trans hnew)]
    exact ⟨hinputs, hthen⟩

end SchemaLoader

/-! The outcome for a file -/

namespace Workers

variable {source : Source} {inputs : RuleInputs}

theorem checkFile_of_unreadable {fault : FileFault} (h : Source.read fs path = .error fault)
    (w : Workers) (l : SchemaLoader) :
    w.checkFile c fs l path = (AuditConfig.unreadable path fault, l) := by
  rw [checkFile, h]

theorem checkFile_of_source (h : Source.read fs path = .ok source) (w : Workers)
    (l : SchemaLoader) : w.checkFile c fs l path =
      (c.conclude path source ((c.inputs fs l).1 >>= w.run c.limits source c.rules),
        (c.inputs fs l).2) := by
  rw [checkFile, h]
  rfl

end Workers

theorem SchemaLoader.Reflects.checkFile (h : l.Reflects base fs) (w : Workers) (c : AuditConfig)
    (path : String) : (w.checkFile c fs l path).1 = (w.checkFile c fs base.renewed path).1 ∧
      (w.checkFile c fs l path).2.Reflects base fs := by
  cases hsource : Source.read fs path with
  | error fault =>
    rw [Workers.checkFile_of_unreadable hsource, Workers.checkFile_of_unreadable hsource]
    exact ⟨rfl, h⟩
  | ok source =>
    obtain ⟨hinputs, hnext⟩ := h.inputs c
    rw [Workers.checkFile_of_source hsource, Workers.checkFile_of_source hsource, hinputs]
    exact ⟨rfl, hnext⟩

/-- Checked in turn, every file has the outcome that it has by itself. -/
theorem SchemaLoader.Reflects.checkFiles (h : l.Reflects base fs) (hslow : c.failFast = false)
    (paths : List String) : c.checkFiles fs l paths =
      paths.map fun path => (c.checkFile fs base.renewed path).1 := by
  induction paths generalizing l with
  | nil => rfl
  | cons path paths ih =>
    obtain ⟨hcheck, hnext⟩ := h.checkFile .one c path
    have hstep : c.step fs ⟨l, false⟩ path =
        ((c.checkFile fs l path).1, ⟨(c.checkFile fs l path).2, false⟩) := by
      rw [AuditConfig.step, if_neg Bool.false_ne_true, hslow]
      rfl
    change c.checkFrom fs ⟨l, false⟩ (path :: paths) = _
    rw [AuditConfig.checkFrom, hstep, List.map_cons, AuditConfig.checkFile, hcheck]
    exact congrArg _ (ih hnext)

/-! One request -/

namespace LoadPhase

/-- Phases in the order in which a loading takes them. -/
def rank : LoadPhase → Nat
  | .begun => 0
  | .read _ => 1
  | .constrained _ => 2

/-- What a loading has got is what a new loader answers with. -/
def Fits (c : AuditConfig) (fs : FileSystem) (base : SchemaLoader) : LoadPhase → Prop
  | .begun => True
  | .read found => c.rules.any (·.needsConstraints) = true ∧
      (base.renewed.source fs c.schema).1 = .ok found
  | .constrained constraints => (c.constraintsNeeded fs base.renewed).1 = .ok constraints

/-- A request gets on, or gives the inputs that a new loader gives. -/
structure Gives (c : AuditConfig) (fs : FileSystem) (base : SchemaLoader) (load : LoadPhase)
    (given : (LoadPhase ⊕ Except AuditError RuleInputs) × SchemaLoader) : Prop where
  reflects : given.2.Reflects base fs
  next : ∀ next, given.1 = .inl next → next.Fits c fs base ∧ load.rank < next.rank
  inputs : ∀ inputs, given.1 = .inr inputs → inputs = (c.inputs fs base.renewed).1

theorem fits_of_begun (hl : l.Reflects base fs) :
    Gives c fs base .begun (c.request fs l .begun) := by
  cases hneeds : c.rules.any (·.needsConstraints) with
  | false =>
    rw [AuditConfig.request_of_unneeded hneeds]
    refine ⟨hl, ?_, fun _ h => nomatch h⟩
    rintro next ⟨⟩
    exact ⟨by rw [Fits, AuditConfig.constraintsNeeded, hneeds]; rfl, Nat.zero_lt_two⟩
  | true =>
    obtain ⟨hanswer, hnext⟩ := hl.source c.schema
    cases hfound : (base.renewed.source fs c.schema).1 with
    | error e =>
      rw [AuditConfig.request_of_source_error hneeds (hanswer.trans hfound)]
      refine ⟨hnext, (fun _ h => nomatch h), ?_⟩
      rintro inputs ⟨⟩
      have hnone : (c.constraintsNeeded fs base.renewed).1 = .error e := by
        rw [AuditConfig.constraintsNeeded, hneeds,
          SchemaLoader.constraints_of_source_error hfound]
        rfl
      rw [AuditConfig.inputs_of_error hnone]
    | ok found =>
      rw [AuditConfig.request_of_source hneeds (hanswer.trans hfound)]
      refine ⟨hnext, ?_, fun _ h => nomatch h⟩
      rintro next ⟨⟩
      exact ⟨⟨hneeds, hfound⟩, Nat.zero_lt_one⟩

theorem Fits.request {load : LoadPhase} (h : load.Fits c fs base) (hl : l.Reflects base fs) :
    Gives c fs base load (c.request fs l load) := by
  cases load with
  | begun => exact fits_of_begun hl
  | read found =>
    obtain ⟨hneeds, hfound⟩ := h
    obtain ⟨hanswer, hnext⟩ := hl.constraintSet hfound
    have hpart : (c.constraintsNeeded fs base.renewed).1 =
        (base.renewed.constraints fs c.schema).1.map some := by
      rw [AuditConfig.constraintsNeeded, hneeds]
      rfl
    rw [AuditConfig.request_of_read, hanswer]
    cases hset : (base.renewed.constraints fs c.schema).1 with
    | error e =>
      refine ⟨hnext, (fun _ h => nomatch h), ?_⟩
      rintro inputs ⟨⟩
      rw [hset] at hpart
      rw [AuditConfig.inputs_of_error hpart]
    | ok s =>
      refine ⟨hnext, ?_, fun _ h => nomatch h⟩
      rintro next ⟨⟩
      rw [hset] at hpart
      exact ⟨hpart, Nat.one_lt_two⟩
  | constrained constraints =>
    obtain ⟨hanswer, hnext⟩ := hl.grammarNeeded c constraints
    rw [AuditConfig.request_of_constrained]
    refine ⟨hnext, (fun _ h => nomatch h), ?_⟩
    rintro inputs ⟨⟩
    rw [hanswer, SchemaLoader.inputs_of_constraintsNeeded h]

end LoadPhase

/-! Requests in a row -/

namespace AuditConfig

/-- All requests of a loading from a phase on, with none of others in between. -/
inductive Requests (c : AuditConfig) (fs : FileSystem) :
    LoadPhase → SchemaLoader → Except AuditError RuleInputs → SchemaLoader → Prop where
  | last {load : LoadPhase} {l m : SchemaLoader} {inputs : Except AuditError RuleInputs}
    (h : c.request fs l load = (.inr inputs, m)) : Requests c fs load l inputs m
  | next {load next : LoadPhase} {l m n : SchemaLoader} {inputs : Except AuditError RuleInputs}
    (h : c.request fs l load = (.inl next, m)) (hrest : Requests c fs next m inputs n) :
    Requests c fs load l inputs n

theorem requests_grammarNeeded :
    Requests c fs (.constrained constraints) l (c.grammarNeeded fs l constraints).1
      (c.grammarNeeded fs l constraints).2 :=
  .last request_of_constrained

/-- What is loaded at once is what the requests in a row give. -/
theorem requests_inputs (c : AuditConfig) (fs : FileSystem) (l : SchemaLoader) :
    Requests c fs .begun l (c.inputs fs l).1 (c.inputs fs l).2 := by
  cases hneeds : c.rules.any (·.needsConstraints) with
  | false =>
    have hpart : c.constraintsNeeded fs l = (.ok none, l) := by
      rw [constraintsNeeded, hneeds]
      rfl
    rw [inputs_eq, hpart]
    exact .next (request_of_unneeded hneeds) requests_grammarNeeded
  | true =>
    have hpart : c.constraintsNeeded fs l =
        ((l.constraints fs c.schema).1.map some, (l.constraints fs c.schema).2) := by
      rw [constraintsNeeded, hneeds]
      rfl
    rw [inputs_eq, hpart]
    cases hfound : (l.source fs c.schema).1 with
    | error e =>
      rw [SchemaLoader.constraints_of_source_error hfound]
      exact .last (request_of_source_error hneeds hfound)
    | ok found =>
      refine .next (request_of_source hneeds hfound) ?_
      -- reading the text leaves the kept constraints as they are
      have hread := request_of_read c fs (l.source fs c.schema).2 found
      rw [SchemaLoader.source_constraintSets] at hread
      rw [SchemaLoader.constraints_of_source hfound]
      cases hset : (l.constraintSets.getOrLoad c.schema fun _ => found.constraints).answer with
      | error e =>
        rw [hset] at hread
        exact .last hread
      | ok s =>
        rw [hset] at hread
        exact .next hread requests_grammarNeeded

end AuditConfig

end TransitAudit
