import TransitAudit.Constraint.Set
import TransitAudit.Proofs.Document.Lookup
import TransitAudit.Proofs.Failure

/-! One declaration of a constraint. It is read part by part, and gives a constraint with what the
parts say if it has them all. Otherwise the error tells the first part that it lacks. -/
namespace TransitAudit

open TransitAudit.Path

variable {label? : Option String} {kind : ConstraintKind} {n : Node} {c : Constraint}

/-! Children -/

theorem nodesAt_field (n : Node) : n.nodesAt "xsd:field" = .ok (n.childrenNamed "field") := by
  have hparse : PathExpr.parse "xsd:field" =
      .ok ⟨"xsd:field", [⟨false, [⟨.child, .named "field", []⟩]⟩]⟩ := by
    with_unfolding_all rfl
  rw [Node.nodesAt_of_parse hparse, Node.childStep_select]

theorem first_selector (n : Node) : n.first "xsd:selector" =
    match n.childrenNamed "selector" with
    | s :: _ => .ok s
    | [] => .error (.notFound "xsd:selector") := by
  have hparse : PathExpr.parse "xsd:selector" =
      .ok ⟨"xsd:selector", [⟨false, [⟨.child, .named "selector", []⟩]⟩]⟩ := by
    with_unfolding_all rfl
  have hfirst : n.first "xsd:selector" =
      n.firstOf ⟨"xsd:selector", [⟨false, [⟨.child, .named "selector", []⟩]⟩]⟩ := by
    rw [Node.first, hparse]
    rfl
  rw [Node.firstOf, evaluate_singleton, Node.childStep_select] at hfirst
  exact hfirst

/-! What a declaration may lack -/

/-- The parts of a declaration, in the order in which they are looked for. -/
inductive DeclarationPart where
  | name
  | selector
  | selectorPath
  | fieldPath
  | field
  | refer
deriving DecidableEq

def DeclarationPart.all : List DeclarationPart :=
  [.name, .selector, .selectorPath, .fieldPath, .field, .refer]

/-- What is said when the part is missing. -/
def DeclarationPart.reason : DeclarationPart → String
  | .name => "missing attribute name"
  | .selector => "missing xsd:selector"
  | .selectorPath => "xsd:selector is missing attribute xpath"
  | .fieldPath => "xsd:field is missing attribute xpath"
  | .field => "no xsd:field declared"
  | .refer => "missing attribute refer"

/-- Whether a declaration lacks a part. Of several selectors the first one counts, while each field
has to have a path. -/
def ConstraintKind.lacks (kind : ConstraintKind) (n : Node) : DeclarationPart → Bool
  | .name => (n.attr? "name").isNone
  | .selector => (n.childrenNamed "selector").isEmpty
  | .selectorPath => (n.childrenNamed "selector").head?.any fun s => (s.attr? "xpath").isNone
  | .fieldPath => (n.childrenNamed "field").any fun f => (f.attr? "xpath").isNone
  | .field => (n.childrenNamed "field").isEmpty
  | .refer => kind == .keyref && (n.attr? "refer").isNone

/-- The first part that a declaration lacks. -/
def ConstraintKind.missing? (kind : ConstraintKind) (n : Node) : Option DeclarationPart :=
  DeclarationPart.all.find? (kind.lacks n)

/-- What a declaration is called in an error. -/
def ConstraintKind.title (kind : ConstraintKind) (n : Node) : String :=
  (n.attr? "name").getD s!"<unnamed {kind.name} at line {n.line.toNat}>"

def ConstraintKind.fault (kind : ConstraintKind) (n : Node) (part : DeclarationPart) : AuditError :=
  .malformedConstraint (kind.title n) part.reason

/-- A constraint is what its declaration says. -/
structure Constraint.ReadFrom (label? : Option String) (kind : ConstraintKind) (n : Node)
    (c : Constraint) : Prop where
  name : n.attr? "name" = some c.name
  kind_eq : c.kind = kind
  line_eq : c.line = n.line
  selector : ∃ s ∈ (n.childrenNamed "selector").head?, ∃ path, s.attr? "xpath" = some path ∧
    c.selector = stripLabel label? path
  fields : List.Forall₂ (fun f field => ∃ path, f.attr? "xpath" = some path ∧
    field = stripLabel label? path) (n.childrenNamed "field") c.fields
  fields_ne_nil : c.fields ≠ []
  refer : if kind = .keyref then ∃ written, n.attr? "refer" = some written ∧
    c.refer = some (localName written) else c.refer = none

/-! Reading a declaration part by part -/

section Parts

variable {name : String} {e : AuditError}

/-- Reads the path of the first selector. -/
def readSelector (name : String) (n : Node) : Except AuditError String :=
  match n.childrenNamed "selector" with
  | s :: _ => required (s.attr? "xpath") name DeclarationPart.selectorPath.reason
  | [] => .error (.malformedConstraint name DeclarationPart.selector.reason)

def readField (label? : Option String) (name : String) (f : Node) : Except AuditError String := do
  let path ← required (f.attr? "xpath") name DeclarationPart.fieldPath.reason
  return stripLabel label? path

def readFields (label? : Option String) (name : String) (n : Node) :
    Except AuditError (List String) := do
  let fields ← (n.childrenNamed "field").mapM (readField label? name)
  if fields.isEmpty then .error (.malformedConstraint name DeclarationPart.field.reason)
  else .ok fields

def readRefer (kind : ConstraintKind) (name : String) (n : Node) :
    Except AuditError (Option String) :=
  match kind with
  | .keyref => do
    let refer ← required (n.attr? "refer") name DeclarationPart.refer.reason
    return some (localName refer)
  | _ => return none

/-- A declaration is read part by part. -/
theorem Constraint.ofDeclaration_eq (label? : Option String) (kind : ConstraintKind) (n : Node) :
    ofDeclaration label? kind n = do
      let name ← required (n.attr? "name") s!"<unnamed {kind.name} at line {n.line.toNat}>"
        DeclarationPart.name.reason
      let selector ← readSelector name n
      let fields ← readFields label? name n
      let refer ← readRefer kind name n
      return ⟨name, kind, stripLabel label? selector, fields, refer, n.line⟩ := by
  unfold ofDeclaration readSelector readFields
  rw [first_selector, nodesAt_field]
  refine bind_congr fun name => ?_
  -- after a missing selector nothing is read, and after a selector both sides go on alike
  cases n.childrenNamed "selector" with
  | nil => rfl
  | cons s selectors =>
    refine bind_congr fun selector => ?_
    rw [bind_assoc]
    refine bind_congr (x := (n.childrenNamed "field").mapM (readField label? name)) fun fields => ?_
    cases fields with
    | nil => rfl
    | cons field fields =>
      cases kind with
      | keyref =>
        unfold readRefer
        cases n.attr? "refer" <;> rfl
      | key => rfl
      | unique => rfl

theorem required_eq_ok_iff {value? : Option String} {reason value : String} :
    required value? name reason = .ok value ↔ value? = some value := by
  cases value? <;> simp [required]

theorem required_eq_error_iff {value? : Option String} {reason : String} :
    required value? name reason = .error e ↔
      value? = none ∧ e = .malformedConstraint name reason := by
  cases value? <;> simp [required, eq_comm]

theorem readField_eq_ok_iff {field : String} {f : Node} : readField label? name f = .ok field ↔
    ∃ path, f.attr? "xpath" = some path ∧ field = stripLabel label? path := by
  simp only [readField, bind_eq_ok_iff, required_eq_ok_iff, pure, Except.pure, Except.ok.injEq]
  simp only [eq_comm]

theorem readField_eq_error_iff {f : Node} : readField label? name f = .error e ↔
    f.attr? "xpath" = none ∧
      e = .malformedConstraint name DeclarationPart.fieldPath.reason := by
  rw [readField, bind_eq_error_iff, required_eq_error_iff]
  simp [pure, Except.pure]

/-- Whichever field has no path, the error is the same. -/
theorem mapM_readField_eq_error_iff {ns : List Node} :
    ns.mapM (readField label? name) = .error e ↔ (∃ f ∈ ns, f.attr? "xpath" = none) ∧
      e = .malformedConstraint name DeclarationPart.fieldPath.reason := by
  constructor
  · intro h
    obtain ⟨before, f, after, rfl, -, hf⟩ := mapM_eq_error_iff.mp h
    obtain ⟨hnone, he⟩ := readField_eq_error_iff.mp hf
    exact ⟨⟨f, List.mem_append_right _ List.mem_cons_self, hnone⟩, he⟩
  · rintro ⟨⟨f, hf, hnone⟩, rfl⟩
    cases hread : ns.mapM (readField label? name) with
    | ok fields =>
      -- then that field would have given a result as well
      obtain ⟨field, -, hok⟩ := exists_of_mem_forall₂ (mapM_eq_ok_iff.mp hread) hf
      obtain ⟨path, hpath, -⟩ := readField_eq_ok_iff.mp hok
      rw [hnone] at hpath
      cases hpath
    | error e =>
      obtain ⟨_, _, _, -, -, herror⟩ := mapM_eq_error_iff.mp hread
      rw [(readField_eq_error_iff.mp herror).2]

theorem readSelector_eq_ok_iff {path : String} : readSelector name n = .ok path ↔
    ∃ s ∈ (n.childrenNamed "selector").head?, s.attr? "xpath" = some path := by
  unfold readSelector
  cases n.childrenNamed "selector" <;> simp [required_eq_ok_iff]

theorem readFields_eq_ok_iff {fields : List String} : readFields label? name n = .ok fields ↔
    List.Forall₂ (fun f field => ∃ path, f.attr? "xpath" = some path ∧
      field = stripLabel label? path) (n.childrenNamed "field") fields ∧ fields ≠ [] := by
  simp only [readFields, bind_eq_ok_iff, mapM_eq_ok_iff, readField_eq_ok_iff]
  constructor
  · rintro ⟨found, hfound, h⟩
    cases found with
    | nil => cases h
    | cons field found =>
      cases h
      exact ⟨hfound, List.cons_ne_nil _ _⟩
  · rintro ⟨hfields, hne⟩
    obtain ⟨field, found, rfl⟩ := List.exists_cons_of_ne_nil hne
    exact ⟨_, hfields, rfl⟩

theorem readRefer_eq_ok_iff {refer : Option String} : readRefer kind name n = .ok refer ↔
    if kind = .keyref then ∃ written, n.attr? "refer" = some written ∧
      refer = some (localName written) else refer = none := by
  cases kind
  · simp [readRefer, pure, Except.pure, eq_comm]
  · simp only [readRefer, bind_eq_ok_iff, required_eq_ok_iff, pure, Except.pure, Except.ok.injEq,
      if_true]
    simp only [eq_comm]
  · simp [readRefer, pure, Except.pure, eq_comm]

end Parts

theorem Constraint.ofDeclaration_eq_ok_iff :
    ofDeclaration label? kind n = .ok c ↔ ReadFrom label? kind n c := by
  simp only [ofDeclaration_eq, bind_eq_ok_iff, required_eq_ok_iff, readSelector_eq_ok_iff,
    readFields_eq_ok_iff, readRefer_eq_ok_iff]
  constructor
  · rintro ⟨name, hname, path, ⟨s, hs, hpath⟩, fields, ⟨hfields, hne⟩, refer, hrefer, hret⟩
    cases hret
    exact ⟨hname, rfl, rfl, ⟨s, hs, path, hpath, rfl⟩, hfields, hne, hrefer⟩
  · intro h
    obtain ⟨s, hs, path, hpath, hselector⟩ := h.selector
    refine ⟨c.name, h.name, path, ⟨s, hs, hpath⟩, c.fields, ⟨h.fields, h.fields_ne_nil⟩, c.refer,
      h.refer, ?_⟩
    rw [← hselector, ← h.line_eq, ← h.kind_eq]
    rfl

/-! What is missing -/

/-- A reading fails just when one of some parts is missing, and tells the first of them. -/
def ConstraintKind.FailsFor {α : Type} (kind : ConstraintKind) (n : Node)
    (parts : List DeclarationPart) (x : Except AuditError α) : Prop :=
  ∀ e, x = .error e ↔ ∃ part, parts.find? (kind.lacks n) = some part ∧ e = kind.fault n part

section FailsFor

variable {α β : Type} {parts more : List DeclarationPart} {x : Except AuditError α}

theorem ConstraintKind.FailsFor.find?_eq_none {a : α} (h : kind.FailsFor n parts (.ok a)) :
    parts.find? (kind.lacks n) = none := by
  cases hfind : parts.find? (kind.lacks n) with
  | none => rfl
  | some part => exact absurd ((h _).mpr ⟨part, hfind, rfl⟩) (by simp)

/-- The parts of a sequence are missed in their order. -/
theorem ConstraintKind.FailsFor.bind {f : α → Except AuditError β} (hx : kind.FailsFor n parts x)
    (hf : ∀ a, x = .ok a → kind.FailsFor n more (f a)) :
    kind.FailsFor n (parts ++ more) (x >>= f) := by
  intro e
  rw [List.find?_append]
  cases x with
  | error e' =>
    -- a part of the first reading is missing, so what comes behind it is not asked for
    obtain ⟨part, hpart, rfl⟩ := (hx e').mp rfl
    rw [hpart]
    constructor
    · intro h
      cases h
      exact ⟨part, rfl, rfl⟩
    · rintro ⟨_, hfirst, rfl⟩
      cases hfirst
      rfl
  | ok a =>
    rw [hx.find?_eq_none]
    exact hf a rfl e

theorem ConstraintKind.failsFor_nil (a : α) : kind.FailsFor n [] (.ok a) := by
  intro e
  simp

/-- A part that is read by itself. -/
theorem ConstraintKind.failsFor_singleton {part : DeclarationPart}
    (h : ∀ e, x = .error e ↔ kind.lacks n part = true ∧ e = kind.fault n part) :
    kind.FailsFor n [part] x := by
  intro e
  rw [h]
  by_cases hpart : kind.lacks n part = true
  · simp [hpart]
  · simp [hpart]

end FailsFor

section FaultsOfParts

variable {name : String}

theorem ConstraintKind.fault_of_name (hname : n.attr? "name" = some name) (part : DeclarationPart) :
    kind.fault n part = .malformedConstraint name part.reason := by
  rw [fault, title, hname]
  rfl

theorem failsFor_name (kind : ConstraintKind) (n : Node) :
    kind.FailsFor n [.name] (required (n.attr? "name")
      s!"<unnamed {kind.name} at line {n.line.toNat}>" DeclarationPart.name.reason) := by
  apply ConstraintKind.failsFor_singleton
  intro e
  rw [required_eq_error_iff, ConstraintKind.lacks, Option.isNone_iff_eq_none]
  apply and_congr_right
  intro hnone
  rw [ConstraintKind.fault, ConstraintKind.title, hnone]
  rfl

theorem failsFor_selector (kind : ConstraintKind) (hname : n.attr? "name" = some name) :
    kind.FailsFor n [.selector, .selectorPath] (readSelector name n) := by
  have hfault := kind.fault_of_name hname
  intro e
  unfold readSelector
  cases hselectors : n.childrenNamed "selector" with
  | nil => simp [ConstraintKind.lacks, hselectors, hfault, eq_comm]
  | cons s selectors =>
    rw [required_eq_error_iff]
    cases hpath : s.attr? "xpath" <;>
      simp [ConstraintKind.lacks, List.find?, hselectors, hpath, hfault]

/-- Fields without a path are found before it is asked whether there are fields. -/
theorem failsFor_fields (label? : Option String) (kind : ConstraintKind)
    (hname : n.attr? "name" = some name) :
    kind.FailsFor n [.fieldPath, .field] (readFields label? name n) := by
  have hfault := kind.fault_of_name hname
  have hpaths : kind.FailsFor n [.fieldPath]
      ((n.childrenNamed "field").mapM (readField label? name)) := by
    apply ConstraintKind.failsFor_singleton
    intro e
    rw [mapM_readField_eq_error_iff, hfault, ConstraintKind.lacks]
    simp only [List.any_eq_true, Option.isNone_iff_eq_none]
  -- there are as many results as fields
  have hcount (fields : List String)
      (hfields : (n.childrenNamed "field").mapM (readField label? name) = .ok fields) :
      kind.FailsFor n [.field] (if fields.isEmpty then
        .error (.malformedConstraint name DeclarationPart.field.reason) else .ok fields) := by
    have hlength := length_eq_of_mapM hfields
    apply ConstraintKind.failsFor_singleton
    intro e
    rw [ConstraintKind.lacks, hfault]
    cases fields with
    | nil =>
      have hnone : n.childrenNamed "field" = [] := List.length_eq_zero_iff.mp hlength.symm
      simp [hnone, eq_comm]
    | cons field fields =>
      have hsome : n.childrenNamed "field" ≠ [] := by
        intro hnone
        simp [hnone] at hlength
      simp [hsome]
  exact hpaths.bind hcount

theorem failsFor_refer (kind : ConstraintKind) (hname : n.attr? "name" = some name) :
    kind.FailsFor n [.refer] (readRefer kind name n) := by
  have hfault := kind.fault_of_name hname
  apply ConstraintKind.failsFor_singleton
  intro e
  rw [hfault, ConstraintKind.lacks]
  cases kind
  · simp [readRefer, pure, Except.pure]
  · simp only [readRefer, bind_eq_error_iff, required_eq_error_iff]
    simp [pure, Except.pure]
  · simp [readRefer, pure, Except.pure]

end FaultsOfParts

/-- A declaration is not read just when it lacks a part, and the error tells the first one. -/
theorem Constraint.ofDeclaration_eq_error_iff {e : AuditError} :
    ofDeclaration label? kind n = .error e ↔
      ∃ part, kind.missing? n = some part ∧ e = kind.fault n part := by
  have hfails : kind.FailsFor n ([.name] ++ ([.selector, .selectorPath] ++
      ([.fieldPath, .field] ++ ([.refer] ++ [])))) (ofDeclaration label? kind n) := by
    rw [ofDeclaration_eq]
    apply (failsFor_name kind n).bind
    intro name hname
    have hname := required_eq_ok_iff.mp hname
    apply (failsFor_selector kind hname).bind
    intro selector _
    apply (failsFor_fields label? kind hname).bind
    intro fields _
    apply (failsFor_refer kind hname).bind
    intro refer _
    exact ConstraintKind.failsFor_nil _
  exact hfails e

/-- A declaration is complete if it lacks no part. -/
def ConstraintKind.Complete (kind : ConstraintKind) (n : Node) : Prop :=
  ∀ part, kind.lacks n part = false

theorem ConstraintKind.complete_iff_missing? : kind.Complete n ↔ kind.missing? n = none := by
  rw [missing?, List.find?_eq_none]
  constructor
  · intro h part _
    simp [h part]
  · intro h part
    have hall : part ∈ DeclarationPart.all := by cases part <;> decide
    simpa using h part hall

/-- Every complete declaration can be read. -/
theorem Constraint.exists_ofDeclaration_iff (label? : Option String) :
    (∃ c, ofDeclaration label? kind n = .ok c) ↔ kind.Complete n := by
  rw [ConstraintKind.complete_iff_missing?]
  constructor
  · rintro ⟨c, hc⟩
    cases hmissing : kind.missing? n with
    | none => rfl
    | some part =>
      rw [ofDeclaration_eq_error_iff.mpr ⟨part, hmissing, rfl⟩] at hc
      cases hc
  · intro hmissing
    cases hread : ofDeclaration label? kind n with
    | ok c => exact ⟨c, rfl⟩
    | error e =>
      obtain ⟨part, hpart, -⟩ := ofDeclaration_eq_error_iff.mp hread
      rw [hmissing] at hpart
      cases hpart

end TransitAudit
