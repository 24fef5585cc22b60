import Mathlib.Data.Nat.Find
import TransitAudit.Proofs.Document.Reading
import TransitAudit.Proofs.Task.Batch
import TransitAudit.Rule.Run

/-! Running a list of rules. What a rule finds does not depend on the rules that run with it, a run
succeeds just when each of its rules does by itself, and a run that is cancelled gives no results
at all. None of this depends on the workers, but for the task that a failure tells of. -/
namespace TransitAudit

namespace Workers

variable (w w' : Workers) (limits : DistanceLimits) (source : Source) (inputs : RuleInputs)

theorem sameUpToTask_check (r : Rule) (root : Node) :
    SameUpToTask (w.check r limits inputs root) (w'.check r limits inputs root) := by
  cases r with
  | uniqueConstraints => exact .bind (.same _) fun s => sameUpToTask_uniqueConstraints w w' root s
  | keyrefConstraints => exact .bind (.same _) fun s => sameUpToTask_keyrefConstraints w w' root s
  | increasingPassingTimes => exact sameUpToTask_passingTimes w w' root .increasing
  | nonDecreasingPassingTimes => exact sameUpToTask_passingTimes w w' root .nonDecreasing
  | _ => exact .same _

theorem sameUpToTask_findings (r : Rule) (parsed? : Option ParsedDocument) :
    SameUpToTask (w.findings r limits inputs source parsed?)
      (w'.findings r limits inputs source parsed?) := by
  unfold findings
  split
  · exact .same _
  · cases parsed? with
    | none => exact .same _
    | some d => exact sameUpToTask_check w w' limits inputs r d.rootNode

theorem sameUpToTask_runFrom (parsed? : Option ParsedDocument) (cancelled : Nat → Bool)
    (started : Nat) (rules : List Rule) :
    SameUpToTask (w.runFrom limits inputs source parsed? cancelled started rules)
      (w'.runFrom limits inputs source parsed? cancelled started rules) := by
  induction rules generalizing started with
  | nil => exact .same _
  | cons r rules ih =>
    unfold runFrom
    split
    · exact .same _
    · exact .bind (sameUpToTask_findings w w' limits source inputs r parsed?) fun errors =>
        .bind (ih _) fun results => .same _

/-- A run gives the same with any workers, or ends with one batch in which several tasks fail. -/
theorem sameUpToTask_run (rules : List Rule) :
    SameUpToTask (w.run limits source rules inputs) (w'.run limits source rules inputs) := by
  have hfrom (parsed? : Option ParsedDocument) :=
    sameUpToTask_runFrom w w' limits source inputs parsed? (fun _ => false) 0 rules
  unfold run runUntil
  split
  · exact .bind (.same _) hfrom
  · exact .bind (.same _) hfrom

end Workers

end TransitAudit

namespace TransitAudit.Rule

variable {limits : DistanceLimits} {source : Source} {inputs : RuleInputs}
  {parsed? : Option ParsedDocument} {cancelled : Nat → Bool} {started : Nat}
  {r : Rule} {rules : List Rule} {results : List RuleResult}

/-! The tree of the document -/

/-- The tree that rules run with; there is none if no rule looks at it. -/
def tree? (source : Source) (rules : List Rule) : Except AuditError (Option ParsedDocument) :=
  if rules.any (!·.needsGrammar) then source.parse.map some else .ok none

/-- The document parses if some rule looks at its tree. -/
def Readable (source : Source) (rules : List Rule) : Prop :=
  (∃ r ∈ rules, r.needsGrammar = false) → ∃ d, source.parse = .ok d

theorem exists_tree?_iff : (∃ p, tree? source rules = .ok p) ↔ Readable source rules := by
  unfold tree? Readable
  by_cases h : rules.any (!·.needsGrammar) = true
  · have hsome : ∃ r ∈ rules, r.needsGrammar = false := by simpa using h
    rw [if_pos h]
    constructor
    · rintro ⟨p, hp⟩ -
      obtain ⟨d, hd, -⟩ := map_eq_ok_iff.mp hp
      exact ⟨d, hd⟩
    · intro hread
      obtain ⟨d, hd⟩ := hread hsome
      exact ⟨some d, map_eq_ok_iff.mpr ⟨d, hd, rfl⟩⟩
  · have hnone : ¬∃ r ∈ rules, r.needsGrammar = false := by simpa using h
    rw [if_neg h]
    exact ⟨fun _ hsome => absurd hsome hnone, fun _ => ⟨none, rfl⟩⟩

theorem runUntil_eq : runUntil limits source rules inputs cancelled = tree? source rules >>=
    fun p => Workers.one.runFrom limits inputs source p cancelled 0 rules := by
  unfold runUntil Workers.runUntil tree?
  split <;> rfl

theorem run_eq_runUntil : run limits source rules inputs =
    runUntil limits source rules inputs fun _ => false :=
  rfl

/-! Each rule by itself -/

/-- What a rule finds in a document when it runs by itself. -/
def finds (limits : DistanceLimits) (source : Source) (inputs : RuleInputs) (r : Rule) :
    Except AuditError (List Finding) :=
  if r.needsGrammar then Workers.one.findings r limits inputs source none
  else do Workers.one.findings r limits inputs source (some (← source.parse))

/-- In a run it finds the same. -/
theorem findings_eq_finds (h : tree? source rules = .ok parsed?) (hr : r ∈ rules) :
    Workers.one.findings r limits inputs source parsed? = finds limits source inputs r := by
  cases hgrammar : r.needsGrammar with
  | true => simp [finds, Workers.findings, hgrammar]
  | false =>
    -- the rule looks at the tree, so there is one
    have htree : rules.any (!·.needsGrammar) = true :=
      List.any_eq_true.mpr ⟨r, hr, by rw [hgrammar]; rfl⟩
    rw [tree?, if_pos htree] at h
    obtain ⟨d, hd, rfl⟩ := map_eq_ok_iff.mp h
    rw [finds, if_neg (by simp [hgrammar]), hd]
    rfl

theorem readable_of_finds (h : ∀ r ∈ rules, ∃ errors, finds limits source inputs r = .ok errors) :
    Readable source rules := by
  rintro ⟨r, hr, hgrammar⟩
  obtain ⟨errors, herrors⟩ := h r hr
  rw [finds, if_neg (by simp [hgrammar])] at herrors
  obtain ⟨d, hd, -⟩ := bind_eq_ok_iff.mp herrors
  exact ⟨d, hd⟩

/-- Rules that are not cancelled run one after another, and the first that fails ends the run. -/
theorem runFrom_eq_mapM :
    Workers.one.runFrom limits inputs source parsed? (fun _ => false) started rules =
      rules.mapM fun r =>
        (Workers.one.findings r limits inputs source parsed?).map (RuleResult.ofFindings r) := by
  -- the number of rules that were started counts for cancelling only
  induction rules generalizing started with
  | nil => rfl
  | cons r rules ih =>
    rw [Workers.runFrom, List.mapM_cons, if_neg Bool.false_ne_true, ih]
    cases Workers.one.findings r limits inputs source parsed? with
    | error e => rfl
    | ok errors => rfl

/-- A rule by itself gives a result. -/
def Gives (limits : DistanceLimits) (source : Source) (inputs : RuleInputs) (r : Rule)
    (x : RuleResult) : Prop :=
  ∃ errors, finds limits source inputs r = .ok errors ∧ RuleResult.ofFindings r errors = x

/-- Some of the rules of a run, with the tree that all of them need. -/
theorem runFrom_eq_ok_iff (h : tree? source rules = .ok parsed?) {part : List Rule}
    (hpart : part ⊆ rules) :
    Workers.one.runFrom limits inputs source parsed? (fun _ => false) started part = .ok results ↔
      List.Forall₂ (Gives limits source inputs) part results := by
  rw [runFrom_eq_mapM, mapM_eq_ok_iff]
  apply forall₂_congr_of_mem
  intro r hr x
  rw [findings_eq_finds h (hpart hr), map_eq_ok_iff]
  rfl

/-- A run succeeds just when each of its rules does by itself, and the results are theirs. -/
theorem run_eq_ok_iff : run limits source rules inputs = .ok results ↔
    List.Forall₂ (Gives limits source inputs) rules results := by
  rw [run_eq_runUntil, runUntil_eq, bind_eq_ok_iff]
  constructor
  · rintro ⟨p, hp, hrun⟩
    exact (runFrom_eq_ok_iff hp (List.Subset.refl rules)).mp hrun
  · intro h
    have hread : Readable source rules := by
      apply readable_of_finds
      intro r hr
      obtain ⟨x, -, errors, herrors, -⟩ := exists_of_mem_forall₂ h hr
      exact ⟨errors, herrors⟩
    obtain ⟨p, hp⟩ := exists_tree?_iff.mpr hread
    exact ⟨p, hp, (runFrom_eq_ok_iff hp (List.Subset.refl rules)).mpr h⟩

/-- There is one result for each rule, and it counts its findings. -/
theorem Gives.counts {x : RuleResult} (h : Gives limits source inputs r x) :
    x.name = r.name ∧ x.valid = x.errors.isEmpty ∧ x.errorCount = x.errors.length := by
  obtain ⟨errors, -, rfl⟩ := h
  exact ⟨rfl, rfl, rfl⟩

/-! Cancelling -/

/-- The failure of a run that is cancelled before a rule. -/
def cancelledBefore (source : Source) (r : Rule) : AuditError :=
  .concurrency s!"validation of {source.name} cancelled before rule {r.name}"

theorem runFrom_of_unseen (h : ∀ j, j < rules.length → cancelled (started + j) = false) :
    Workers.one.runFrom limits inputs source parsed? cancelled started rules =
      Workers.one.runFrom limits inputs source parsed? (fun _ => false) started rules := by
  induction rules generalizing started with
  | nil => rfl
  | cons r rules ih =>
    have hfirst : cancelled started = false := h 0 (Nat.zero_lt_succ _)
    have hrest : ∀ j, j < rules.length → cancelled (started + 1 + j) = false := by
      intro j hj
      rw [Nat.add_assoc, Nat.add_comm 1 j]
      exact h (j + 1) (Nat.succ_lt_succ hj)
    rw [Workers.runFrom, Workers.runFrom, hfirst, ih hrest]

/-- A run that is cancelled before a rule has run the earlier rules, which may have failed. -/
theorem runFrom_of_seen {k : Nat} (hr : rules[k]? = some r)
    (hseen : cancelled (started + k) = true)
    (hunseen : ∀ j, j < k → cancelled (started + j) = false) :
    Workers.one.runFrom limits inputs source parsed? cancelled started rules =
      Workers.one.runFrom limits inputs source parsed? (fun _ => false) started (rules.take k) >>=
        fun _ => .error (cancelledBefore source r) := by
  induction k generalizing started rules with
  | zero =>
    cases rules with
    | nil => cases hr
    | cons first rules =>
      obtain rfl : first = r := by simpa using hr
      have hnow : cancelled started = true := hseen
      rw [Workers.runFrom, if_pos hnow]
      rfl
  | succ k ih =>
    cases rules with
    | nil => cases hr
    | cons first rules =>
      have hfirst : cancelled started = false := hunseen 0 (Nat.zero_lt_succ k)
      have hnext : ∀ j, started + 1 + j = started + (j + 1) := by omega
      have hrest := @ih (started + 1) rules (by simpa using hr) (by rw [hnext]; exact hseen)
        fun j hj => by rw [hnext]; exact hunseen (j + 1) (Nat.succ_lt_succ hj)
      rw [Workers.runFrom, hfirst, if_neg Bool.false_ne_true, hrest, List.take_succ_cons,
        Workers.runFrom,
        if_neg Bool.false_ne_true]
      cases Workers.one.findings first limits inputs source parsed? with
      | error e => rfl
      | ok errors =>
        cases Workers.one.runFrom limits inputs source parsed? (fun _ => false) (started + 1)
          (rules.take k) <;> rfl

/-- The check before the rule at a position is the first that finds the run cancelled, the document
parses if it has to, and no earlier rule fails. -/
structure CancelledAt (limits : DistanceLimits) (source : Source) (rules : List Rule)
    (inputs : RuleInputs) (cancelled : Nat → Bool) (k : Nat) (r : Rule) : Prop where
  rule : rules[k]? = some r
  seen : cancelled k = true
  unseen_before : ∀ j, j < k → cancelled j = false
  readable : Readable source rules
  earlier : ∃ results, run limits source (rules.take k) inputs = .ok results

theorem runUntil_of_cancelledAt {k : Nat}
    (h : CancelledAt limits source rules inputs cancelled k r) :
    runUntil limits source rules inputs cancelled = .error (cancelledBefore source r) := by
  obtain ⟨p, hp⟩ := exists_tree?_iff.mpr h.readable
  obtain ⟨results, hresults⟩ := h.earlier
  have hseen : cancelled (0 + k) = true := by
    rw [Nat.zero_add]
    exact h.seen
  have hunseen : ∀ j, j < k → cancelled (0 + j) = false := by
    intro j hj
    rw [Nat.zero_add]
    exact h.unseen_before j hj
  have hearlier : Workers.one.runFrom limits inputs source p (fun _ => false) 0 (rules.take k) =
      .ok results :=
    (runFrom_eq_ok_iff hp (List.take_subset k rules)).mpr (run_eq_ok_iff.mp hresults)
  rw [runUntil_eq, hp]
  change Workers.one.runFrom _ _ _ _ _ 0 _ = _
  rw [runFrom_of_seen h.rule hseen hunseen, hearlier]
  rfl

/-- The rules behind one that fails play no part. -/
theorem runFrom_of_take_error {k : Nat} {e : AuditError}
    (h : Workers.one.runFrom limits inputs source parsed? (fun _ => false) started
      (rules.take k) = .error e) :
    Workers.one.runFrom limits inputs source parsed? (fun _ => false) started rules = .error e := by
  rw [runFrom_eq_mapM] at h ⊢
  conv_lhs => rw [← List.take_append_drop k rules]
  rw [List.mapM_append, h]
  rfl

theorem runUntil_of_not_cancelledAt
    (h : ∀ k r, ¬CancelledAt limits source rules inputs cancelled k r) :
    runUntil limits source rules inputs cancelled = run limits source rules inputs := by
  rw [run_eq_runUntil, runUntil_eq, runUntil_eq]
  cases hp : tree? source rules with
  | error e => rfl
  | ok p =>
    change Workers.one.runFrom _ _ _ _ cancelled 0 _ = Workers.one.runFrom _ _ _ _ _ 0 _
    by_cases hseen : ∃ k, k < rules.length ∧ cancelled k = true
    · -- the first check that finds the run cancelled stands behind a rule that fails
      have hfirst := Nat.find_spec hseen
      have hmin : ∀ j, j < Nat.find hseen → cancelled (0 + j) = false := by
        intro j hj
        rw [Nat.zero_add]
        by_contra hj'
        exact Nat.find_min hseen hj ⟨hj.trans hfirst.1, by simpa using hj'⟩
      have hrule := List.getElem?_eq_getElem hfirst.1
      have hat : cancelled (0 + Nat.find hseen) = true := by
        rw [Nat.zero_add]
        exact hfirst.2
      rw [runFrom_of_seen hrule hat hmin]
      cases hearlier : Workers.one.runFrom limits inputs source p (fun _ => false) 0
          (rules.take (Nat.find hseen)) with
      | error e => exact (runFrom_of_take_error hearlier).symm
      | ok results =>
        have hrun := (runFrom_eq_ok_iff hp (List.take_subset _ rules)).mp hearlier
        refine absurd ⟨hrule, hfirst.2, ?_, exists_tree?_iff.mp ⟨p, hp⟩, results,
          run_eq_ok_iff.mpr hrun⟩ (h _ _)
        intro j hj
        rw [← Nat.zero_add j]
        exact hmin j hj
    · apply runFrom_of_unseen
      intro j hj
      rw [Nat.zero_add]
      by_contra hj'
      exact hseen ⟨j, hj, by simpa using hj'⟩

/-- Rules run independently of each other and all or none of them give results. A run that finds
itself cancelled fails, unless a rule has failed before or the document could not be parsed. -/
theorem rules_independent_all_or_none (limits : DistanceLimits) (source : Source)
    (inputs : RuleInputs) :
    (∀ rs ss results, run limits source (rs ++ ss) inputs = .ok results ↔
      ∃ first second, run limits source rs inputs = .ok first ∧
        run limits source ss inputs = .ok second ∧ results = first ++ second) ∧
    (∀ rules results, run limits source rules inputs = .ok results →
      List.Forall₂ (fun r x => x.name = r.name ∧ x.valid = x.errors.isEmpty ∧
        x.errorCount = x.errors.length) rules results) ∧
    ∀ rules cancelled,
      (∀ k r, CancelledAt limits source rules inputs cancelled k r →
        runUntil limits source rules inputs cancelled = .error (cancelledBefore source r)) ∧
      ((∀ k r, ¬CancelledAt limits source rules inputs cancelled k r) →
        runUntil limits source rules inputs cancelled = run limits source rules inputs) ∧
      ∀ results, runUntil limits source rules inputs cancelled = .ok results →
        run limits source rules inputs = .ok results ∧ results.length = rules.length := by
  refine ⟨?_, ?_, ?_⟩
  · intro rs ss results
    simp only [run_eq_ok_iff]
    constructor
    · intro h
      have hfirst := List.forall₂_take rs.length h
      have hsecond := List.forall₂_drop rs.length h
      rw [List.take_left] at hfirst
      rw [List.drop_left] at hsecond
      exact ⟨_, _, hfirst, hsecond, (List.take_append_drop ..).symm⟩
    · rintro ⟨first, second, hfirst, hsecond, rfl⟩
      exact List.rel_append hfirst hsecond
  · intro rules results h
    exact (run_eq_ok_iff.mp h).imp fun _ _ => Gives.counts
  · intro rules cancelled
    refine ⟨fun k r h => runUntil_of_cancelledAt h, runUntil_of_not_cancelledAt, ?_⟩
    intro results h
    have hnever : ∀ k r, ¬CancelledAt limits source rules inputs cancelled k r := by
      intro k r hat
      rw [runUntil_of_cancelledAt hat] at h
      cases h
    rw [runUntil_of_not_cancelledAt hnever] at h
    exact ⟨h, (run_eq_ok_iff.mp h).length_eq.symm⟩

/-- A grammar that accepts every document. -/
def anyDocument : RuleInputs :=
  ⟨none, some fun _ => .ok []⟩

theorem rules_independent_of_grammar :
    ∃ first second,
      run .default (.ofText "doc.xml" "<r/>") [.grammar] anyDocument = .ok first ∧
      run .default (.ofText "doc.xml" "<r/>") [.frameDefaultsLocale] anyDocument = .ok second ∧
      run .default (.ofText "doc.xml" "<r/>") [.grammar, .frameDefaultsLocale] anyDocument =
        .ok (first ++ second) ∧
      runUntil .default (.ofText "doc.xml" "<r/>") [.grammar, .frameDefaultsLocale] anyDocument
          (fun started => 1 ≤ started) =
        .error (.concurrency ("validation of doc.xml cancelled before rule " ++
          "frame-defaults-have-a-locale-and-time-zone")) := by
  have hd : (Source.ofText "doc.xml" "<r/>").parse =
      .ok ⟨⟨⟨⟨0, "r", [], []⟩, []⟩, []⟩, ⟨#[0]⟩⟩ := by
    rw [Source.parse_ofList]
    with_unfolding_all rfl
  have hfirst : run .default (.ofText "doc.xml" "<r/>") [.grammar] anyDocument =
      .ok [.ofFindings .grammar []] := rfl
  have hsecond : run .default (.ofText "doc.xml" "<r/>") [.frameDefaultsLocale] anyDocument =
      .ok [.ofFindings .frameDefaultsLocale [missingFrameDefaults]] := by
    rw [run_eq_ok_iff]
    refine .cons ⟨_, ?_, rfl⟩ .nil
    rw [finds, if_neg (by decide), hd]
    with_unfolding_all rfl
  obtain ⟨happend, -, huntil⟩ := rules_independent_all_or_none .default
    (.ofText "doc.xml" "<r/>") anyDocument
  refine ⟨_, _, hfirst, hsecond, (happend [.grammar] _ _).mpr ⟨_, _, hfirst, hsecond, rfl⟩, ?_⟩
  have hat : CancelledAt .default (.ofText "doc.xml" "<r/>") [.grammar, .frameDefaultsLocale]
      anyDocument (fun started => 1 ≤ started) 1 .frameDefaultsLocale :=
    ⟨rfl, rfl, by decide, fun _ => ⟨_, hd⟩, _, hfirst⟩
  have htext : cancelledBefore (.ofText "doc.xml" "<r/>") .frameDefaultsLocale =
      .concurrency ("validation of doc.xml cancelled before rule " ++
        "frame-defaults-have-a-locale-and-time-zone") := by decide +kernel
  rw [(huntil _ _).1 1 _ hat, htext]

end TransitAudit.Rule
