import TransitAudit.Program
import TransitAudit.Proofs.Audit.InTurn
import TransitAudit.Proofs.Document.Reading
import TransitAudit.Proofs.Files.Walk
import TransitAudit.Proofs.Rule.Run

/-! What a run says about its files is what became of their checks: the status of a file, the
numbers of the summary and the exit code. A file without a status of its own is skipped, which
happens only after another file was found not valid, so the exit code shows that too. -/
namespace TransitAudit

/-- The findings listed in the results of its rules. -/
def FileResult.listed (r : FileResult) : List Finding :=
  r.rules.flatMap (·.errors)

theorem foldr_length_eq {α β : Type} (f : α → List β) (xs : List α) :
    (xs.map fun x => (f x).length).foldr (· + ·) 0 = (xs.flatMap f).length := by
  rw [List.length_flatMap]
  rfl

/-! The summary and the exit code -/

namespace AuditSummary

variable {files : List FileResult}

theorem counters_sum : (ofFiles files).valid + (ofFiles files).invalid + (ofFiles files).errors +
    (ofFiles files).skipped = (ofFiles files).total := by
  simp only [ofFiles]
  induction files with
  | nil => rfl
  | cons r files ih =>
    have hone : (if r.status.isValid then 1 else 0) + (if r.status.isInvalid then 1 else 0) +
        (if r.status.isError then 1 else 0) + (if r.status.isSkipped then 1 else 0) = 1 := by
      cases r.status <;> rfl
    simp only [List.countP_cons, List.length_cons]
    omega

theorem totalFindings_eq (h : ∀ r ∈ files, r.errorCount = r.listed.length) :
    (ofFiles files).totalFindings = (files.flatMap (·.listed)).length := by
  rw [totalFindings, ofFiles, List.map_congr_left h, foldr_length_eq]

theorem exitCode_eq_two_iff :
    (ofFiles files).exitCode = 2 ↔ ∃ r ∈ files, r.status.isError = true := by
  rw [← List.countP_pos_iff]
  unfold exitCode
  split
  case isTrue h => exact iff_of_true rfl h
  case isFalse h =>
    refine iff_of_false ?_ h
    split <;> decide

theorem exitCode_eq_zero_iff : (ofFiles files).exitCode = 0 ↔ ∀ r ∈ files, ¬r.Fails := by
  have hfails : (∃ r ∈ files, r.Fails) ↔
      0 < (ofFiles files).invalid ∨ 0 < (ofFiles files).errors := by
    rw [ofFiles, List.countP_pos_iff, List.countP_pos_iff, ← exists_or]
    refine exists_congr fun r => ?_
    rw [← and_or_left]
    rfl
  have hnone : (∀ r ∈ files, ¬r.Fails) ↔ ¬∃ r ∈ files, r.Fails := by
    simp only [not_exists, not_and]
  rw [hnone, hfails]
  unfold exitCode
  split
  case isTrue h => exact iff_of_false (by decide) fun hnot => hnot (.inr h)
  case isFalse h =>
    split
    case isTrue h' => exact iff_of_false (by decide) fun hnot => hnot (.inl h')
    case isFalse h' => exact iff_of_true rfl fun hsome => hsome.elim h' h

theorem exitCode_le_two : (ofFiles files).exitCode ≤ 2 := by
  unfold exitCode
  split
  case isTrue => exact le_rfl
  case isFalse => split <;> decide

end AuditSummary

namespace ScheduledRun

variable {c : AuditConfig} {begun s t u : ScheduledRun} {events : List RunEvent} {path : String}
  {r : FileResult} {e : RunEvent}

/-- A run is in a state before, between or after its events. -/
def Passes (c : AuditConfig) (begun : ScheduledRun) (events : List RunEvent) (u : ScheduledRun) :
    Prop :=
  ∃ before, before <+: events ∧ begun.advanceAll? c before = some u

theorem Passes.concat (h : Passes c begun events u) : Passes c begun (events ++ [e]) u := by
  obtain ⟨before, hbefore, hu⟩ := h
  exact ⟨before, hbefore.trans (List.prefix_append ..), hu⟩

theorem Passes.last (h : begun.advanceAll? c events = some u) : Passes c begun (events ++ [e]) u :=
  ⟨events, List.prefix_append .., h⟩

/-- All rules that are asked for have run to their end on the document that was read from the file
at one moment of the run, with what was loaded at another. -/
def Completed (c : AuditConfig) (begun : ScheduledRun) (events : List RunEvent) (path : String)
    (r : FileResult) : Prop :=
  ∃ u v source inputs, Passes c begun events u ∧ Passes c begun events v ∧
    Source.read u.fs path = .ok source ∧ (c.inputs v.fs v.loader).1 = .ok inputs ∧
    Rule.run c.limits source c.rules inputs = .ok r.rules ∧ r.size = some source.size

theorem Completed.concat (h : Completed c begun events path r) :
    Completed c begun (events ++ [e]) path r := by
  obtain ⟨u, v, source, inputs, hu, hv, h⟩ := h
  exact ⟨u, v, source, inputs, hu.concat, hv.concat, h⟩

/-- What can become of a file. -/
inductive Concluded (c : AuditConfig) (begun : ScheduledRun) (events : List RunEvent)
    (path : String) : FileResult → Prop where
  | completed {size : Nat} {rules : List RuleResult}
    (h : Completed c begun events path (.completed path size c.schema rules .zero)) :
    Concluded c begun events path (.completed path size c.schema rules .zero)
  | failed (e : AuditError) : Concluded c begun events path (.failed path e .zero)
  | skipped : Concluded c begun events path (.skipped path AuditConfig.skipReason)

theorem Concluded.concat (h : Concluded c begun events path r) :
    Concluded c begun (events ++ [e]) path r := by
  cases h with
  | completed h => exact .completed h.concat
  | failed e => exact .failed e
  | skipped => exact .skipped

/-- What a task has got so far, it has got from the run. -/
def Obtained (c : AuditConfig) (begun : ScheduledRun) (events : List RunEvent) (path : String) :
    TaskPhase → Prop
  | .loading source => ∃ u, Passes c begun events u ∧ Source.read u.fs path = .ok source
  | .running source inputs =>
    (∃ u, Passes c begun events u ∧ Source.read u.fs path = .ok source) ∧
      ∃ v, Passes c begun events v ∧ (c.inputs v.fs v.loader).1 = .ok inputs
  | .checked r => Concluded c begun events path r
  | .decided r => Concluded c begun events path r
  | .ended r => Concluded c begun events path r
  | _ => True

variable {phase next : TaskPhase} {action : TaskAction}

theorem Obtained.concat (h : Obtained c begun events path phase) :
    Obtained c begun (events ++ [e]) path phase := by
  cases phase with
  | loading source =>
    obtain ⟨u, hu, hread⟩ := h
    exact ⟨u, hu.concat, hread⟩
  | running source inputs =>
    obtain ⟨⟨u, hu, hread⟩, v, hv, hinputs⟩ := h
    exact ⟨⟨u, hu.concat, hread⟩, v, hv.concat, hinputs⟩
  | checked r => exact Concluded.concat h
  | decided r => exact Concluded.concat h
  | ended r => exact Concluded.concat h
  | _ => trivial

theorem Obtained.move (hu : begun.advanceAll? c events = some u)
    (h : Obtained c begun events path phase) (hmove : TaskMove c u path action phase next) :
    Obtained c begun (events ++ [e]) path next := by
  cases hmove with
  | enter => trivial
  | skip => exact .skipped
  | begin => trivial
  | read hread => exact ⟨u, .last hu, hread⟩
  | unreadable => exact .failed _
  | load hinputs =>
    obtain ⟨v, hv, hread⟩ := h
    exact ⟨⟨v, hv.concat, hread⟩, u, .last hu, hinputs⟩
  | unloadable => exact .failed _
  | @run workers source inputs =>
    obtain ⟨⟨v, hv, hread⟩, w, hw, hinputs⟩ := h
    unfold Obtained
    cases hrun : workers.run c.limits source c.rules inputs with
    | error e => exact .failed e
    | ok rules =>
      -- rules that run to their end do so with any workers
      have hone : Rule.run c.limits source c.rules inputs = .ok rules :=
        (workers.sameUpToTask_run .one c.limits source inputs c.rules).eq_ok hrun
      exact .completed ⟨v, w, source, inputs, hv.concat, hw.concat, hread, hinputs, hone, rfl⟩
  | expire => exact .failed _
  | store => exact Concluded.concat h
  | release => exact Concluded.concat h

variable {permits k : Nat} {fs : FileSystem} {loader : SchemaLoader} {paths : List String}

theorem obtained_of_run
    (h : (start permits fs loader paths).advanceAll? c events = some s)
    (hpath : paths[k]? = some path) :
    Obtained c (start permits fs loader paths) events path (s.phaseAt k) := by
  refine run_induction
    (P := fun es u => Obtained c (start permits fs loader paths) es path (u.phaseAt k)) ?_ ?_ ?_ h
  · rw [phaseAt_start]
    trivial
  · intro es u fs loader hu
    exact hu.concat
  · intro es u i path' action v hrun hacts hu
    by_cases hk : k = i
    · subst hk
      have hsame : path' = path := by
        have hpath' := hacts.path_at
        rw [paths_eq hrun, hpath] at hpath'
        exact (Option.some.inj hpath').symm
      subst hsame
      exact hu.move hrun hacts.move
    · rw [hacts.phaseAt_eq k hk]
      exact hu.concat

/-- What has become of each file of a complete run. -/
theorem forall₂_concluded
    (h : (start permits fs loader paths).advanceAll? c events = some s)
    {results : List FileResult} (hresults : s.results? = some results) :
    List.Forall₂ (Concluded c (start permits fs loader paths) events) paths results := by
  have hphases := results?_eq_some_iff.mp hresults
  have hlength : paths.length = results.length := by
    rw [← length_phases h, hphases, List.length_map]
  rw [List.forall₂_iff_get]
  refine ⟨hlength, fun k hpath hresult => ?_⟩
  have hobtained := obtained_of_run (k := k) h (List.getElem?_eq_getElem hpath)
  have hphase : s.phaseAt k = .ended results[k] := by
    rw [phaseAt, hphases, List.getElem?_map, List.getElem?_eq_getElem hresult]
    rfl
  rw [hphase] at hobtained
  exact hobtained

/-! The status of a file -/

/-- The results of a check that came to its end are those of the rules that were asked for, and they
count the findings that they list. -/
theorem Completed.rules (h : Completed c begun events path r) :
    List.Forall₂ (fun rule x => x.name = rule.name ∧ x.valid = x.errors.isEmpty ∧
      x.errorCount = x.errors.length) c.rules r.rules := by
  obtain ⟨u, v, source, inputs, -, -, -, -, hrun, -⟩ := h
  exact (Rule.run_eq_ok_iff.mp hrun).imp fun _ _ => Rule.Gives.counts

theorem Completed.findingCount_eq (h : Completed c begun events path r) :
    FileResult.findingCount r.rules = r.listed.length := by
  have hcounts : ∀ x ∈ r.rules, x.errorCount = x.errors.length := by
    intro x hx
    obtain ⟨rule, -, -, -, hcount⟩ := exists_of_mem_forall₂ h.rules.flip hx
    exact hcount
  rw [FileResult.findingCount, FileResult.listed, List.map_congr_left hcounts, foldr_length_eq]

/-- The status of a file says what has become of its check. -/
structure Truthful (c : AuditConfig) (begun : ScheduledRun) (events : List RunEvent)
    (path : String) (r : FileResult) : Prop where
  path_eq : r.path = path
  valid_iff : r.status.isValid = true ↔
    Completed c begun events path r ∧ ∀ x ∈ r.rules, x.errors = []
  invalid_iff : r.status.isInvalid = true ↔
    Completed c begun events path r ∧ ∃ x ∈ r.rules, x.errors ≠ []
  errorCount_eq : r.errorCount = r.listed.length
  errorCount_pos : r.status.isInvalid = true → 0 < r.errorCount
  not_checked : r.status.isError = true ∨ r.status.isSkipped = true →
    r.rules = [] ∧ r.errorCount = 0
  rules_named : Completed c begun events path r →
    List.Forall₂ (fun rule x => x.name = rule.name) c.rules r.rules

theorem listed_eq_nil_iff : r.listed = [] ↔ ∀ x ∈ r.rules, x.errors = [] :=
  List.flatMap_eq_nil_iff

theorem truthful_of_completed {size : Nat} {rules : List RuleResult}
    (h : Completed c begun events path (.completed path size c.schema rules .zero)) :
    Truthful c begun events path (.completed path size c.schema rules .zero) := by
  have hcount := h.findingCount_eq
  have hresults := h.rules.imp fun _ _ hx => hx.1
  generalize hr : FileResult.completed path size c.schema rules .zero = r at *
  have hpath : r.path = path := by rw [← hr]; rfl
  have hstatus : r.status =
      if r.listed.length = 0 then .valid else .invalid r.listed.length := by
    rw [← hcount, ← hr]
    rfl
  have hnone := @listed_eq_nil_iff r
  have hsome : r.listed ≠ [] ↔ ∃ x ∈ r.rules, x.errors ≠ [] := by
    rw [Ne, hnone]
    simp only [not_forall, exists_prop, ne_eq]
  by_cases hzero : r.listed = []
  · rw [if_pos (List.length_eq_zero_iff.mpr hzero)] at hstatus
    exact {
      path_eq := hpath
      valid_iff := iff_of_true (by rw [hstatus]; rfl) ⟨h, hnone.mp hzero⟩
      invalid_iff := iff_of_false (by rw [hstatus]; decide) fun h => hsome.mpr h.2 hzero
      errorCount_eq := by rw [FileResult.errorCount, hstatus, hzero, List.length_nil]
      errorCount_pos := fun h => by rw [hstatus] at h; cases h
      not_checked := fun h => by rw [hstatus] at h; rcases h with h | h <;> cases h
      rules_named := fun _ => hresults }
  · rw [if_neg (mt List.length_eq_zero_iff.mp hzero)] at hstatus
    exact {
      path_eq := hpath
      valid_iff := iff_of_false (by rw [hstatus]; exact Bool.false_ne_true)
        fun h => hzero (hnone.mpr h.2)
      invalid_iff := iff_of_true (by rw [hstatus]; rfl) ⟨h, hsome.mp hzero⟩
      errorCount_eq := by rw [FileResult.errorCount, hstatus]
      errorCount_pos := fun _ => by
        rw [FileResult.errorCount, hstatus]
        exact List.length_pos_iff.mpr hzero
      not_checked := fun h => by rw [hstatus] at h; rcases h with h | h <;> cases h
      rules_named := fun _ => hresults }

theorem truthful_of_not_checked (hpath : r.path = path) (hsize : r.size = none)
    (hrules : r.rules = []) (hstatus : r.status.isError = true ∨ r.status.isSkipped = true) :
    Truthful c begun events path r := by
  have hnot : ¬Completed c begun events path r := by
    rintro ⟨u, v, source, inputs, -, -, -, -, -, hsome⟩
    rw [hsize] at hsome
    cases hsome
  have hvalid : r.status.isValid ≠ true := by
    cases hs : r.status <;> simp [hs, FileStatus.isError, FileStatus.isSkipped,
      FileStatus.isValid] at hstatus ⊢
  have hinvalid : r.status.isInvalid ≠ true := by
    cases hs : r.status <;> simp [hs, FileStatus.isError, FileStatus.isSkipped,
      FileStatus.isInvalid] at hstatus ⊢
  have hcount : r.errorCount = 0 := by
    unfold FileResult.errorCount
    cases hs : r.status <;> simp [hs, FileStatus.isInvalid] at hinvalid ⊢
  exact {
    path_eq := hpath
    valid_iff := iff_of_false hvalid fun h => hnot h.1
    invalid_iff := iff_of_false hinvalid fun h => hnot h.1
    errorCount_eq := by
      rw [hcount, FileResult.listed, hrules]
      rfl
    errorCount_pos := fun h => absurd h hinvalid
    not_checked := fun _ => ⟨hrules, hcount⟩
    rules_named := fun h => absurd h hnot }

theorem Concluded.truthful (h : Concluded c begun events path r) :
    Truthful c begun events path r := by
  cases h with
  | completed h => exact truthful_of_completed h
  | failed e => exact truthful_of_not_checked rfl rfl rfl (.inl rfl)
  | skipped => exact truthful_of_not_checked rfl rfl rfl (.inr rfl)

/-- Where a file is skipped, another one fails. -/
theorem exists_fails_of_mem_skipped
    (h : (start permits fs loader paths).advanceAll? c events = some s)
    {results : List FileResult} (hresults : s.results? = some results) (hr : r ∈ results)
    (hskip : r.status.isSkipped = true) : ∃ r ∈ results, r.Fails := by
  obtain ⟨k, hk⟩ := List.mem_iff_getElem?.mp hr
  rw [getElem?_results hresults] at hk
  obtain ⟨j, r', -, hr', hfails⟩ := exists_fails_of_halted h (halted_of_outcome h hk (.inl hskip))
  rw [← getElem?_results hresults] at hr'
  exact ⟨r', List.mem_of_getElem? hr', hfails⟩

/-- The exit code says whether all files are valid, some file could not be checked, or neither. -/
theorem report_code (p : PreparedRun) {results : List FileResult}
    (h : (start permits fs loader paths).advanceAll? c events = some s)
    (hresults : s.results? = some results) (colors : Bool) (now : Timestamp) :
    ((p.report results colors now).code = 0 ↔ ∀ r ∈ results, r.status.isValid = true) ∧
      ((p.report results colors now).code = 2 ↔ ∃ r ∈ results, r.status.isError = true) ∧
      ((p.report results colors now).code = 1 ↔ ¬(∀ r ∈ results, r.status.isValid = true) ∧
        ¬∃ r ∈ results, r.status.isError = true) := by
  have hvalid : (∀ r ∈ results, ¬r.Fails) ↔ ∀ r ∈ results, r.status.isValid = true := by
    constructor
    · intro hfails r hr
      by_contra hbad
      -- a file that is neither valid nor fails is skipped, and then another one fails
      have hskip : r.status.isSkipped = true := by
        by_contra hskip
        exact hfails r hr (FileResult.fails_iff.mpr ⟨by simpa using hbad, by simpa using hskip⟩)
      obtain ⟨r', hr', hfails'⟩ := exists_fails_of_mem_skipped h hresults hr hskip
      exact hfails r' hr' hfails'
    · intro hall r hr hfails
      have hbad := (FileResult.fails_iff.mp hfails).1
      rw [hall r hr] at hbad
      cases hbad
  have hzero := AuditSummary.exitCode_eq_zero_iff.trans hvalid
  have htwo := @AuditSummary.exitCode_eq_two_iff results
  have hle := @AuditSummary.exitCode_le_two results
  refine ⟨hzero, htwo, ?_⟩
  rw [← hzero, ← htwo]
  change (AuditSummary.ofFiles results).exitCode = 1 ↔ _
  omega

/-- The same for the program, which checks its files in turn. -/
theorem outcome_code (p : PreparedRun) (fs : FileSystem) (colors : Bool) (now : Timestamp) :
    ((p.outcome fs colors now).code = 0 ↔
      ∀ r ∈ p.config.checkFiles fs (.ofRegistry p.registry) p.paths, r.status.isValid = true) ∧
    ((p.outcome fs colors now).code = 2 ↔
      ∃ r ∈ p.config.checkFiles fs (.ofRegistry p.registry) p.paths, r.status.isError = true) := by
  obtain ⟨events, s, hrun, hresults⟩ :=
    exists_run_checkFiles p.config 1 fs (.ofRegistry p.registry) p.paths
  obtain ⟨hzero, htwo, -⟩ := report_code p hrun hresults colors now
  exact ⟨hzero, htwo⟩

/-- What a complete run reports, in whatever order its tasks act, files and schemas change and
checks run out of time. -/
theorem run_reported_truthfully (p : PreparedRun) {permits : Nat} {fs : FileSystem}
    {loader : SchemaLoader} {events : List RunEvent} {s : ScheduledRun} {results : List FileResult}
    (h : (start permits fs loader p.paths).advanceAll? p.config events = some s)
    (hresults : s.results? = some results) :
    List.Forall₂ (Truthful p.config (start permits fs loader p.paths) events) p.paths results ∧
    ((AuditSummary.ofFiles results).total = p.paths.length ∧
      (AuditSummary.ofFiles results).valid + (AuditSummary.ofFiles results).invalid +
        (AuditSummary.ofFiles results).errors + (AuditSummary.ofFiles results).skipped =
          (AuditSummary.ofFiles results).total ∧
      (AuditSummary.ofFiles results).totalFindings = (results.flatMap (·.listed)).length) ∧
    ∀ colors now,
      ((p.report results colors now).code = 0 ↔ ∀ r ∈ results, r.status.isValid = true) ∧
      ((p.report results colors now).code = 2 ↔ ∃ r ∈ results, r.status.isError = true) ∧
      ((p.report results colors now).code = 1 ↔ ¬(∀ r ∈ results, r.status.isValid = true) ∧
        ¬∃ r ∈ results, r.status.isError = true) := by
  have htruthful := (forall₂_concluded h hresults).imp fun _ _ => Concluded.truthful
  have hlisted : ∀ r ∈ results, r.errorCount = r.listed.length := by
    intro r hr
    obtain ⟨path, -, htrue⟩ := exists_of_mem_forall₂ htruthful.flip hr
    exact htrue.errorCount_eq
  exact ⟨htruthful, ⟨htruthful.length_eq.symm, AuditSummary.counters_sum,
    AuditSummary.totalFindings_eq hlisted⟩, report_code p h hresults⟩

/-- A file with a document that has no frame defaults, and a path where there is no file. -/
def bareFile : FileSystem :=
  ⟨.directory [("doc.xml", .ofText "<r/>")], []⟩

def hastyRun : PreparedRun :=
  { config := { AuditConfig.default with rules := [.frameDefaultsLocale], failFast := true }
    registry := .ofDirectory "xsd"
    paths := ["doc.xml", "gone.xml"]
    format := .summary
    verbosity := .ofFlags false false }

def bareResult : FileResult :=
  .completed "doc.xml" 4 defaultSchema [.ofFindings .frameDefaultsLocale [missingFrameDefaults]]
    .zero

theorem checkFiles_bareFile : hastyRun.config.checkFiles bareFile (.ofRegistry hastyRun.registry)
    hastyRun.paths = [bareResult, .skipped "gone.xml" AuditConfig.skipReason] := by
  have hresolve : bareFile.resolve "doc.xml" = .ok ⟨["doc.xml"], .ofText "<r/>"⟩ := by
    have hsegments : PathName.segments "doc.xml" = ["doc.xml"] := by with_unfolding_all rfl
    rw [FileSystem.resolve_of_relative rfl (by decide) (by decide) (by decide)
      (by with_unfolding_all rfl) hsegments, FileSystem.follow_entry _ _ rfl (by decide)
      (by decide) rfl (by simp [FileEntry.ofText]), FileSystem.follow_nil]
    rfl
  have hread : Source.read bareFile "doc.xml" = .ok ⟨"doc.xml", some "doc.xml", "<r/>"⟩ := by
    have hname : PathName.name? "doc.xml" = some "doc.xml" := by with_unfolding_all rfl
    rw [Source.read, FileSystem.readText_of_resolve hresolve, hname]
    rfl
  have hparse : Source.parse ⟨"doc.xml", some "doc.xml", "<r/>"⟩ =
      .ok ⟨⟨⟨⟨0, "r", [], []⟩, []⟩, []⟩, ⟨#[0]⟩⟩ := by
    change (Source.ofText "doc.xml" "<r/>").parse = _
    rw [Source.parse_ofList]
    with_unfolding_all rfl
  have hrun : Rule.run .default ⟨"doc.xml", some "doc.xml", "<r/>"⟩ [.frameDefaultsLocale] .none =
      .ok [.ofFindings .frameDefaultsLocale [missingFrameDefaults]] := by
    rw [Rule.run_eq_ok_iff]
    refine .cons ⟨_, ?_, rfl⟩ .nil
    rw [Rule.finds, if_neg (by decide), hparse]
    with_unfolding_all rfl
  have hinputs : hastyRun.config.inputs bareFile (.ofRegistry hastyRun.registry) =
      (.ok .none, .ofRegistry hastyRun.registry) := by with_unfolding_all rfl
  have hcheck : hastyRun.config.checkFile bareFile (.ofRegistry hastyRun.registry) "doc.xml" =
      (bareResult, .ofRegistry hastyRun.registry) := by
    rw [AuditConfig.checkFile, Workers.checkFile, hread]
    simp only [Workers.checkLoaded, Workers.runRules, hinputs]
    change (hastyRun.config.conclude "doc.xml" _ (Rule.run .default _ [.frameDefaultsLocale] .none),
      SchemaLoader.ofRegistry hastyRun.registry) = _
    rw [hrun]
    rfl
  have hfirst : hastyRun.config.step bareFile ⟨.ofRegistry hastyRun.registry, false⟩ "doc.xml" =
      (bareResult, ⟨.ofRegistry hastyRun.registry, true⟩) := by
    rw [AuditConfig.step, if_neg (by decide), hcheck]
    rfl
  change hastyRun.config.checkFrom bareFile _ ["doc.xml", "gone.xml"] = _
  rw [AuditConfig.checkFrom, hfirst]
  rfl

/-- The second file is skipped after the first, and the exit code shows that not all is well. -/
theorem reported_truthfully_of_bareFile : ∃ events s,
    (start 4 bareFile (.ofRegistry hastyRun.registry) hastyRun.paths).advanceAll? hastyRun.config
        events = some s ∧
      s.results? = some [bareResult, .skipped "gone.xml" AuditConfig.skipReason] ∧
      Completed hastyRun.config (start 4 bareFile (.ofRegistry hastyRun.registry) hastyRun.paths)
        events "doc.xml" bareResult ∧
      (AuditSummary.ofFiles [bareResult, .skipped "gone.xml" AuditConfig.skipReason]).totalFindings
        = 1 ∧
      (hastyRun.report [bareResult, .skipped "gone.xml" AuditConfig.skipReason] false ⟨0, 0⟩).code
        = 1 := by
  obtain ⟨events, s, hrun, hresults⟩ := exists_run_checkFiles hastyRun.config 4 bareFile
    (.ofRegistry hastyRun.registry) hastyRun.paths
  rw [checkFiles_bareFile] at hresults
  obtain ⟨htruthful, ⟨-, -, hfindings⟩, hcode⟩ := run_reported_truthfully hastyRun hrun hresults
  refine ⟨events, s, hrun, hresults, ?_, hfindings, ?_⟩
  · obtain ⟨hfirst, -⟩ := List.forall₂_cons.mp htruthful
    exact (hfirst.invalid_iff.mp rfl).1
  · refine (hcode false ⟨0, 0⟩).2.2.mpr ⟨?_, ?_⟩
    · intro hall
      exact absurd (hall bareResult (List.mem_cons_self ..)) (by decide)
    · rintro ⟨r, hr, herror⟩
      rcases List.mem_pair.mp hr with rfl | rfl
      · exact absurd herror (by decide)
      · exact absurd herror (by decide)

end ScheduledRun

end TransitAudit
