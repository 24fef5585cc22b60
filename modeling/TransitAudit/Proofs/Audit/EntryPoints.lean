import TransitAudit.Audit.Engine
import TransitAudit.Proofs.Document.Frames
import TransitAudit.Proofs.Files.Walk
import TransitAudit.Proofs.Key.Resolution
import TransitAudit.Proofs.Rule.Run
import TransitAudit.Proofs.Schema.Holding
import TransitAudit.Proofs.Task.Batch

/-! The ways into the integrity checks: directly with the text of a schema, by way of a loader, as
a list of rules, and as a file to audit. They find the same or fail in the same way. -/
namespace TransitAudit

/-! The checks one after another -/

/-- The rules that make up the integrity checks. -/
def Rule.integrity : List Rule :=
  [.uniqueConstraints, .keyrefConstraints, .increasingPassingTimes]

theorem inward_serviceJourneyPath : ∀ s ∈ serviceJourneyPath.steps, s.Inward := by
  unfold Path.Step.Inward
  decide

/-- Journeys are selected in document order just when they have one parent or start in the order in
which they stand. -/
theorem serviceJourneys_sublist_iff {d : ParsedDocument} {journeys : List Node}
    (h : d.rootNode.nodesAt serviceJourneysPath = .ok journeys) :
    ∃ parents, d.rootNode.nodesAt vehicleJourneysPath = .ok parents ∧
      (journeys.Sublist d.elements ↔ parents.length ≤ 1 ∨ d.StartAsTheyStand journeys) := by
  rw [nodesAt_serviceJourneysPath] at h
  rw [← Except.ok.inj h]
  refine ⟨_, nodesAt_vehicleJourneysPath _, ?_⟩
  exact Path.select_concat_sublist_iff inward_serviceJourneyPath

/-- In particular they are if all elements start in document order. -/
theorem serviceJourneys_sublist {d : ParsedDocument} (hd : d.StartsAscending)
    {journeys : List Node} (h : d.rootNode.nodesAt serviceJourneysPath = .ok journeys) :
    journeys.Sublist d.elements := by
  rw [nodesAt_serviceJourneysPath] at h
  rw [← Except.ok.inj h]
  exact Path.select_sublist hd inward_serviceJourneyPath

/-- The findings are those of every unique constraint, of every reference with its key, and of
every selected journey, one after another. Journeys are in document order just when they have one
parent or start in the order in which they stand. -/
def Integrity.Composed (d : ParsedDocument) (s : ConstraintSet) (findings : List Finding) : Prop :=
  ∃ uniques pairs keyrefs stopPoints journeys times,
    s.uniques.mapM (checkUnique · d.rootNode) = .ok uniques ∧
    s.keyrefPairs = .ok pairs ∧ pairs.map KeyrefPair.keyref = s.keyrefs ∧
    pairs.mapM (fun p => checkKeyref p.keyref p.key d.rootNode) = .ok keyrefs ∧
    StopPointIndex.build d.rootNode = .ok stopPoints ∧
    d.rootNode.nodesAt serviceJourneysPath = .ok journeys ∧
    (∃ parents, d.rootNode.nodesAt vehicleJourneysPath = .ok parents ∧
      (journeys.Sublist d.elements ↔ parents.length ≤ 1 ∨ d.StartAsTheyStand journeys)) ∧
    (d.StartsAscending → journeys.Sublist d.elements) ∧
    journeys.mapM (checkJourney · stopPoints .increasing) = .ok times ∧
    findings = uniques.flatten ++ keyrefs.flatten ++ times.flatten

theorem Integrity.composed_of_check {d : ParsedDocument} {s : ConstraintSet}
    {findings : List Finding} (h : check d s = .ok findings) : Composed d s findings := by
  obtain ⟨us, hus, ks, hks, ts, hts, rfl⟩ := check_eq_ok_iff.mp h
  obtain ⟨uniques, huniques, rfl⟩ := uniqueConstraints_eq_ok_iff.mp hus
  obtain ⟨pairs, hpairs, keyrefs, hkeyrefs, rfl⟩ := keyrefConstraints_eq_ok_iff.mp hks
  obtain ⟨stopPoints, hstop, journeys, hjourneys, times, htimes, rfl⟩ :=
    passingTimes_eq_ok_iff.mp hts
  exact ⟨uniques, pairs, keyrefs, stopPoints, journeys, times, huniques, hpairs,
    ConstraintSet.keyrefs_of_keyrefPairs hpairs, hkeyrefs, hstop, hjourneys,
    serviceJourneys_sublist_iff hjourneys, fun hd => serviceJourneys_sublist hd hjourneys, htimes, rfl⟩

/-! The checks as a list of rules -/

theorem Rule.run_integrity {limits : DistanceLimits} {source : Source} {d : ParsedDocument}
    (hd : source.parse = .ok d) (s : ConstraintSet) (grammar : Option Grammar) :
    Rule.run limits source Rule.integrity ⟨some s, grammar⟩ =
      Rule.integrity.mapM fun r =>
        (r.check limits ⟨some s, grammar⟩ d.rootNode).map (RuleResult.ofFindings r) := by
  rw [run_eq_runUntil, runUntil_eq]
  change (source.parse.map some >>= _) = _
  rw [hd]
  change Workers.one.runFrom _ _ _ _ _ 0 _ = _
  rw [runFrom_eq_mapM]
  rfl

/-- The rules find what the checks find, or fail as they do. -/
theorem Rule.errors_run_integrity (limits : DistanceLimits) {source : Source} {d : ParsedDocument}
    (hd : source.parse = .ok d) (s : ConstraintSet) (grammar : Option Grammar) :
    (Rule.run limits source Rule.integrity ⟨some s, grammar⟩).map (·.flatMap (·.errors)) =
      Integrity.check d s := by
  have huniques : Rule.check .uniqueConstraints limits ⟨some s, grammar⟩ d.rootNode =
      Integrity.uniqueConstraints d.rootNode s := rfl
  have hkeyrefs : Rule.check .keyrefConstraints limits ⟨some s, grammar⟩ d.rootNode =
      Integrity.keyrefConstraints d.rootNode s := rfl
  have htimes : Rule.check .increasingPassingTimes limits ⟨some s, grammar⟩ d.rootNode =
      Integrity.passingTimes d.rootNode .increasing := rfl
  rw [run_integrity hd, Integrity.check, integrity, List.mapM_cons, List.mapM_cons, List.mapM_cons,
    List.mapM_nil, huniques, hkeyrefs, htimes]
  cases Integrity.uniqueConstraints d.rootNode s with
  | error e => rfl
  | ok uniques =>
    cases Integrity.keyrefConstraints d.rootNode s with
    | error e => rfl
    | ok keyrefs =>
      cases Integrity.passingTimes d.rootNode .increasing with
      | error e => rfl
      | ok times =>
        change Except.ok (uniques ++ (keyrefs ++ (times ++ []))) =
          Except.ok (uniques ++ keyrefs ++ times)
        rw [List.append_nil, List.append_assoc]

/-- Each result counts its findings. -/
theorem FileResult.findingCount_of_mapM {f : Rule → Except AuditError (List Finding)}
    {rules : List Rule} {results : List RuleResult}
    (h : rules.mapM (fun r => (f r).map (RuleResult.ofFindings r)) = .ok results) :
    findingCount results = (results.flatMap (·.errors)).length := by
  have hcount : ∀ r ∈ results, r.errorCount = r.errors.length := by
    intro r hr
    obtain ⟨rule, -, hrule⟩ := exists_of_mem_mapM h hr
    obtain ⟨errors, -, rfl⟩ := map_eq_ok_iff.mp hrule
    rfl
  clear h
  unfold findingCount
  induction results with
  | nil => rfl
  | cons r results ih =>
    rw [List.map_cons, List.foldr_cons, List.flatMap_cons, List.length_append,
      hcount r List.mem_cons_self, ih fun r hr => hcount r (List.mem_cons_of_mem _ hr)]

/-- Where the checks succeed, three rules report their findings. -/
theorem Rule.run_integrity_of_check {source : Source} {d : ParsedDocument}
    (hd : source.parse = .ok d) {s : ConstraintSet} {findings : List Finding}
    (h : Integrity.check d s = .ok findings) (limits : DistanceLimits) (grammar : Option Grammar) :
    ∃ results, Rule.run limits source Rule.integrity ⟨some s, grammar⟩ = .ok results ∧
      results.length = 3 ∧ results.flatMap (·.errors) = findings ∧
        FileResult.findingCount results = findings.length := by
  have herrors := Rule.errors_run_integrity limits hd s grammar
  rw [h] at herrors
  obtain ⟨results, hresults, hflat⟩ := map_eq_ok_iff.mp herrors
  have hmap := hresults
  rw [Rule.run_integrity hd] at hmap
  refine ⟨results, hresults, length_eq_of_mapM hmap, hflat, ?_⟩
  rw [FileResult.findingCount_of_mapM hmap, hflat]

theorem Rule.run_integrity_of_check_error {source : Source} {d : ParsedDocument}
    (hd : source.parse = .ok d) {s : ConstraintSet} {e : AuditError}
    (h : Integrity.check d s = .error e) (limits : DistanceLimits) (grammar : Option Grammar) :
    Rule.run limits source Rule.integrity ⟨some s, grammar⟩ = .error e := by
  have herrors := Rule.errors_run_integrity limits hd s grammar
  rw [h] at herrors
  exact map_eq_error_iff.mp herrors

/-! Auditing a document -/

/-- The rules that make up the checks need the constraints of the schema, and no grammar. -/
theorem Workers.runRules_integrity {c : AuditConfig} (hc : c.rules = Rule.integrity)
    (fs : FileSystem) (l : SchemaLoader) (source : Source) :
    (one.runRules c fs l source).1 = (l.constraints fs c.schema).1 >>= fun s =>
      Rule.run c.limits source Rule.integrity ⟨some s, none⟩ := by
  rw [runRules, AuditConfig.inputs, hc]
  have hconstraints : Rule.integrity.any (·.needsConstraints) = true := rfl
  have hgrammar : Rule.integrity.any (·.needsGrammar) = false := rfl
  rw [hconstraints, hgrammar]
  generalize l.constraints fs c.schema = found
  obtain ⟨answer, next⟩ := found
  cases answer with
  | error e => rfl
  | ok s => rfl

theorem AuditConfig.status_of_runRules {c : AuditConfig} {fs : FileSystem} {l : SchemaLoader}
    {source : Source} {results : List RuleResult}
    (h : (Workers.one.runRules c fs l source).1 = .ok results) :
    (c.checkDocument fs l source).1.status =
      if FileResult.findingCount results = 0 then .valid
      else .invalid (FileResult.findingCount results) := by
  rw [checkDocument, Workers.checkLoaded]
  generalize Workers.one.runRules c fs l source = ran at h
  obtain ⟨answer, next⟩ := ran
  obtain rfl : answer = .ok results := h
  rfl

theorem AuditConfig.status_of_runRules_error {c : AuditConfig} {fs : FileSystem}
    {l : SchemaLoader} {source : Source} {e : AuditError}
    (h : (Workers.one.runRules c fs l source).1 = .error e) :
    (c.checkDocument fs l source).1.status = .error e.message := by
  rw [checkDocument, Workers.checkLoaded]
  generalize Workers.one.runRules c fs l source = ran at h
  obtain ⟨answer, next⟩ := ran
  obtain rfl : answer = .error e := h
  rfl

theorem Integrity.validateLoaded_eq {fs : FileSystem} {l : SchemaLoader} {schema : SchemaSource}
    (hl : l.Holds fs schema) {source : Source} {d : ParsedDocument} (hd : source.parse = .ok d) :
    (validateLoaded fs l schema.identifier source).1 = validate d schema := by
  have hc := hl.constraints_eq
  -- the constraints are asked for before the document is parsed, and the parse succeeds
  rw [validateLoaded, validate, ← hc]
  generalize l.constraints fs schema.identifier = asked
  obtain ⟨answer, next⟩ := asked
  dsimp only
  rw [hd]
  rfl

/-- However the checks are entered, they find the same, or fail in the same way. -/
theorem entry_points_agree (schema : SchemaSource) (source : Source) (d : ParsedDocument)
    (hd : source.parse = .ok d) (fs : FileSystem) (l : SchemaLoader) (hl : l.Holds fs schema)
    (c : AuditConfig) (hrules : c.rules = Rule.integrity) (hschema : c.schema = schema.identifier) :
    (∀ findings, Integrity.validate d schema = .ok findings →
      ∃ s, schema.constraints = .ok s ∧ Integrity.Composed d s findings ∧
        (Integrity.validateLoaded fs l schema.identifier source).1 = .ok findings ∧
        (∀ limits grammar, ∃ results,
          Rule.run limits source Rule.integrity ⟨some s, grammar⟩ = .ok results ∧
            results.length = 3 ∧ results.flatMap (·.errors) = findings) ∧
        (c.checkDocument fs l source).1.status =
          (if findings.isEmpty then .valid else .invalid findings.length)) ∧
    ∀ e, Integrity.validate d schema = .error e →
      (Integrity.validateLoaded fs l schema.identifier source).1 = .error e ∧
        (∀ s, schema.constraints = .ok s → ∀ limits grammar,
          Rule.run limits source Rule.integrity ⟨some s, grammar⟩ = .error e) ∧
        (c.checkDocument fs l source).1.status = .error e.message := by
  have hrun : (Workers.one.runRules c fs l source).1 = schema.constraints >>= fun s =>
      Rule.run c.limits source Rule.integrity ⟨some s, none⟩ := by
    rw [Workers.runRules_integrity hrules, hschema, hl.constraints_eq]
  rw [Integrity.validateLoaded_eq hl hd]
  constructor
  · intro findings h
    obtain ⟨s, hs, hcheck⟩ := bind_eq_ok_iff.mp h
    refine ⟨s, hs, Integrity.composed_of_check hcheck, h, ?_, ?_⟩
    · intro limits grammar
      obtain ⟨results, hresults, hlength, hflat, -⟩ :=
        Rule.run_integrity_of_check hd hcheck limits grammar
      exact ⟨results, hresults, hlength, hflat⟩
    · obtain ⟨results, hresults, -, -, hcount⟩ :=
        Rule.run_integrity_of_check hd hcheck c.limits none
      rw [hs] at hrun
      rw [AuditConfig.status_of_runRules (hrun.trans hresults), hcount]
      cases findings <;> rfl
  · intro e h
    rw [Integrity.validate] at h
    refine ⟨h, ?_, ?_⟩
    · intro s hs limits grammar
      rw [hs] at h
      exact Rule.run_integrity_of_check_error hd h limits grammar
    · apply AuditConfig.status_of_runRules_error
      rw [hrun]
      -- the schema cannot be read, or it can and a check fails
      cases hs : schema.constraints with
      | error e' =>
        rw [hs] at h
        cases h
        rfl
      | ok s =>
        rw [hs] at h
        exact Rule.run_integrity_of_check_error hd h c.limits none

/-- A schema with one unique constraint, whose paths are `a` and `@i`. -/
def uniqueSchema : SchemaSource :=
  ⟨"s", "xsd/s.xsd", "<s><unique name='U'><selector xpath='a'/><field xpath='@i'/></unique></s>"⟩

def uniqueSchemaTree : ParsedDocument :=
  ⟨⟨⟨⟨0, "s", [], []⟩, [.element ⟨3, "unique", [⟨"name", none, "U"⟩], []⟩
    [.element ⟨20, "selector", [⟨"xpath", none, "a"⟩], []⟩ [],
      .element ⟨41, "field", [⟨"xpath", none, "@i"⟩], []⟩ []]]⟩, []⟩, ⟨#[0]⟩⟩

def uniqueSchemaFiles : FileSystem :=
  ⟨.directory [("xsd", .directory [("s.xsd", .ofText uniqueSchema.text)])], []⟩

def uniqueSchemaLoader : SchemaLoader :=
  .ofRegistry ((SchemaRegistry.ofDirectory "xsd").withVersion "s" "s.xsd")

theorem uniqueSchemaLoader_holds : uniqueSchemaLoader.Holds uniqueSchemaFiles uniqueSchema := by
  have hresolve : uniqueSchemaFiles.resolve "xsd/s.xsd" =
      .ok ⟨["xsd", "s.xsd"], .ofText uniqueSchema.text⟩ := by
    have hsegments : PathName.segments "xsd/s.xsd" = ["xsd", "s.xsd"] := by with_unfolding_all rfl
    rw [FileSystem.resolve_of_relative rfl (by decide) (by decide) (by decide)
        (by with_unfolding_all rfl) hsegments,
      FileSystem.follow_entry _ _ rfl (by decide) (by decide) rfl (by simp),
      FileSystem.follow_entry _ _ rfl (by decide) (by decide) rfl (by simp [FileEntry.ofText]),
      FileSystem.follow_nil]
    rfl
  exact SchemaLoader.Holds.of_file (by with_unfolding_all rfl)
    (FileSystem.readText_of_resolve hresolve) rfl rfl

/-- The text `<r><a i='1'/><a i='1'/></r>`. -/
def repeatedItem : ParsedDocument :=
  ⟨⟨⟨⟨0, "r", [], []⟩, [.element ⟨3, "a", [⟨"i", none, "1"⟩], []⟩ [],
    .element ⟨13, "a", [⟨"i", none, "1"⟩], []⟩ []]⟩, []⟩, ⟨#[0]⟩⟩

def integrityAudit : AuditConfig :=
  { AuditConfig.default with schema := "s", rules := Rule.integrity }

theorem entry_points_agree_on_repeated_item :
    (Source.ofText "doc.xml" "<r><a i='1'/><a i='1'/></r>").parse = .ok repeatedItem ∧
      uniqueSchemaLoader.Holds uniqueSchemaFiles uniqueSchema ∧
      ∃ f, Integrity.validate repeatedItem uniqueSchema = .ok [f] ∧
        (Integrity.validateLoaded uniqueSchemaFiles uniqueSchemaLoader "s"
          (Source.ofText "doc.xml" "<r><a i='1'/><a i='1'/></r>")).1 = .ok [f] ∧
        (integrityAudit.checkDocument uniqueSchemaFiles uniqueSchemaLoader
          (Source.ofText "doc.xml" "<r><a i='1'/><a i='1'/></r>")).1.status = .invalid 1 := by
  have hd : (Source.ofText "doc.xml" "<r><a i='1'/><a i='1'/></r>").parse = .ok repeatedItem := by
    rw [Source.parse_ofList]
    with_unfolding_all rfl
  have htree : uniqueSchema.parse = .ok uniqueSchemaTree := by
    have hsource : (Source.ofText "s" uniqueSchema.text).parse = .ok uniqueSchemaTree := by
      rw [uniqueSchema, Source.parse_ofList]
      with_unfolding_all rfl
    have hidentifier : uniqueSchema.identifier = "s" := rfl
    rw [SchemaSource.parse, hidentifier, hsource]
  have hset : uniqueSchema.constraints = .ok ⟨[], [], [⟨"U", .unique, "a", ["@i"], none, 1⟩]⟩ :=
    bind_eq_ok_iff.mpr ⟨_, htree, by with_unfolding_all rfl⟩
  have hstop : StopPointIndex.build repeatedItem.rootNode = .ok ⟨[]⟩ := by
    rw [StopPointIndex.build, nodesAt_stopPointsPath]
    with_unfolding_all rfl
  have hjourneys : repeatedItem.rootNode.nodesAt serviceJourneysPath = .ok [] := by
    rw [nodesAt_serviceJourneysPath]
    with_unfolding_all rfl
  have htimes : Integrity.passingTimes repeatedItem.rootNode .increasing = .ok [] :=
    Integrity.passingTimes_eq_ok_iff.mpr ⟨_, hstop, [], hjourneys, [], rfl, rfl⟩
  have huniques : Integrity.uniqueConstraints repeatedItem.rootNode
      ⟨[], [], [⟨"U", .unique, "a", ["@i"], none, 1⟩]⟩ =
        .ok [duplicateFinding ⟨"U", .unique, "a", ["@i"], none, 1⟩ ⟨"1"⟩ 1] := by
    with_unfolding_all rfl
  have hvalid := bind_eq_ok_iff.mpr ⟨_, hset,
    Integrity.check_eq_ok_iff.mpr ⟨_, huniques, [], rfl, [], htimes, rfl⟩⟩
  obtain ⟨_, -, -, hloaded, -, hstatus⟩ := (entry_points_agree uniqueSchema _ _ hd
    uniqueSchemaFiles _ uniqueSchemaLoader_holds integrityAudit rfl rfl).1 _ hvalid
  exact ⟨hd, uniqueSchemaLoader_holds, _, hvalid, hloaded, hstatus⟩

/-- A journey with one passing time that refers to no stop point. -/
def unboundJourney (start : Nat) (id : String) : Xml.Content :=
  .element ⟨start, "ServiceJourney", [⟨"id", none, id⟩], []⟩
    [.element ⟨start + 23, "passingTimes", [], []⟩
      [.element ⟨start + 37, "TimetabledPassingTime", [], []⟩ []]]

def unboundFinding (id : String) : Finding :=
  (Finding.consistency ("Missing StopPointInJourneyPatternRef in " ++
    s!"ServiceJourney(@id={id}), TimetabledPassingTime(@id=)")).withLine 1

/-- Two journeys, of which the second stands in an entity. -/
def journeyFromEntity : ParsedDocument :=
  ⟨⟨⟨⟨122, "p", [], []⟩, [.element ⟨125, "dataObjects", [], []⟩
    [.element ⟨138, "CompositeFrame", [], []⟩ [.element ⟨154, "frames", [], []⟩
      [.element ⟨162, "TimetableFrame", [], []⟩
        [.element ⟨178, "vehicleJourneys", [], []⟩ [unboundJourney 195 "A"],
          .element ⟨306, "vehicleJourneys", [], []⟩ [unboundJourney 25 "B"]]]]]]⟩, []⟩, ⟨#[0]⟩⟩

def unconstrained : SchemaSource :=
  ⟨"schema", "schema.xsd", "<s/>"⟩

set_option maxRecDepth 4000 in
/-- The journey that an entity brings in is the later one in the document, but it starts where the
entity is declared, and so it is checked first. -/
theorem journey_from_entity_checked_first :
    (Source.ofText "doc.xml" ("<!DOCTYPE p [<!ENTITY j '<ServiceJourney id=\"B\"><passingTimes>" ++
        "<TimetabledPassingTime/></passingTimes></ServiceJourney>'>]><p><dataObjects>" ++
        "<CompositeFrame><frames><TimetableFrame><vehicleJourneys><ServiceJourney id='A'>" ++
        "<passingTimes><TimetabledPassingTime/></passingTimes></ServiceJourney></vehicleJourneys>" ++
        "<vehicleJourneys>&j;</vehicleJourneys></TimetableFrame></frames></CompositeFrame>" ++
        "</dataObjects></p>")).parse = .ok journeyFromEntity ∧
      unboundFinding "A" ≠ unboundFinding "B" ∧
      ∃ a b, journeyFromEntity.elements.filter (·.name == "ServiceJourney") = [a, b] ∧
        journeyFromEntity.rootNode.nodesAt serviceJourneysPath = .ok [b, a] ∧
        StopPointIndex.build journeyFromEntity.rootNode = .ok ⟨[]⟩ ∧
        checkJourney a ⟨[]⟩ .increasing = .ok [unboundFinding "A"] ∧
        checkJourney b ⟨[]⟩ .increasing = .ok [unboundFinding "B"] ∧
        Integrity.validate journeyFromEntity unconstrained =
          .ok [unboundFinding "B", unboundFinding "A"] := by
  have hset : unconstrained.constraints = .ok ⟨[], [], []⟩ := by with_unfolding_all rfl
  have hne : (unboundFinding "A").message ≠ (unboundFinding "B").message := by decide +kernel
  have hstop : StopPointIndex.build journeyFromEntity.rootNode = .ok ⟨[]⟩ := by
    rw [StopPointIndex.build, nodesAt_stopPointsPath]
    with_unfolding_all rfl
  have hjourneys : ∃ a b,
      journeyFromEntity.elements.filter (·.name == "ServiceJourney") = [a, b] ∧
        journeyFromEntity.rootNode.nodesAt serviceJourneysPath = .ok [b, a] ∧
        checkJourney a ⟨[]⟩ .increasing = .ok [unboundFinding "A"] ∧
        checkJourney b ⟨[]⟩ .increasing = .ok [unboundFinding "B"] := by
    refine ⟨_, _, rfl, ?_, ?_, ?_⟩
    · rw [nodesAt_serviceJourneysPath]
      apply congrArg Except.ok
      refine Eq.trans ?_ (Path.normalize_pair ?_)
      · with_unfolding_all rfl
      · decide
    · with_unfolding_all rfl
    · with_unfolding_all rfl
  obtain ⟨a, b, helements, hselected, ha, hb⟩ := hjourneys
  have htimes := Integrity.passingTimes_eq_ok_iff.mpr
    ⟨_, hstop, _, hselected, _, mapM_eq_ok_iff.mpr (.cons hb (.cons ha .nil)), rfl⟩
  refine ⟨?_, fun h => hne (congrArg Finding.message h), a, b, helements, hselected, hstop, ha, hb,
    ?_⟩
  · rw [← String.ofList_append, ← String.ofList_append, ← String.ofList_append,
      ← String.ofList_append, ← String.ofList_append, Source.parse_ofList]
    with_unfolding_all rfl
  · exact bind_eq_ok_iff.mpr ⟨_, hset,
      Integrity.check_eq_ok_iff.mpr ⟨[], rfl, [], rfl, _, htimes, rfl⟩⟩

end TransitAudit
