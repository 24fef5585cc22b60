import TransitAudit.Proofs.Journey.Forward

/-! The findings of a journey by the passing times that they are about. What a passing time gives
rise to is decided by itself and the one before it, so another one in its place changes the findings
there and at the next passing time, and nowhere else. -/
namespace TransitAudit

/-! The findings at one passing time -/

def stopPointRefPath : String := "StopPointInJourneyPatternRef/@ref"

/-- The reference to a stop point is absent, blank, or not in the index. -/
def StopPointIndex.Misses (stopPoints : StopPointIndex) (reference? : Option String) : Prop :=
  ∀ reference ∈ reference?, Text.trimmed reference = "" ∨
    stopPoints.contains (Text.trimmed reference) = false

/-- On each topic at most one finding about it alone, in the order of the topics and with the line
of the passing time; on the stop point one just when the reference to it fails. -/
def ReportedAt (stopPoints : StopPointIndex) (n : Node) (fs : List Finding) : Prop :=
  ∃ about : JourneyTopic → Option Finding, fs = JourneyTopic.all.filterMap about ∧
    (∀ topic, ∀ f ∈ about topic,
      f.line = some n.line ∧ ∀ other, f.Concerns other ↔ other = topic) ∧
    ∃ reference?, n.stringAt? stopPointRefPath = .ok reference? ∧
      ((about .stopPoint).isSome ↔ stopPoints.Misses reference?)

theorem PassingTime.read_eq_ok {n : Node} {p : PassingTime} (h : read n = .ok p) :
    p.line = n.line ∧ ∃ reference?, n.stringAt? stopPointRefPath = .ok reference? ∧
      p.stopPoint = (reference?.map Text.trimmed).filter (!·.isEmpty) := by
  rw [read, bind_eq_ok_iff] at h
  obtain ⟨stopPoint, hstop, h⟩ := h
  obtain ⟨arrivalTime, -, h⟩ := bind_eq_ok_iff.mp h
  obtain ⟨arrivalOffset, -, h⟩ := bind_eq_ok_iff.mp h
  obtain ⟨departureTime, -, h⟩ := bind_eq_ok_iff.mp h
  obtain ⟨departureOffset, -, h⟩ := bind_eq_ok_iff.mp h
  cases h
  obtain ⟨reference?, href, h⟩ := bind_eq_ok_iff.mp hstop
  cases h
  exact ⟨rfl, reference?, href, rfl⟩

theorem stopPointFindings_eq_nil_iff {stopPoints : StopPointIndex} {location : String}
    {p : PassingTime} : stopPointFindings stopPoints location p = [] ↔
      ∃ id, p.stopPoint = some id ∧ stopPoints.contains id = true := by
  unfold stopPointFindings
  cases p.stopPoint with
  | none => simp
  | some id => simp

/-- What is read of a blank reference is none, so that no index has it. -/
theorem StopPointIndex.misses_iff {stopPoints : StopPointIndex} {reference? : Option String} :
    stopPoints.Misses reference? ↔
      ¬ ∃ id, (reference?.map Text.trimmed).filter (!·.isEmpty) = some id ∧
        stopPoints.contains id = true := by
  cases reference? with
  | none => simp [Misses]
  | some reference =>
    simp only [Misses, Option.map_some, Option.filter_some]
    by_cases hblank : Text.trimmed reference = ""
    · simp [hblank]
    · simp [hblank]

namespace PassingStep

variable {s : PassingStep} {stopPoints : StopPointIndex} {mode : Monotonicity}

/-- The finding of a step on a topic, if there is one. -/
def report? (s : PassingStep) (stopPoints : StopPointIndex) (mode : Monotonicity)
    (topic : JourneyTopic) : Option Finding :=
  (s.reports stopPoints mode topic).head?

theorem reports_eq_toList (topic : JourneyTopic) :
    s.reports stopPoints mode topic = (s.report? stopPoints mode topic).toList := by
  rw [report?]
  rcases tells_reports s stopPoints mode topic with h | ⟨f, h, -⟩
  · rw [h]
    rfl
  · rw [h]
    rfl

theorem findings_eq_filterMap :
    s.findings stopPoints mode = JourneyTopic.all.filterMap (s.report? stopPoints mode) := by
  rw [findings_eq_flatMap, List.filterMap_eq_flatMap_toList]
  exact List.flatMap_congr fun topic _ => reports_eq_toList topic

theorem report?_isSome_iff {topic : JourneyTopic} :
    (s.report? stopPoints mode topic).isSome ↔ s.reports stopPoints mode topic ≠ [] := by
  rw [reports_eq_toList]
  cases s.report? stopPoints mode topic <;> simp

theorem of_mem_report? {topic : JourneyTopic} {f : Finding}
    (hf : f ∈ s.report? stopPoints mode topic) :
    f.line = some s.current.line ∧ ∀ other, f.Concerns other ↔ other = topic := by
  have hreports : s.reports stopPoints mode topic = [f] := by
    rw [reports_eq_toList, Option.mem_def.mp hf]
    rfl
  rcases tells_reports s stopPoints mode topic with h | ⟨g, h, hconcerns, hline⟩
  · cases h.symm.trans hreports
  · cases h.symm.trans hreports
    refine ⟨hline, fun other => ⟨fun hother => hother.eq hconcerns, ?_⟩⟩
    rintro rfl
    exact hconcerns

theorem reportedAt {n : Node} (h : PassingTime.read n = .ok s.current) :
    ReportedAt stopPoints n (s.findings stopPoints mode) := by
  obtain ⟨hline, reference?, href, hstop⟩ := PassingTime.read_eq_ok h
  refine ⟨s.report? stopPoints mode, findings_eq_filterMap, ?_, reference?, href, ?_⟩
  · intro topic f hf
    rw [← hline]
    exact of_mem_report? hf
  · rw [report?_isSome_iff, reports, ne_eq, stopPointFindings_eq_nil_iff, hstop,
      StopPointIndex.misses_iff]

end PassingStep

/-! The run over a journey -/

/-- The findings at each passing time of a journey. -/
def findingsByPosition (stopPoints : StopPointIndex) (mode : Monotonicity) (journey : Node)
    (ps : List PassingTime) : List (List Finding) :=
  (journeySteps journey ps).map (·.findings stopPoints mode)

theorem map_current_stepsAfter (journeyId : String) (previous? : Option PassingTime)
    (ps : List PassingTime) : (stepsAfter journeyId previous? ps).map (·.current) = ps := by
  induction ps generalizing previous? with
  | nil => rfl
  | cons p ps ih => rw [stepsAfter_cons, List.map_cons, ih]

theorem reportedAt_findingsByPosition {journey : Node} {nodes : List Node} {ps : List PassingTime}
    (h : nodes.mapM PassingTime.read = .ok ps) (stopPoints : StopPointIndex)
    (mode : Monotonicity) :
    List.Forall₂ (ReportedAt stopPoints) nodes (findingsByPosition stopPoints mode journey ps) := by
  have hread := mapM_eq_ok_iff.mp h
  rw [← map_current_stepsAfter ((journey.attr? "id").getD "") none ps,
    List.forall₂_map_right_iff] at hread
  rw [findingsByPosition, List.forall₂_map_right_iff]
  exact hread.imp fun n s hs => PassingStep.reportedAt hs

theorem findingsByPosition_getElem?_congr {j j' : Node} (hid : j.attr? "id" = j'.attr? "id")
    {ps ps' : List PassingTime} {i : Nat} (hi : ps[i]? = ps'[i]?)
    (hbefore : i ≠ 0 → ps[i - 1]? = ps'[i - 1]?) (stopPoints : StopPointIndex)
    (mode : Monotonicity) :
    (findingsByPosition stopPoints mode j ps)[i]? =
      (findingsByPosition stopPoints mode j' ps')[i]? := by
  -- the first passing time has none before it, whatever the journey
  have hprevious : (if i = 0 then none else ps[i - 1]?) = if i = 0 then none else ps'[i - 1]? := by
    split
    · rfl
    · exact hbefore ‹_›
  rw [findingsByPosition, findingsByPosition, List.getElem?_map, List.getElem?_map, journeySteps,
    journeySteps, getElem?_stepsAfter_none, getElem?_stepsAfter_none, hid, hi, hprevious]

/-- The findings of a journey are those at its passing times, one after another. Journeys with the
same id whose passing times differ in one position have the same findings except there and right
behind it. -/
theorem journey_findings_local (stopPoints : StopPointIndex) (mode : Monotonicity) :
    (∀ journey, ∃ nodes ps,
      journey.nodesAt "passingTimes/TimetabledPassingTime" = .ok nodes ∧
      passingTimesOf journey = .ok ps ∧
      checkJourney journey stopPoints mode =
        .ok (findingsByPosition stopPoints mode journey ps).flatten ∧
      List.Forall₂ (ReportedAt stopPoints) nodes (findingsByPosition stopPoints mode journey ps)) ∧
    ∀ j j' ps ps' k, j.attr? "id" = j'.attr? "id" →
      passingTimesOf j = .ok ps → passingTimesOf j' = .ok ps' →
      (∀ i, i ≠ k → ps[i]? = ps'[i]?) → ∀ i, i ≠ k → i ≠ k + 1 →
        (findingsByPosition stopPoints mode j ps)[i]? =
          (findingsByPosition stopPoints mode j' ps')[i]? := by
  constructor
  · intro journey
    obtain ⟨ps, hps⟩ := exists_passingTimesOf journey
    obtain ⟨nodes, hnodes, hread⟩ := bind_eq_ok_iff.mp hps
    refine ⟨nodes, ps, hnodes, hps, ?_, reportedAt_findingsByPosition hread stopPoints mode⟩
    rw [checkJourney_of_passingTimesOf hps, List.flatMap_def, findingsByPosition]
  · intro j j' ps ps' k hid _ _ hps i hi hi'
    apply findingsByPosition_getElem?_congr hid (hps i hi)
    intro hpos
    -- the position before is not the one that differs, since this is not the next
    have hbefore : i - 1 ≠ k := by omega
    exact hps (i - 1) hbefore

/-- Three departures of a journey, of which the last is before the one ahead of it. -/
def morning (first : String) : ParsedDocument :=
  ⟨⟨⟨⟨0, "j", [⟨"id", none, "J"⟩], []⟩, [.element ⟨10, "passingTimes", [], []⟩
    [datedPassingTime 24 "Departure" first "0", datedPassingTime 191 "Departure" "08:20:00" "0",
      datedPassingTime 358 "Departure" "08:10:00" "0"]]⟩, []⟩, ⟨#[0]⟩⟩

def morningTimes (first : String) : List PassingTime :=
  [first, "08:20:00", "08:10:00"].map fun time => ⟨none, some "S", none, none, some time, some 0, 1⟩

theorem morning_end_unchanged :
    passingTimesOf (morning "08:00:00").rootNode = .ok (morningTimes "08:00:00") ∧
    passingTimesOf (morning "09:00:00").rootNode = .ok (morningTimes "09:00:00") ∧
    ∀ i, i ≠ 0 → i ≠ 1 →
      (findingsByPosition ⟨["S"]⟩ .increasing (morning "08:00:00").rootNode
        (morningTimes "08:00:00"))[i]? =
      (findingsByPosition ⟨["S"]⟩ .increasing (morning "09:00:00").rootNode
        (morningTimes "09:00:00"))[i]? := by
  have hread : passingTimesOf (morning "08:00:00").rootNode = .ok (morningTimes "08:00:00") := by
    with_unfolding_all rfl
  have hread' : passingTimesOf (morning "09:00:00").rootNode = .ok (morningTimes "09:00:00") := by
    with_unfolding_all rfl
  have hsame (i : Nat) (hi : i ≠ 0) :
      (morningTimes "08:00:00")[i]? = (morningTimes "09:00:00")[i]? := by
    obtain ⟨i, rfl⟩ := Nat.exists_eq_succ_of_ne_zero hi
    rfl
  have hlocal := (journey_findings_local ⟨["S"]⟩ .increasing).2
  exact ⟨hread, hread', hlocal _ _ _ _ 0 rfl hread hread' hsame⟩

end TransitAudit
