import TransitAudit.Proofs.Audit.EntryPoints
import TransitAudit.Proofs.Journey.Forward
import TransitAudit.Proofs.Text.Trim

/-! The strict and the lenient check on times. They differ where two times compare equal, which only
the strict one reports, and in how they word what both report. -/
namespace TransitAudit

/-! Rewording a report -/

namespace Finding

instance (f : Finding) : Decidable f.OnTime :=
  inferInstanceAs (Decidable (timeText.toList <+: f.message.toList))

/-- A report on times of the strict check as the lenient one words it; anything else as it is. -/
def relaxed (f : Finding) : Finding :=
  match Text.dropLeading? Monotonicity.increasing.text.toList f.message.toList with
  | some rest => { f with message := Monotonicity.nonDecreasing.text ++ String.ofList rest }
  | none => f

theorem relaxed_of_not_onTime {f : Finding} (h : ¬ f.OnTime) : f.relaxed = f := by
  rw [relaxed]
  cases hrest : Text.dropLeading? Monotonicity.increasing.text.toList f.message.toList with
  | none => rfl
  | some rest =>
    -- what is reworded is a report on times
    refine absurd ?_ h
    rw [OnTime, Begins, Text.dropLeading?_eq_some_iff.mp hrest]
    exact (Monotonicity.prefix_text _).trans (List.prefix_append _ _)

end Finding

theorem relaxed_findingAt (p : PassingTime) (location : String) :
    (findingAt p (Monotonicity.increasing.text ++ location)).relaxed =
      findingAt p (Monotonicity.nonDecreasing.text ++ location) := by
  have hrest : Text.dropLeading? Monotonicity.increasing.text.toList
      (findingAt p (Monotonicity.increasing.text ++ location)).message.toList =
        some location.toList :=
    Text.dropLeading?_eq_some_iff.mpr String.toList_append
  rw [Finding.relaxed, hrest]
  simp only [String.ofList_toList]
  rfl

/-! The two checks at one passing time -/

theorem eq_of_mem_timeFindings {mode : Monotonicity} {location : String} {p q : PassingTime}
    {f : Finding} (hf : f ∈ timeFindings mode location p q) :
    f = findingAt q (mode.text ++ location) := by
  unfold timeFindings at hf
  split at hf
  · split at hf
    · rw [List.mem_singleton.mp hf, mode.text_append]
    · simp at hf
  · simp at hf

theorem timeFindings_of_sides (mode : Monotonicity) (location : String) {p q : PassingTime}
    {departure arrival : String} (hp : p.departureSide = some departure)
    (hq : q.arrivalSide = some arrival) :
    timeFindings mode location p q =
      if p.departureSideOffset = q.arrivalSideOffset ∧ mode.violatedBy departure arrival then
        [findingAt q (mode.text ++ location)]
      else [] := by
  rw [timeFindings, hp, hq]
  simp only [mode.text_append, Bool.and_eq_true, decide_eq_true_eq]

namespace PassingStep

variable {s : PassingStep} {stopPoints : StopPointIndex}

/-- The departure before a step and its arrival compare equal. -/
def Tied (s : PassingStep) : Prop :=
  ∃ p ∈ s.previous?, ∃ departure ∈ p.departureSide, ∃ arrival ∈ s.current.arrivalSide,
    compareTimes departure arrival = .eq

instance (s : PassingStep) : Decidable s.Tied :=
  inferInstanceAs (Decidable (∃ p ∈ s.previous?, ∃ departure ∈ p.departureSide,
    ∃ arrival ∈ s.current.arrivalSide, compareTimes departure arrival = .eq))

/-- What the lenient check makes of findings of the strict one. -/
def loosened (s : PassingStep) (fs : List Finding) : List Finding :=
  (fs.filter fun f => ¬ (s.Tied ∧ f.OnTime)).map Finding.relaxed

theorem loosened_of_forall_not_onTime {fs : List Finding} (h : ∀ f ∈ fs, ¬ f.OnTime) :
    s.loosened fs = fs := by
  have hkeep : fs.filter (fun f => ¬ (s.Tied ∧ f.OnTime)) = fs := by
    apply List.filter_eq_self.mpr
    intro f hf
    exact decide_eq_true fun ⟨_, ht⟩ => h f hf ht
  rw [loosened, hkeep]
  calc fs.map Finding.relaxed
      = fs.map id := List.map_congr_left fun f hf => Finding.relaxed_of_not_onTime (h f hf)
    _ = fs := List.map_id fs

theorem loosened_flatMap {α : Type} (g : α → List Finding) (xs : List α) :
    s.loosened (xs.flatMap g) = xs.flatMap fun x => s.loosened (g x) := by
  simp only [loosened, List.filter_flatMap, List.map_flatMap]

/-- Of two times that are not in order the lenient check lets pass those that are equal. -/
theorem timeFindings_nonDecreasing {p : PassingTime} (hp : s.previous? = some p) :
    timeFindings .nonDecreasing s.location p s.current =
      s.loosened (timeFindings .increasing s.location p s.current) := by
  cases hdeparture : p.departureSide with
  | none =>
    rw [timeFindings, timeFindings, hdeparture]
    rfl
  | some departure =>
    cases harrival : s.current.arrivalSide with
    | none =>
      rw [timeFindings, timeFindings, hdeparture, harrival]
      rfl
    | some arrival =>
      have htied : s.Tied ↔ compareTimes departure arrival = .eq := by
        simp [Tied, hp, hdeparture, harrival]
      have htime := onTime_findingAt .increasing s.current s.location
      rw [timeFindings_of_sides _ _ hdeparture harrival,
        timeFindings_of_sides _ _ hdeparture harrival, loosened]
      -- on one day the outcome of the comparison decides what each check reports
      by_cases hday : p.departureSideOffset = s.current.arrivalSideOffset
      · cases hc : compareTimes departure arrival with
        | lt => simp [hday, Monotonicity.violatedBy, hc]
        | eq => simp [hday, Monotonicity.violatedBy, hc, htied, htime]
        | gt => simp [hday, Monotonicity.violatedBy, hc, htied, relaxed_findingAt]
      · simp [hday]

theorem reports_nonDecreasing (topic : JourneyTopic) :
    s.reports stopPoints .nonDecreasing topic =
      s.loosened (s.reports stopPoints .increasing topic) := by
  -- the checks differ in what they report on times only
  by_cases htopic : topic = .time
  · subst htopic
    cases hp : s.previous? with
    | none =>
      rw [reports, reports, hp]
      rfl
    | some p =>
      rw [reports, reports, hp]
      exact timeFindings_nonDecreasing hp
  · rw [loosened_of_forall_not_onTime]
    · cases topic with
      | time => exact absurd rfl htopic
      | _ => rfl
    · intro f hf ht
      exact htopic ((concerns_of_mem_reports hf).eq (Finding.onTime_iff.mp ht))

theorem findings_nonDecreasing :
    s.findings stopPoints .nonDecreasing = s.loosened (s.findings stopPoints .increasing) := by
  rw [findings_eq_flatMap, findings_eq_flatMap, loosened_flatMap]
  exact List.flatMap_congr fun topic _ => reports_nonDecreasing topic

/-- A finding of a step on times names its passing time. -/
theorem eq_of_onTime {mode : Monotonicity} {f : Finding} (hf : f ∈ s.findings stopPoints mode)
    (ht : f.OnTime) : f = findingAt s.current (mode.text ++ s.location) := by
  obtain ⟨topic, hf⟩ := mem_findings_iff.mp hf
  obtain rfl := (concerns_of_mem_reports hf).eq (Finding.onTime_iff.mp ht)
  rw [reports] at hf
  cases hp : s.previous? with
  | none => simp [hp] at hf
  | some p =>
    rw [hp] at hf
    exact eq_of_mem_timeFindings hf

end PassingStep

/-! Whole documents -/

theorem Integrity.passingTimes_eq_ok_of_read {root : Node} {stopPoints : StopPointIndex}
    {journeys : List Node} {timesOf : Node → List PassingTime}
    (hstop : StopPointIndex.build root = .ok stopPoints)
    (hjourneys : root.nodesAt serviceJourneysPath = .ok journeys)
    (htimes : ∀ j, passingTimesOf j = .ok (timesOf j)) (mode : Monotonicity) :
    passingTimes root mode = .ok ((journeys.flatMap fun j => journeySteps j (timesOf j)).flatMap
      (·.findings stopPoints mode)) := by
  refine passingTimes_eq_ok_iff.mpr ⟨stopPoints, hstop, journeys, hjourneys,
    journeys.map fun j => (journeySteps j (timesOf j)).flatMap (·.findings stopPoints mode), ?_, ?_⟩
  · rw [mapM_eq_ok_iff, List.forall₂_map_right_iff, List.forall₂_same]
    exact fun j _ => checkJourney_of_passingTimesOf (htimes j) stopPoints mode
  · rw [List.flatMap_assoc, List.flatMap_def]

/-- On any document both checks succeed. The lenient one finds at each passing time what the strict
one finds, except for reports on two times that compare equal, and words other reports on times in
its own way. -/
theorem lenient_findings_eq_strict_without_ties (root : Node) :
    ∃ (stopPoints : StopPointIndex) (journeys : List Node) (timesOf : Node → List PassingTime)
      (steps : List PassingStep), StopPointIndex.build root = .ok stopPoints ∧
      root.nodesAt serviceJourneysPath = .ok journeys ∧
      (∀ j, passingTimesOf j = .ok (timesOf j)) ∧
      steps = journeys.flatMap (fun j => journeySteps j (timesOf j)) ∧
      Integrity.passingTimes root .increasing =
        .ok (steps.flatMap (·.findings stopPoints .increasing)) ∧
      Integrity.passingTimes root .nonDecreasing =
        .ok (steps.flatMap fun s => ((s.findings stopPoints .increasing).filter
          fun f => ¬ (s.Tied ∧ f.OnTime)).map Finding.relaxed) ∧
      ∀ s ∈ steps, ∀ f ∈ s.findings stopPoints .increasing,
        (f.OnTime →
          f = findingAt s.current ("Expected passing time to increase in " ++ s.location) ∧
          f.relaxed =
            findingAt s.current ("Expected passing time to not decrease in " ++ s.location)) ∧
        (¬ f.OnTime → f.relaxed = f) := by
  choose timesOf htimes using exists_passingTimesOf
  have hstop : StopPointIndex.build root =
      .ok (.ofIds ((stopPointPath.select root).map (·.text))) := by
    rw [StopPointIndex.build, nodesAt_stopPointsPath]
    rfl
  have hjourneys := nodesAt_serviceJourneysPath root
  refine ⟨_, _, timesOf, _, hstop, hjourneys, htimes, rfl,
    Integrity.passingTimes_eq_ok_of_read hstop hjourneys htimes .increasing, ?_, ?_⟩
  · rw [Integrity.passingTimes_eq_ok_of_read hstop hjourneys htimes .nonDecreasing]
    simp only [PassingStep.findings_nonDecreasing]
    rfl
  · intro s _ f hf
    refine ⟨fun ht => ?_, Finding.relaxed_of_not_onTime⟩
    obtain rfl := PassingStep.eq_of_onTime hf ht
    exact ⟨rfl, relaxed_findingAt s.current s.location⟩

end TransitAudit
