import TransitAudit.Proofs.Document.Lookup
import TransitAudit.Proofs.Document.Reading
import TransitAudit.Proofs.Failure
import TransitAudit.Proofs.Journey.Topics

/-! What it means for a journey that the checks on its times and day offsets report nothing. Arrival
offsets are compared with arrival offsets and departure offsets with departure offsets, each where
both neighbours give one. Times are compared where a departure and the arrival after it fall on the
same day, and there a missing offset counts as zero. So a day can be lost between a departure and
the next arrival if the two take their days from different offsets, or one of them gives none. -/
namespace TransitAudit

/-! Reading the passing times of a journey -/

namespace PassingTime

theorem exists_textAt (path : String) {e : PathExpr} (he : PathExpr.parse path = .ok e)
    (n : Node) : ∃ text?, textAt n path = .ok text? := by
  rw [textAt, Node.stringAt?_of_parse_ok he]
  exact ⟨_, rfl⟩

theorem exists_offsetAt (path : String) {e : PathExpr} (he : PathExpr.parse path = .ok e)
    (n : Node) : ∃ offset?, offsetAt n path = .ok offset? := by
  obtain ⟨text?, htext⟩ := exists_textAt path he n
  rw [offsetAt, htext]
  exact ⟨_, rfl⟩

/-- The paths that a passing time is read by are in order, and what is missing counts as not
given. -/
theorem exists_read (n : Node) : ∃ p, read n = .ok p := by
  obtain ⟨stopPoint, hstop⟩ := exists_textAt "StopPointInJourneyPatternRef/@ref"
    (by with_unfolding_all rfl) n
  obtain ⟨arrivalTime, harrival⟩ := exists_textAt "ArrivalTime"
    (by with_unfolding_all rfl) n
  obtain ⟨arrivalOffset, harrivalDay⟩ := exists_offsetAt "ArrivalDayOffset"
    (by with_unfolding_all rfl) n
  obtain ⟨departureTime, hdeparture⟩ := exists_textAt "DepartureTime"
    (by with_unfolding_all rfl) n
  obtain ⟨departureOffset, hdepartureDay⟩ := exists_offsetAt "DepartureDayOffset"
    (by with_unfolding_all rfl) n
  rw [read, hstop, harrival, harrivalDay, hdeparture, hdepartureDay]
  exact ⟨_, rfl⟩

end PassingTime

theorem exists_passingTimesOf (journey : Node) : ∃ ps, passingTimesOf journey = .ok ps := by
  obtain ⟨e, he⟩ : ∃ e, PathExpr.parse "passingTimes/TimetabledPassingTime" = .ok e :=
    ⟨_, by with_unfolding_all rfl⟩
  rw [passingTimesOf, Node.nodesAt_of_parse_ok he]
  choose read hread using PassingTime.exists_read
  exact ⟨(e.evaluate journey).map read, mapM_eq_ok_map fun n _ => hread n⟩

/-! Neighbours -/

/-- The times may follow one another on one day. -/
def Monotonicity.Admits (m : Monotonicity) (departure arrival : String) : Prop :=
  match m with
  | .increasing => compareTimes departure arrival = .lt
  | .nonDecreasing => compareTimes departure arrival ≠ .gt

theorem Monotonicity.violatedBy_eq_false_iff {m : Monotonicity} {departure arrival : String} :
    m.violatedBy departure arrival = false ↔ m.Admits departure arrival := by
  cases m <;> simp [violatedBy, Admits]

namespace PassingTime

/-- What the checks ask of neighbours. -/
structure Follows (mode : Monotonicity) (p q : PassingTime) : Prop where
  time : p.departureSideOffset = q.arrivalSideOffset →
    ∀ departure ∈ p.departureSide, ∀ arrival ∈ q.arrivalSide, mode.Admits departure arrival
  arrivalOffset : ∀ before ∈ p.arrivalOffset, ∀ now ∈ q.arrivalOffset, before ≤ now
  departureOffset : ∀ before ∈ p.departureOffset, ∀ now ∈ q.departureOffset, before ≤ now

/-- No offset is given, or offsets of one kind are compared of which the earlier is no smaller than
the day of departure and the later no greater than the day of arrival. -/
inductive DaysCompared (p q : PassingTime) : Prop
  | ungiven : p.arrivalOffset = none → p.departureOffset = none → q.arrivalOffset = none →
      q.departureOffset = none → DaysCompared p q
  | arrivals {before now : Int} : p.arrivalOffset = some before → q.arrivalOffset = some now →
      p.departureSideOffset ≤ before → now ≤ q.arrivalSideOffset → DaysCompared p q
  | departures {before now : Int} : p.departureOffset = some before →
      q.departureOffset = some now → p.departureSideOffset ≤ before →
      now ≤ q.arrivalSideOffset → DaysCompared p q

theorem Follows.offset_le {mode : Monotonicity} {p q : PassingTime} (h : Follows mode p q)
    (hc : DaysCompared p q) : p.departureSideOffset ≤ q.arrivalSideOffset := by
  cases hc with
  | ungiven hpa hpd hqa hqd => simp [departureSideOffset, arrivalSideOffset, hpa, hpd, hqa, hqd]
  | arrivals hp hq hbefore hnow =>
    have hle := h.arrivalOffset _ hp _ hq
    omega
  | departures hp hq hbefore hnow =>
    have hle := h.departureOffset _ hp _ hq
    omega

end PassingTime

/-! The checks on neighbours -/

theorem timeFindings_eq_nil_iff {mode : Monotonicity} {location : String} {p q : PassingTime} :
    timeFindings mode location p q = [] ↔ (p.departureSideOffset = q.arrivalSideOffset →
      ∀ departure ∈ p.departureSide, ∀ arrival ∈ q.arrivalSide, mode.Admits departure arrival) := by
  unfold timeFindings
  -- without a time on either side nothing is compared
  cases p.departureSide with
  | none => simp
  | some departure =>
    cases q.arrivalSide with
    | none => simp
    | some arrival => simp [← Monotonicity.violatedBy_eq_false_iff]

theorem offsetFindings_eq_nil_iff {name location : String} {previous current : Option Int}
    {p : PassingTime} : offsetFindings name location previous current p = [] ↔
      ∀ before ∈ previous, ∀ now ∈ current, before ≤ now := by
  unfold offsetFindings
  cases previous with
  | none => simp
  | some before =>
    cases current with
    | none => simp
    | some now => simp

/-! The run over a journey -/

/-- A step gives no finding on times or days just when its passing time follows the one before. -/
theorem PassingStep.unreported_iff {s : PassingStep} {stopPoints : StopPointIndex}
    {mode : Monotonicity} :
    (∀ f ∈ s.findings stopPoints mode, ¬ f.OnTime ∧ ¬ f.OnDayOffset) ↔
      ∀ previous ∈ s.previous?, PassingTime.Follows mode previous s.current := by
  simp only [Finding.onTime_iff, Finding.onDayOffset_iff, not_or, forall₂_and,
    forall_not_concerns_iff, reports]
  cases s.previous? with
  | none => simp
  | some previous =>
    simp only [Option.elim_some, Option.mem_some_iff, forall_eq', timeFindings_eq_nil_iff,
      offsetFindings_eq_nil_iff]
    constructor
    · rintro ⟨htime, harrival, hdeparture⟩
      exact ⟨htime, harrival, hdeparture⟩
    · rintro ⟨htime, harrival, hdeparture⟩
      exact ⟨htime, harrival, hdeparture⟩

theorem sequenceFindings_unreported_iff (stopPoints : StopPointIndex) (mode : Monotonicity)
    (journeyId : String) (previous? : Option PassingTime) (ps : List PassingTime) :
    (∀ f ∈ sequenceFindings stopPoints mode journeyId previous? ps,
      ¬ f.OnTime ∧ ¬ f.OnDayOffset) ↔
      (previous?.toList ++ ps).IsChain (PassingTime.Follows mode) := by
  rw [sequenceFindings_eq_flatMap, List.forall_mem_flatMap, ← forall_stepsAfter_iff journeyId]
  exact forall₂_congr fun s _ => PassingStep.unreported_iff

/-- The checks on times and days report nothing just when each passing time follows the one before
it. Then the day of an arrival is not before that of the departure ahead of it, wherever the offsets
that are compared decide it. -/
theorem journey_unreported_iff_follows (journey : Node) (stopPoints : StopPointIndex)
    (mode : Monotonicity) :
    ∃ ps findings, passingTimesOf journey = .ok ps ∧
      checkJourney journey stopPoints mode = .ok findings ∧
      ((∀ f ∈ findings, ¬ f.OnTime ∧ ¬ f.OnDayOffset) ↔
        ps.IsChain (PassingTime.Follows mode)) ∧
      ((∀ f ∈ findings, ¬ f.OnTime ∧ ¬ f.OnDayOffset) →
        ps.IsChain fun p q => p.DaysCompared q → p.departureSideOffset ≤ q.arrivalSideOffset) := by
  obtain ⟨ps, hps⟩ := exists_passingTimesOf journey
  have hiff := sequenceFindings_unreported_iff stopPoints mode ((journey.attr? "id").getD "") none
    ps
  refine ⟨ps, _, hps, ?_, hiff, ?_⟩
  · rw [checkJourney, hps]
    rfl
  · intro h
    exact (hiff.mp h).imp fun p q hpq hc => hpq.offset_le hc

/-- A passing time at the stop point `S` with a time and a day offset. -/
def datedPassingTime (start : Nat) (side time offset : String) : Xml.Content :=
  .element ⟨start, "TimetabledPassingTime", [], []⟩
    [.element ⟨start + 23, "StopPointInJourneyPatternRef", [⟨"ref", none, "S"⟩], []⟩ [],
      .element ⟨start + 62, side ++ "Time", [], []⟩ [.text time],
      .element ⟨start + 83 + 2 * side.length, side ++ "DayOffset", [], []⟩ [.text offset]]

/-- A departure on the second day, and behind it an arrival on the first. -/
def lostDay : ParsedDocument :=
  ⟨⟨⟨⟨0, "j", [], []⟩, [.element ⟨3, "passingTimes", [], []⟩
    [datedPassingTime 17 "Departure" "23:50:00" "1",
      datedPassingTime 184 "Arrival" "00:10:00" "0"]]⟩, []⟩, ⟨#[0]⟩⟩

set_option maxRecDepth 4000 in
/-- One passing time gives its day for the departure and the next for the arrival; so nothing is
compared. -/
theorem lost_day_unreported :
    (Source.ofText "doc.xml" ("<j><passingTimes><TimetabledPassingTime>" ++
        "<StopPointInJourneyPatternRef ref='S'/><DepartureTime>23:50:00</DepartureTime>" ++
        "<DepartureDayOffset>1</DepartureDayOffset></TimetabledPassingTime>" ++
        "<TimetabledPassingTime><StopPointInJourneyPatternRef ref='S'/>" ++
        "<ArrivalTime>00:10:00</ArrivalTime><ArrivalDayOffset>0</ArrivalDayOffset>" ++
        "</TimetabledPassingTime></passingTimes></j>")).parse = .ok lostDay ∧
      checkJourney lostDay.rootNode ⟨["S"]⟩ .increasing = .ok [] ∧
      ∃ p q, passingTimesOf lostDay.rootNode = .ok [p, q] ∧ p.departureSide = some "23:50:00" ∧
        q.arrivalSide = some "00:10:00" ∧ p.departureSideOffset = 1 ∧ q.arrivalSideOffset = 0 := by
  -- neither kind of offset is given by both passing times
  have hread : passingTimesOf lostDay.rootNode =
      .ok [⟨none, some "S", none, none, some "23:50:00", some 1, 1⟩,
        ⟨none, some "S", some "00:10:00", some 0, none, none, 1⟩] := by with_unfolding_all rfl
  have hcheck : checkJourney lostDay.rootNode ⟨["S"]⟩ .increasing = .ok [] := by
    rw [checkJourney, hread]
    rfl
  refine ⟨?_, hcheck, _, _, hread, rfl, rfl, rfl, rfl⟩
  rw [← String.ofList_append, ← String.ofList_append, ← String.ofList_append,
    ← String.ofList_append, ← String.ofList_append, Source.parse_ofList]
  with_unfolding_all rfl

end TransitAudit
