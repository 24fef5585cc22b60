import Mathlib.Data.Prod.Lex
import TransitAudit.Proofs.Journey.Forward

/-! Journeys whose times can be read and fall on one day. Only neighbours are compared, but where no
passing time departs before it arrives, that puts all times of the journey in order. -/
namespace TransitAudit

/-! The order of times -/

namespace ClockTime

/-- Seconds count first and nanoseconds within a second. -/
instance : LinearOrder ClockTime :=
  LinearOrder.lift' (fun t => toLex (t.seconds, t.nanoseconds)) fun a b h => by
    cases a
    cases b
    simpa using h

theorem lt_iff {a b : ClockTime} : a < b ↔
    a.seconds < b.seconds ∨ a.seconds = b.seconds ∧ a.nanoseconds < b.nanoseconds :=
  Prod.Lex.toLex_lt_toLex

theorem compare_eq_lt_iff {a b : ClockTime} : a.compare b = .lt ↔ a < b := by
  rw [lt_iff, ClockTime.compare, Ordering.then_eq_lt, Nat.compare_eq_lt, Nat.compare_eq_eq,
    Nat.compare_eq_lt]

theorem compare_eq_gt_iff {a b : ClockTime} : a.compare b = .gt ↔ b < a := by
  rw [lt_iff, ClockTime.compare, Ordering.then_eq_gt, Nat.compare_eq_gt, Nat.compare_eq_eq,
    Nat.compare_eq_gt, eq_comm (a := a.seconds)]

end ClockTime

theorem compareTimes_of_read {a b : String} {x y : ClockTime} (ha : ClockTime.read? a = some x)
    (hb : ClockTime.read? b = some y) : compareTimes a b = x.compare y := by
  rw [compareTimes, ha, hb]

namespace Monotonicity

variable {mode : Monotonicity}

/-- How an arrival has to follow a departure. -/
def Orders : Monotonicity → ClockTime → ClockTime → Prop
  | .increasing, departure, arrival => departure < arrival
  | .nonDecreasing, departure, arrival => departure ≤ arrival

theorem admits_iff_orders {departure arrival : String} {d a : ClockTime}
    (hd : ClockTime.read? departure = some d) (ha : ClockTime.read? arrival = some a) :
    mode.Admits departure arrival ↔ mode.Orders d a := by
  cases mode with
  | increasing => rw [Admits, compareTimes_of_read hd ha, ClockTime.compare_eq_lt_iff, Orders]
  | nonDecreasing =>
    rw [Admits, compareTimes_of_read hd ha, ne_eq, ClockTime.compare_eq_gt_iff, Orders, not_lt]

/-- An arrival may be followed by a later departure in between. -/
theorem Orders.trans {departure arrival departure' arrival' : ClockTime}
    (h : mode.Orders departure arrival) (hstay : arrival ≤ departure')
    (h' : mode.Orders departure' arrival') : mode.Orders departure arrival' := by
  cases mode with
  | increasing => exact (lt_of_lt_of_le h hstay).trans h'
  | nonDecreasing => exact (le_trans h hstay).trans h'

end Monotonicity

/-! Passing times of one day -/

namespace PassingTime

variable {mode : Monotonicity} {day : Int} {p q r : PassingTime}

/-- When a passing time arrives, or departs if it gives no arrival. -/
def arrives (p : PassingTime) : Option ClockTime :=
  p.arrivalSide.bind ClockTime.read?

/-- When a passing time departs, or arrives if it gives no departure. -/
def departs (p : PassingTime) : Option ClockTime :=
  p.departureSide.bind ClockTime.read?

/-- A time is given, the times given can be read and are of one day, and the departure is not before
the arrival. -/
structure StaysOn (day : Int) (p : PassingTime) : Prop where
  given : p.arrivalTime ≠ none ∨ p.departureTime ≠ none
  readable : ∀ text, p.arrivalTime = some text ∨ p.departureTime = some text →
    ClockTime.read? text ≠ none
  arrivalDay : p.arrivalSideOffset = day
  departureDay : p.departureSideOffset = day
  ordered : ∀ arrival departure, p.arrives = some arrival → p.departs = some departure →
    arrival ≤ departure

/-- The departure of a passing time comes before the arrival of a later one. -/
def Precedes (mode : Monotonicity) (p q : PassingTime) : Prop :=
  ∃ departure arrival, p.departs = some departure ∧ q.arrives = some arrival ∧
    mode.Orders departure arrival

/-- Of two texts one is given, and whichever stands in for the other can be read. -/
theorem exists_of_given {first second : Option String} (h : first ≠ none ∨ second ≠ none)
    (hread : ∀ text, first = some text ∨ second = some text → ClockTime.read? text ≠ none) :
    ∃ text t, (first <|> second) = some text ∧ ClockTime.read? text = some t ∧
      (first <|> second).bind ClockTime.read? = some t := by
  obtain ⟨text, hside, hgiven⟩ : ∃ text, (first <|> second) = some text ∧
      (first = some text ∨ second = some text) := by
    cases first with
    | some text => exact ⟨text, rfl, .inl rfl⟩
    | none =>
      obtain ⟨text, hsecond⟩ := Option.ne_none_iff_exists'.mp (h.resolve_left (absurd rfl))
      exact ⟨text, hsecond, .inr hsecond⟩
  obtain ⟨t, ht⟩ := Option.ne_none_iff_exists'.mp (hread text hgiven)
  exact ⟨text, t, hside, ht, by rw [hside, Option.bind_some, ht]⟩

theorem StaysOn.exists_arrival (h : p.StaysOn day) :
    ∃ text arrival, p.arrivalSide = some text ∧ ClockTime.read? text = some arrival ∧
      p.arrives = some arrival :=
  exists_of_given h.given h.readable

theorem StaysOn.exists_departure (h : p.StaysOn day) :
    ∃ text departure, p.departureSide = some text ∧ ClockTime.read? text = some departure ∧
      p.departs = some departure :=
  exists_of_given h.given.symm fun text htext => h.readable text htext.symm

theorem readable_of_side {first second : Option String} {t : ClockTime}
    (h : (first <|> second).bind ClockTime.read? = some t) {text : String}
    (htext : first = some text) : ClockTime.read? text ≠ none := by
  subst htext
  exact Option.ne_none_iff_exists'.mpr ⟨t, h⟩

theorem staysOn_iff : p.StaysOn day ↔ ∃ arrival departure, p.arrives = some arrival ∧
    p.departs = some departure ∧ arrival ≤ departure ∧ p.arrivalSideOffset = day ∧
    p.departureSideOffset = day := by
  constructor
  · intro h
    obtain ⟨-, arrival, -, -, ha⟩ := h.exists_arrival
    obtain ⟨-, departure, -, -, hd⟩ := h.exists_departure
    exact ⟨arrival, departure, ha, hd, h.ordered _ _ ha hd, h.arrivalDay, h.departureDay⟩
  · rintro ⟨arrival, departure, ha, hd, hle, hday, hday'⟩
    refine ⟨?_, ?_, hday, hday', ?_⟩
    · -- without a time on either side there is no arrival
      by_contra! hnone
      simp [arrives, arrivalSide, hnone.1, hnone.2] at ha
    · rintro text (htext | htext)
      · exact readable_of_side ha htext
      · exact readable_of_side hd htext
    · intro arrival' departure' ha' hd'
      obtain rfl : arrival = arrival' := Option.some.inj (ha.symm.trans ha')
      obtain rfl : departure = departure' := Option.some.inj (hd.symm.trans hd')
      exact hle

/-- On one day the check on times asks that the departure comes before the arrival. -/
theorem StaysOn.admits_iff_precedes (hp : p.StaysOn day) (hq : q.StaysOn day) :
    (p.departureSideOffset = q.arrivalSideOffset →
      ∀ departure ∈ p.departureSide, ∀ arrival ∈ q.arrivalSide, mode.Admits departure arrival) ↔
        p.Precedes mode q := by
  obtain ⟨departure, d, hdeparture, hd, hdeparts⟩ := hp.exists_departure
  obtain ⟨arrival, a, harrival, ha, harrives⟩ := hq.exists_arrival
  have hday : p.departureSideOffset = q.arrivalSideOffset :=
    hp.departureDay.trans hq.arrivalDay.symm
  rw [Precedes, hdeparts, harrives, hdeparture, harrival]
  simp [hday, Monotonicity.admits_iff_orders hd ha]

theorem Precedes.trans (h : p.Precedes mode q) (hq : q.StaysOn day) (h' : q.Precedes mode r) :
    p.Precedes mode r := by
  obtain ⟨departure, arrival, hdeparture, harrival, horder⟩ := h
  obtain ⟨departure', arrival', hdeparture', harrival', horder'⟩ := h'
  have hstay : arrival ≤ departure' := hq.ordered arrival departure' harrival hdeparture'
  exact ⟨departure, arrival', hdeparture, harrival', horder.trans hstay horder'⟩

/-- Neighbours in order put all passing times in order. -/
theorem pairwise_of_isChain {ps : List PassingTime} (hday : ∀ p ∈ ps, p.StaysOn day)
    (h : ps.IsChain (Precedes mode)) : ps.Pairwise (Precedes mode) := by
  induction ps with
  | nil => exact .nil
  | cons p ps ih =>
    obtain ⟨-, hrest⟩ := List.forall_mem_cons.mp hday
    cases ps with
    | nil => exact List.pairwise_singleton _ _
    | cons q ps =>
      obtain ⟨hpq, hchain⟩ := List.isChain_cons_cons.mp h
      have hpairs := ih hrest hchain
      refine List.pairwise_cons.mpr ⟨?_, hpairs⟩
      intro r hr
      rcases List.mem_cons.mp hr with rfl | hr
      · exact hpq
      · -- the passing time in between arrives before it departs
        have hqr : q.Precedes mode r := (List.pairwise_cons.mp hpairs).1 r hr
        exact hpq.trans (hrest q List.mem_cons_self) hqr

end PassingTime

/-! The run over a journey -/

/-- Nothing is reported on times just when neighbours with times of one day are in order. -/
theorem journeySteps_onTime_iff (journey : Node) (stopPoints : StopPointIndex)
    (mode : Monotonicity) (ps : List PassingTime) :
    (∀ f ∈ (journeySteps journey ps).flatMap (·.findings stopPoints mode), ¬ f.OnTime) ↔
      ps.IsChain fun p q => p.departureSideOffset = q.arrivalSideOffset →
        ∀ departure ∈ p.departureSide, ∀ arrival ∈ q.arrivalSide,
          mode.Admits departure arrival := by
  have hstep (s : PassingStep) : (∀ f ∈ s.findings stopPoints mode, ¬ f.OnTime) ↔
      ∀ p ∈ s.previous?, p.departureSideOffset = s.current.arrivalSideOffset →
        ∀ departure ∈ p.departureSide, ∀ arrival ∈ s.current.arrivalSide,
          mode.Admits departure arrival := by
    simp only [Finding.onTime_iff, PassingStep.forall_not_concerns_iff, PassingStep.reports]
    cases s.previous? with
    | none => simp
    | some p => simpa using timeFindings_eq_nil_iff
  rw [List.forall_mem_flatMap, ← forall_journeySteps_iff journey]
  exact forall₂_congr fun s _ => hstep s

theorem journeySteps_onTime_iff_pairwise (journey : Node) (stopPoints : StopPointIndex)
    (mode : Monotonicity) {ps : List PassingTime} {day : Int} (hday : ∀ p ∈ ps, p.StaysOn day) :
    (∀ f ∈ (journeySteps journey ps).flatMap (·.findings stopPoints mode), ¬ f.OnTime) ↔
      ps.Pairwise (PassingTime.Precedes mode) := by
  rw [journeySteps_onTime_iff, List.IsChain.iff_of_mem_imp fun p q hp hq =>
    (hday p hp).admits_iff_precedes (hday q hq)]
  exact ⟨PassingTime.pairwise_of_isChain hday, List.Pairwise.isChain⟩

/-- Where all times can be read, are of one day, and no departure is before the arrival of the same
passing time, the strict check reports no times just when each departure is earlier than every
arrival at a later position, and the lenient one just when none is later. -/
theorem journey_times_ordered_pairwise (journey : Node) (stopPoints : StopPointIndex)
    (ps : List PassingTime) (hps : passingTimesOf journey = .ok ps) (day : Int)
    (hday : ∀ p ∈ ps, p.StaysOn day) :
    ∃ strict lenient, checkJourney journey stopPoints .increasing = .ok strict ∧
      checkJourney journey stopPoints .nonDecreasing = .ok lenient ∧
      ((∀ f ∈ strict, ¬ f.OnTime) ↔ ps.Pairwise fun p q => ∃ departure arrival,
        p.departs = some departure ∧ q.arrives = some arrival ∧ departure < arrival) ∧
      ((∀ f ∈ lenient, ¬ f.OnTime) ↔ ps.Pairwise fun p q => ∃ departure arrival,
        p.departs = some departure ∧ q.arrives = some arrival ∧ departure ≤ arrival) := by
  refine ⟨_, _, checkJourney_of_passingTimesOf hps _ _, checkJourney_of_passingTimesOf hps _ _,
    ?_, ?_⟩
  · exact journeySteps_onTime_iff_pairwise journey stopPoints .increasing hday
  · exact journeySteps_onTime_iff_pairwise journey stopPoints .nonDecreasing hday

/-- A passing time at the stop point `S` that arrives and departs. -/
def stayingPassingTime (start : Nat) (arrival departure : String) : Xml.Content :=
  .element ⟨start, "TimetabledPassingTime", [], []⟩
    [.element ⟨start + 23, "StopPointInJourneyPatternRef", [⟨"ref", none, "S"⟩], []⟩ [],
      .element ⟨start + 62, "ArrivalTime", [], []⟩ [.text arrival],
      .element ⟨start + 89 + arrival.length, "DepartureTime", [], []⟩ [.text departure],
      .element ⟨start + 120 + arrival.length + departure.length, "DepartureDayOffset", [], []⟩
        [.text "1"]]

/-- Times in all formats, of which the second departure equals the third arrival. -/
def nightJourney : ParsedDocument :=
  ⟨⟨⟨⟨0, "j", [], []⟩, [.element ⟨3, "passingTimes", [], []⟩
    [datedPassingTime 17 "Departure" "00:05" "1", stayingPassingTime 179 "0:20:00Z" "00:20:30.5",
      datedPassingTime 383 "Arrival" "00:20:30.500" "1"]]⟩, []⟩, ⟨#[0]⟩⟩

def nightTimes : List PassingTime :=
  [⟨none, some "S", none, none, some "00:05", some 1, 1⟩,
    ⟨none, some "S", some "0:20:00Z", none, some "00:20:30.5", some 1, 1⟩,
    ⟨none, some "S", some "00:20:30.500", some 1, none, none, 1⟩]

/-- The third passing time does not come after the second. -/
def nightFinding : Finding :=
  (Finding.consistency ("Expected passing time to increase in " ++
    "ServiceJourney(@id=), TimetabledPassingTime(@id=)")).withLine 1

theorem night_times_ordered :
    passingTimesOf nightJourney.rootNode = .ok nightTimes ∧ (∀ p ∈ nightTimes, p.StaysOn 1) ∧
    checkJourney nightJourney.rootNode ⟨["S"]⟩ .increasing = .ok [nightFinding] ∧
    nightFinding.OnTime ∧
    (¬ nightTimes.Pairwise fun p q => ∃ departure arrival,
      p.departs = some departure ∧ q.arrives = some arrival ∧ departure < arrival) ∧
    checkJourney nightJourney.rootNode ⟨["S"]⟩ .nonDecreasing = .ok [] ∧
    nightTimes.Pairwise fun p q => ∃ departure arrival,
      p.departs = some departure ∧ q.arrives = some arrival ∧ departure ≤ arrival := by
  have hread : passingTimesOf nightJourney.rootNode = .ok nightTimes := by with_unfolding_all rfl
  have hday : ∀ p ∈ nightTimes, p.StaysOn 1 := by
    simp only [nightTimes, List.forall_mem_cons, PassingTime.staysOn_iff]
    refine ⟨⟨⟨300, 0⟩, ⟨300, 0⟩, ?_⟩, ⟨⟨1200, 0⟩, ⟨1230, 500000000⟩, ?_⟩,
      ⟨⟨1230, 500000000⟩, ⟨1230, 500000000⟩, ?_⟩, by simp⟩
    · exact ⟨by with_unfolding_all rfl, by with_unfolding_all rfl, le_rfl, rfl, rfl⟩
    · exact ⟨by with_unfolding_all rfl, by with_unfolding_all rfl, by decide, rfl, rfl⟩
    · exact ⟨by with_unfolding_all rfl, by with_unfolding_all rfl, le_rfl, rfl, rfl⟩
  have hone : checkJourney nightJourney.rootNode ⟨["S"]⟩ .increasing = .ok [nightFinding] := by
    with_unfolding_all rfl
  have hnone : checkJourney nightJourney.rootNode ⟨["S"]⟩ .nonDecreasing = .ok [] := by
    with_unfolding_all rfl
  have htime : nightFinding.OnTime := onTime_findingAt .increasing
    ⟨none, some "S", some "00:20:30.500", some 1, none, none, 1⟩
    "ServiceJourney(@id=), TimetabledPassingTime(@id=)"
  obtain ⟨strict, lenient, hstrict, hlenient, hearlier, hnotLater⟩ :=
    journey_times_ordered_pairwise nightJourney.rootNode ⟨["S"]⟩ _ hread 1 hday
  obtain rfl : [nightFinding] = strict := Except.ok.inj (hone.symm.trans hstrict)
  obtain rfl : [] = lenient := Except.ok.inj (hnone.symm.trans hlenient)
  refine ⟨hread, hday, hone, htime, ?_, hnone, hnotLater.mp (List.forall_mem_nil _)⟩
  intro hpairs
  exact hearlier.mpr hpairs nightFinding (List.mem_singleton_self _) htime

end TransitAudit
