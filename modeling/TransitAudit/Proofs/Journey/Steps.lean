import Mathlib.Data.List.Chain
import TransitAudit.Journey.Check

/-! The passing times of a journey, each with the one right before it. The checks go through a
journey with the last passing time as their only state, so what a passing time gives rise to is
decided by these two. -/
namespace TransitAudit

/-- A passing time of a journey, and the one right before it if there is any. -/
structure PassingStep where
  journeyId : String
  previous? : Option PassingTime
  current : PassingTime

namespace PassingStep

def location (s : PassingStep) : String :=
  s.current.location s.journeyId

def findings (s : PassingStep) (stopPoints : StopPointIndex) (mode : Monotonicity) :
    List Finding :=
  passingTimeFindings stopPoints mode s.journeyId s.previous? s.current

end PassingStep

/-- The steps of passing times that come after a given one. -/
def stepsAfter (journeyId : String) (previous? : Option PassingTime) (ps : List PassingTime) :
    List PassingStep :=
  List.zipWith (PassingStep.mk journeyId) (previous? :: ps.map some) ps

theorem stepsAfter_cons (journeyId : String) (previous? : Option PassingTime) (p : PassingTime)
    (ps : List PassingTime) : stepsAfter journeyId previous? (p :: ps) =
      ⟨journeyId, previous?, p⟩ :: stepsAfter journeyId (some p) ps :=
  rfl

theorem sequenceFindings_eq_flatMap (stopPoints : StopPointIndex) (mode : Monotonicity)
    (journeyId : String) (previous? : Option PassingTime) (ps : List PassingTime) :
    sequenceFindings stopPoints mode journeyId previous? ps =
      (stepsAfter journeyId previous? ps).flatMap (·.findings stopPoints mode) := by
  induction ps generalizing previous? with
  | nil => rfl
  | cons p ps ih =>
    rw [sequenceFindings, stepsAfter_cons, List.flatMap_cons, ih]
    rfl

/-- What holds in every step between a passing time and the one before it holds along the
journey. -/
theorem forall_stepsAfter_iff {R : PassingTime → PassingTime → Prop} (journeyId : String)
    (previous? : Option PassingTime) (ps : List PassingTime) :
    (∀ s ∈ stepsAfter journeyId previous? ps, ∀ p ∈ s.previous?, R p s.current) ↔
      (previous?.toList ++ ps).IsChain R := by
  -- the passing time before the rest of the journey is the state of the run
  induction ps generalizing previous? with
  | nil => cases previous? <;> simp [stepsAfter]
  | cons p ps ih =>
    rw [stepsAfter_cons, List.forall_mem_cons, ih]
    cases previous? with
    | none => simp
    | some previous => simp [List.isChain_cons_cons]

/-- A step is given by the passing times at its position and at the one before. -/
theorem getElem?_stepsAfter_none (journeyId : String) (ps : List PassingTime) (i : Nat) :
    (stepsAfter journeyId none ps)[i]? =
      ps[i]?.map fun p => ⟨journeyId, if i = 0 then none else ps[i - 1]?, p⟩ := by
  rw [stepsAfter, List.getElem?_zipWith]
  cases i with
  | zero => cases ps[0]? <;> rfl
  | succ i =>
    rw [List.getElem?_cons_succ, List.getElem?_map]
    cases hp : ps[i + 1]? with
    | none => simp
    | some p =>
      have hi : i < ps.length := by
        have := (List.getElem?_eq_some_iff.mp hp).1
        omega
      simp [List.getElem?_eq_getElem hi]

/-- The steps of a journey with given passing times. -/
def journeySteps (journey : Node) (ps : List PassingTime) : List PassingStep :=
  stepsAfter ((journey.attr? "id").getD "") none ps

theorem forall_journeySteps_iff {R : PassingTime → PassingTime → Prop} (journey : Node)
    (ps : List PassingTime) :
    (∀ s ∈ journeySteps journey ps, ∀ p ∈ s.previous?, R p s.current) ↔ ps.IsChain R :=
  forall_stepsAfter_iff _ none ps

/-- The findings of a journey are those of its steps, one after another. -/
theorem checkJourney_of_passingTimesOf {journey : Node} {ps : List PassingTime}
    (h : passingTimesOf journey = .ok ps) (stopPoints : StopPointIndex) (mode : Monotonicity) :
    checkJourney journey stopPoints mode =
      .ok ((journeySteps journey ps).flatMap (·.findings stopPoints mode)) := by
  rw [checkJourney, h, journeySteps, ← sequenceFindings_eq_flatMap]
  rfl

end TransitAudit
