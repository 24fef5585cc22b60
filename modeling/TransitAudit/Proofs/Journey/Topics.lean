import TransitAudit.Proofs.Journey.Steps

/-! What the findings of a journey are about: the time of a passing time, its two day offsets, and
the stop point it refers to. On each of these a passing time gives rise to one finding at most, and
how a finding begins tells which of them it is about. -/
namespace TransitAudit

/-! Findings by what they say -/

namespace Finding

def Begins (f : Finding) (text : String) : Prop :=
  text.toList <+: f.message.toList

/-- How reports of the checks on times and on days begin. -/
def timeText : String := "Expected passing time "

def offsetText (name : String) : String := name ++ " must not decrease in sequence in "

/-- Reports times that do not move forward. -/
def OnTime (f : Finding) : Prop :=
  f.Begins timeText

/-- Reports a day offset that decreases. -/
def OnDayOffset (f : Finding) : Prop :=
  f.Begins (offsetText "ArrivalDayOffset") ∨ f.Begins (offsetText "DepartureDayOffset")

theorem begins_of_message {f : Finding} {head : String} (rest : String)
    (hf : f.message = head ++ rest) :
    f.Begins head := by
  rw [Begins, hf, String.toList_append]
  exact List.prefix_append _ _

end Finding

theorem findingAt_begins {p : PassingTime} {message head : String} (rest : String)
    (hm : message = head ++ rest) : (findingAt p message).Begins head :=
  Finding.begins_of_message rest hm

/-- How a check words its reports on times. -/
def Monotonicity.text : Monotonicity → String
  | .increasing => "Expected passing time to increase in "
  | .nonDecreasing => "Expected passing time to not decrease in "

theorem Monotonicity.prefix_text (mode : Monotonicity) :
    Finding.timeText.toList <+: mode.text.toList := by
  cases mode <;> decide

theorem Monotonicity.text_append (mode : Monotonicity) (location : String) :
    s!"Expected passing time {mode.expectation} in {location}" = mode.text ++ location := by
  cases mode <;> rfl

theorem onTime_findingAt (mode : Monotonicity) (p : PassingTime) (location : String) :
    (findingAt p (mode.text ++ location)).OnTime := by
  have hmessage : (mode.text ++ location).toList = mode.text.toList ++ location.toList :=
    String.toList_append
  exact mode.prefix_text.trans (hmessage ▸ List.prefix_append _ _)

/-! Topics -/

/-- What a finding on a passing time may be about. -/
inductive JourneyTopic where
  | time
  | arrivalOffset
  | departureOffset
  | stopPoint
deriving DecidableEq

namespace JourneyTopic

/-- The topics in the order in which a passing time is checked for them. -/
def all : List JourneyTopic :=
  [.time, .arrivalOffset, .departureOffset, .stopPoint]

/-- How the findings on a topic begin. -/
def texts : JourneyTopic → List String
  | .time => [Finding.timeText]
  | .arrivalOffset => [Finding.offsetText "ArrivalDayOffset"]
  | .departureOffset => [Finding.offsetText "DepartureDayOffset"]
  | .stopPoint =>
    ["Expected StopPointInJourneyPattern(@id=", "Missing StopPointInJourneyPatternRef in "]

/-- No text of one topic continues a text of another one. -/
theorem eq_of_isPrefix {a b : JourneyTopic} {s t : String} (hs : s ∈ a.texts) (ht : t ∈ b.texts)
    (h : s.toList <+: t.toList) : a = b := by
  have hall : ∀ s ∈ a.texts, ∀ t ∈ b.texts, s.toList <+: t.toList → a = b := by
    cases a <;> cases b <;> decide
  exact hall s hs t ht h

end JourneyTopic

namespace Finding

def Concerns (f : Finding) (topic : JourneyTopic) : Prop :=
  ∃ text ∈ topic.texts, f.Begins text

theorem Concerns.eq {f : Finding} {a b : JourneyTopic} (ha : f.Concerns a) (hb : f.Concerns b) :
    a = b := by
  obtain ⟨s, hs, hfs⟩ := ha
  obtain ⟨t, ht, hft⟩ := hb
  -- of two texts that a message begins with one begins with the other
  rcases List.prefix_or_prefix_of_prefix hfs hft with h | h
  · exact JourneyTopic.eq_of_isPrefix hs ht h
  · exact (JourneyTopic.eq_of_isPrefix ht hs h).symm

theorem onTime_iff {f : Finding} : f.OnTime ↔ f.Concerns .time := by
  simp [OnTime, Concerns, JourneyTopic.texts]

theorem onDayOffset_iff {f : Finding} :
    f.OnDayOffset ↔ f.Concerns .arrivalOffset ∨ f.Concerns .departureOffset := by
  simp [OnDayOffset, Concerns, JourneyTopic.texts]

end Finding

namespace PassingStep

variable {s : PassingStep} {stopPoints : StopPointIndex} {mode : Monotonicity}

/-- The findings of a step on one topic. -/
def reports (s : PassingStep) (stopPoints : StopPointIndex) (mode : Monotonicity) :
    JourneyTopic → List Finding
  | .time => s.previous?.elim [] fun p => timeFindings mode s.location p s.current
  | .arrivalOffset => s.previous?.elim [] fun p => offsetFindings "ArrivalDayOffset" s.location
      p.arrivalOffset s.current.arrivalOffset s.current
  | .departureOffset => s.previous?.elim [] fun p => offsetFindings "DepartureDayOffset" s.location
      p.departureOffset s.current.departureOffset s.current
  | .stopPoint => stopPointFindings stopPoints s.location s.current

theorem findings_eq_flatMap (s : PassingStep) (stopPoints : StopPointIndex) (mode : Monotonicity) :
    s.findings stopPoints mode = JourneyTopic.all.flatMap (s.reports stopPoints mode) := by
  obtain ⟨journeyId, previous?, current⟩ := s
  cases previous? with
  | none => simp [findings, passingTimeFindings, JourneyTopic.all, reports, location]
  | some p =>
    simp [findings, passingTimeFindings, transitionFindings, JourneyTopic.all, reports, location]

/-- Nothing, or one finding on a topic at the line of a passing time. -/
def Tells (current : PassingTime) (topic : JourneyTopic) (fs : List Finding) : Prop :=
  fs = [] ∨ ∃ f, fs = [f] ∧ f.Concerns topic ∧ f.line = some current.line

theorem tells_findingAt {p : PassingTime} {topic : JourneyTopic} {message head : String}
    (hhead : head ∈ topic.texts) (rest : String) (hm : message = head ++ rest) :
    Tells p topic [findingAt p message] :=
  .inr ⟨_, rfl, ⟨head, hhead, findingAt_begins rest hm⟩, rfl⟩

theorem tells_timeFindings (location : String) (p q : PassingTime) :
    Tells q .time (timeFindings mode location p q) := by
  unfold timeFindings
  split
  · split
    · rw [mode.text_append]
      exact .inr ⟨_, rfl, Finding.onTime_iff.mp (onTime_findingAt mode q location), rfl⟩
    · exact .inl rfl
  · exact .inl rfl

theorem tells_offsetFindings {topic : JourneyTopic} {name : String}
    (hname : Finding.offsetText name ∈ topic.texts) (location : String)
    (previous current : Option Int) (p : PassingTime) :
    Tells p topic (offsetFindings name location previous current p) := by
  unfold offsetFindings
  split
  · split
    · exact tells_findingAt hname location rfl
    · exact .inl rfl
  · exact .inl rfl

theorem tells_stopPointFindings (location : String) (p : PassingTime) :
    Tells p .stopPoint (stopPointFindings stopPoints location p) := by
  unfold stopPointFindings
  split
  · rename_i id _
    split
    · exact .inl rfl
    · apply tells_findingAt List.mem_cons_self (id ++ ") referenced from " ++ location)
      rw [String.append_assoc, String.append_assoc, String.append_assoc]
      rfl
  · exact tells_findingAt (List.mem_cons_of_mem _ (List.mem_singleton_self _)) location rfl

theorem tells_reports (s : PassingStep) (stopPoints : StopPointIndex) (mode : Monotonicity)
    (topic : JourneyTopic) : Tells s.current topic (s.reports stopPoints mode topic) := by
  obtain ⟨journeyId, previous?, current⟩ := s
  cases previous? with
  | none =>
    cases topic with
    | stopPoint => exact tells_stopPointFindings _ _
    | _ => exact .inl rfl
  | some p =>
    cases topic with
    | time => exact tells_timeFindings _ _ _
    | arrivalOffset => exact tells_offsetFindings (List.mem_singleton_self _) _ _ _ _
    | departureOffset => exact tells_offsetFindings (List.mem_singleton_self _) _ _ _ _
    | stopPoint => exact tells_stopPointFindings _ _

theorem concerns_of_mem_reports {f : Finding} {topic : JourneyTopic}
    (hf : f ∈ s.reports stopPoints mode topic) : f.Concerns topic := by
  rcases tells_reports s stopPoints mode topic with h | ⟨g, h, hg, -⟩
  · simp [h] at hf
  · rw [h, List.mem_singleton] at hf
    exact hf ▸ hg

theorem mem_findings_iff {f : Finding} :
    f ∈ s.findings stopPoints mode ↔ ∃ topic, f ∈ s.reports stopPoints mode topic := by
  rw [findings_eq_flatMap, List.mem_flatMap]
  constructor
  · rintro ⟨topic, -, hf⟩
    exact ⟨topic, hf⟩
  · rintro ⟨topic, hf⟩
    exact ⟨topic, by cases topic <;> simp [JourneyTopic.all], hf⟩

/-- The findings of a step on a topic are those of its findings that are about it. -/
theorem forall_not_concerns_iff {topic : JourneyTopic} :
    (∀ f ∈ s.findings stopPoints mode, ¬ f.Concerns topic) ↔
      s.reports stopPoints mode topic = [] := by
  rw [List.eq_nil_iff_forall_not_mem]
  constructor
  · intro h f hf
    exact h f (mem_findings_iff.mpr ⟨topic, hf⟩) (concerns_of_mem_reports hf)
  · intro h f hf hconcerns
    obtain ⟨other, hother⟩ := mem_findings_iff.mp hf
    obtain rfl := (concerns_of_mem_reports hother).eq hconcerns
    exact h f hother

end PassingStep

end TransitAudit
