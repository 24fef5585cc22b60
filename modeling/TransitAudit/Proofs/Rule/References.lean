import TransitAudit.Proofs.Document.Frames
import TransitAudit.Proofs.Journey.Local
import TransitAudit.Proofs.Text.Trim
import TransitAudit.Rule.Run

/-! References to elements by their ids. White space around a reference is ignored, but white space
around an id is part of the id. So a reference that repeats such an id leads nowhere, unless the id
without the white space is declared, too. -/
namespace TransitAudit

/-- The reference is found among the ids. -/
def Resolves (ids : List String) (reference : String) : Prop :=
  Text.trimmed reference ∈ ids

/-- The ids of those of the nodes that have one. -/
def idsOf (nodes : List Node) : List String :=
  nodes.filterMap (·.attr? "id")

/-! Passing times and the stop points of journey patterns -/

namespace StopPointIndex

theorem contains_ofIds {ids : List String} {id : String} :
    (ofIds ids).contains id = true ↔ id ∈ ids := by
  rw [contains, ofIds, List.contains_iff_mem, List.mem_eraseDups]

theorem build_of_nodesAt {root : Node} {declared : List Node}
    (h : root.nodesAt path = .ok declared) : build root = .ok (ofIds (declared.map (·.text))) := by
  rw [build, h]
  rfl

theorem misses_ofIds {ids : List String} {reference? : Option String} :
    (ofIds ids).Misses reference? ↔
      ¬ ∃ reference ∈ reference?, Text.blank reference = false ∧ Resolves ids reference := by
  constructor
  · rintro h ⟨reference, href, htext, hids⟩
    rcases h reference href with hempty | habsent
    · rw [← Text.isEmpty_trimmed, hempty] at htext
      cases htext
    · rw [contains_ofIds.mpr hids] at habsent
      cases habsent
  · intro h reference href
    by_cases htext : Text.blank reference = false
    · right
      rw [Bool.eq_false_iff]
      exact fun hids => h ⟨reference, href, htext, contains_ofIds.mp hids⟩
    · left
      rw [← String.isEmpty_iff, Text.isEmpty_trimmed]
      simpa using htext

end StopPointIndex

theorem ReportedAt.line_eq {stopPoints : StopPointIndex} {n : Node} {fs : List Finding}
    (h : ReportedAt stopPoints n fs) : ∀ f ∈ fs, f.line = some n.line := by
  obtain ⟨about, rfl, habout, -⟩ := h
  intro f hf
  obtain ⟨topic, -, hf⟩ := List.mem_filterMap.mp hf
  exact (habout topic f hf).1

theorem ReportedAt.exists_concerns_iff {stopPoints : StopPointIndex} {n : Node}
    {fs : List Finding} (h : ReportedAt stopPoints n fs) :
    ∃ reference?, n.stringAt? stopPointRefPath = .ok reference? ∧
      ((∃ f ∈ fs, f.Concerns .stopPoint) ↔ stopPoints.Misses reference?) := by
  obtain ⟨about, rfl, habout, reference?, href, hmisses⟩ := h
  refine ⟨reference?, href, Iff.trans ?_ hmisses⟩
  rw [Option.isSome_iff_exists]
  constructor
  · rintro ⟨f, hf, hconcerns⟩
    obtain ⟨topic, -, hf⟩ := List.mem_filterMap.mp hf
    -- the finding is about one topic only
    obtain rfl := ((habout topic f hf).2 .stopPoint).mp hconcerns
    exact ⟨f, hf⟩
  · rintro ⟨f, hf⟩
    refine ⟨f, List.mem_filterMap.mpr ⟨.stopPoint, by decide, hf⟩, ?_⟩
    exact ((habout .stopPoint f hf).2 .stopPoint).mpr rfl

/-- The findings at a passing time include one on its stop point just when the reference to that
resolves to nothing. -/
def StopPointReported (ids : List String) (passingTime : Node) (fs : List Finding) : Prop :=
  (∀ f ∈ fs, f.line = some passingTime.line) ∧
  ∃ reference?, passingTime.stringAt? stopPointRefPath = .ok reference? ∧
    ((∃ f ∈ fs, f.Concerns .stopPoint) ↔
      ¬ ∃ reference ∈ reference?, Text.blank reference = false ∧ Resolves ids reference)

theorem checkJourney_stopPointReported (ids : List String) (journey : Node)
    (mode : Monotonicity) : ∃ passingTimes shares,
      journey.nodesAt "passingTimes/TimetabledPassingTime" = .ok passingTimes ∧
      checkJourney journey (.ofIds ids) mode = .ok shares.flatten ∧
      List.Forall₂ (StopPointReported ids) passingTimes shares := by
  obtain ⟨ps, hps⟩ := exists_passingTimesOf journey
  obtain ⟨passingTimes, hnodes, hread⟩ := bind_eq_ok_iff.mp hps
  refine ⟨passingTimes, findingsByPosition (.ofIds ids) mode journey ps, hnodes, ?_, ?_⟩
  · rw [checkJourney_of_passingTimesOf hps, List.flatMap_def, findingsByPosition]
  · apply (reportedAt_findingsByPosition hread (.ofIds ids) mode).imp
    intro n fs hfs
    obtain ⟨reference?, href, hiff⟩ := hfs.exists_concerns_iff
    exact ⟨hfs.line_eq, reference?, href, hiff.trans StopPointIndex.misses_ofIds⟩

/-! Stop assignments and their two ends -/

theorem withId?_eq_none_iff {nodes : List Node} {id : String} :
    withId? nodes id = none ↔ id ∉ idsOf nodes := by
  simp [withId?, idsOf]

theorem bind_withId?_eq_none_iff {nodes : List Node} {reference? : Option String} :
    (reference?.bind fun reference => withId? nodes (Text.trimmed reference)) = none ↔
      ¬ ∃ reference ∈ reference?, Resolves (idsOf nodes) reference := by
  cases reference? with
  | none => simp
  | some reference => simp [withId?_eq_none_iff, Resolves]

theorem referredFrom_eq {path : String} {n : Node} {reference? : Option String}
    (h : n.stringAt? path = .ok reference?) (nodes : List Node) : referredFrom n path nodes =
      .ok (reference?.bind fun reference => withId? nodes (Text.trimmed reference)) := by
  rw [referredFrom, h]
  rfl

theorem Coordinates.exists_read (location : String) {latitude longitude : PathExpr}
    (hlatitude : PathExpr.parse s!"{location}/Latitude" = .ok latitude)
    (hlongitude : PathExpr.parse s!"{location}/Longitude" = .ok longitude) (n : Node) :
    ∃ c?, Coordinates.read n location = .ok c? := by
  rw [Coordinates.read, numberAt, numberAt, Node.stringAt?_of_parse_ok hlatitude,
    Node.stringAt?_of_parse_ok hlongitude]
  exact ⟨_, rfl⟩

/-- What is said about an assignment one of whose ends is not found. -/
def missingEnd (element : String) (assignment : Node) : Finding :=
  let id := (assignment.attr? "id").getD ""
  inconsistency assignment s!"Missing {element} (PassengerStopAssignment @id={id})"

def scheduledStopPointRefPath : String := "ScheduledStopPointRef/@ref"

def stopPlaceRefPath : String := "StopPlaceRef/@ref"

section Assignment

variable {scheduledStopPoints stopPlaces : List Node} {assignment : Node}

/-- What is reported of an assignment whose ends are found or not, leaving aside their distance. -/
def missingEnds (assignment : Node) : Option Node → Option Node → List Finding
  | none, _ => [missingEnd "ScheduledStopPoint" assignment]
  | some _, none => [missingEnd "StopPlace" assignment]
  | some _, some _ => []

theorem missingEnd_stopPlace_ne :
    missingEnd "StopPlace" assignment ≠ missingEnd "ScheduledStopPoint" assignment := by
  intro h
  -- the names differ in their second letter
  have hletter := congrArg (fun f => f.message.toList[9]?) h
  simp [missingEnd, inconsistency, Finding.withLine, Finding.consistency, Finding.ofKind,
    toString] at hletter

theorem assignmentFindings_eq {point? place? : Option Node}
    (hpoint : referredFrom assignment scheduledStopPointRefPath scheduledStopPoints = .ok point?)
    (hplace : referredFrom assignment stopPlaceRefPath stopPlaces = .ok place?) (limit : Float) :
    ∃ distant : List Finding,
      (∀ f ∈ distant, f.extra ≠ none ∧ f.line = some assignment.line) ∧
      assignmentFindings limit scheduledStopPoints stopPlaces assignment =
        .ok (missingEnds assignment point? place? ++ distant) := by
  rw [scheduledStopPointRefPath] at hpoint
  rw [stopPlaceRefPath] at hplace
  rw [assignmentFindings, hpoint]
  match point?, place? with
  | none, _ => exact ⟨[], by simp, rfl⟩
  | some point, none =>
    refine ⟨[], by simp, ?_⟩
    simp only [bind, Except.bind, hplace]
    rfl
  | some point, some place =>
    obtain ⟨placeAt?, hplaceAt⟩ := Coordinates.exists_read "Centroid/Location"
      (by with_unfolding_all rfl) (by with_unfolding_all rfl) place
    obtain ⟨pointAt?, hpointAt⟩ := Coordinates.exists_read "Location"
      (by with_unfolding_all rfl) (by with_unfolding_all rfl) point
    simp only [bind, Except.bind, hplace, hplaceAt, hpointAt]
    split
    · split
      · exact ⟨_, by simp [Finding.withExtra, inconsistency, Finding.withLine], rfl⟩
      · exact ⟨[], by simp, rfl⟩
    · exact ⟨[], by simp, rfl⟩

/-- The first end of an assignment is reported missing just when the reference to it resolves to
nothing, and the second just when that is so of it and not of the first. -/
def EndsReported (scheduledStopPoints stopPlaces : List Node) (assignment : Node)
    (fs : List Finding) : Prop :=
  (∀ f ∈ fs, f.line = some assignment.line) ∧
  ∃ point? place?, assignment.stringAt? scheduledStopPointRefPath = .ok point? ∧
    assignment.stringAt? stopPlaceRefPath = .ok place? ∧
    (missingEnd "ScheduledStopPoint" assignment ∈ fs ↔
      ¬ ∃ point ∈ point?, Resolves (idsOf scheduledStopPoints) point) ∧
    (missingEnd "StopPlace" assignment ∈ fs ↔
      (∃ point ∈ point?, Resolves (idsOf scheduledStopPoints) point) ∧
        ¬ ∃ place ∈ place?, Resolves (idsOf stopPlaces) place)

theorem line_missingEnds {point? place? : Option Node} :
    ∀ f ∈ missingEnds assignment point? place?, f.line = some assignment.line := by
  match point?, place? with
  | none, _ => simp [missingEnds, missingEnd, inconsistency, Finding.withLine]
  | some _, none => simp [missingEnds, missingEnd, inconsistency, Finding.withLine]
  | some _, some _ => simp [missingEnds]

theorem mem_missingEnds_iff {point? place? : Option Node} {distant : List Finding}
    (hdistant : ∀ f ∈ distant, f.extra ≠ none) :
    (missingEnd "ScheduledStopPoint" assignment ∈ missingEnds assignment point? place? ++ distant ↔
      point? = none) ∧
    (missingEnd "StopPlace" assignment ∈ missingEnds assignment point? place? ++ distant ↔
      point? ≠ none ∧ place? = none) := by
  -- a finding on a distance comes with a further value
  have hnot (element : String) : missingEnd element assignment ∉ distant := by
    intro h
    exact hdistant _ h rfl
  rw [List.mem_append, List.mem_append, or_iff_left (hnot _), or_iff_left (hnot _)]
  match point?, place? with
  | none, _ => simp [missingEnds, missingEnd_stopPlace_ne]
  | some _, none => simp [missingEnds, missingEnd_stopPlace_ne.symm]
  | some _, some _ => simp [missingEnds]

theorem exists_endsReported (limit : Float) (scheduledStopPoints stopPlaces : List Node)
    (assignment : Node) :
    ∃ fs, assignmentFindings limit scheduledStopPoints stopPlaces assignment = .ok fs ∧
      EndsReported scheduledStopPoints stopPlaces assignment fs := by
  obtain ⟨point?, hpoint⟩ : ∃ point?, assignment.stringAt? scheduledStopPointRefPath =
      .ok point? := ⟨_, Node.stringAt?_of_parse_ok (by with_unfolding_all rfl) assignment⟩
  obtain ⟨place?, hplace⟩ : ∃ place?, assignment.stringAt? stopPlaceRefPath = .ok place? :=
    ⟨_, Node.stringAt?_of_parse_ok (by with_unfolding_all rfl) assignment⟩
  obtain ⟨distant, hdistant, hfindings⟩ := assignmentFindings_eq
    (referredFrom_eq hpoint scheduledStopPoints) (referredFrom_eq hplace stopPlaces) limit
  obtain ⟨hfirst, hsecond⟩ := mem_missingEnds_iff fun f hf => (hdistant f hf).1
  refine ⟨_, hfindings, ?_, point?, place?, hpoint, hplace, ?_, ?_⟩
  · intro f hf
    rcases List.mem_append.mp hf with h | h
    · exact line_missingEnds f h
    · exact (hdistant f h).2
  · rw [hfirst, bind_withId?_eq_none_iff]
  · rw [hsecond, ne_eq, bind_withId?_eq_none_iff, bind_withId?_eq_none_iff, not_not]

end Assignment

def stopAssignmentsPath : String :=
  Path.join [framesPath, "ServiceFrame", "stopAssignments", "PassengerStopAssignment"]

set_option maxRecDepth 4000 in
theorem nodesAt_stopAssignmentsPath (n : Node) : n.nodesAt stopAssignmentsPath = .ok
    ((belowFrames ["ServiceFrame", "stopAssignments", "PassengerStopAssignment"]).select n) := by
  have hp : PathExpr.parse stopAssignmentsPath = .ok ⟨stopAssignmentsPath,
      [belowFrames ["ServiceFrame", "stopAssignments", "PassengerStopAssignment"]]⟩ := by
    with_unfolding_all rfl
  exact Node.nodesAt_of_parse hp n

theorem assignmentDistanceCheck_endsReported {root : Node}
    {scheduledStopPoints stopPlaces assignments : List Node}
    (hpoints : root.nodesAt scheduledStopPointsPath = .ok scheduledStopPoints)
    (hplaces : root.nodesAt stopPlacesPath = .ok stopPlaces)
    (hassignments : root.nodesAt stopAssignmentsPath = .ok assignments) (limit : Float) :
    ∃ shares, assignmentDistanceCheck limit root = .ok shares.flatten ∧
      List.Forall₂ (EndsReported scheduledStopPoints stopPlaces) assignments shares := by
  choose share hshare hreported using exists_endsReported limit scheduledStopPoints stopPlaces
  refine ⟨assignments.map share, ?_, ?_⟩
  · rw [stopAssignmentsPath] at hassignments
    rw [assignmentDistanceCheck, hpoints, hplaces, hassignments, ← List.flatMap_def]
    exact flatten_mapM_eq_ok fun a _ => hshare a
  · rw [List.forall₂_map_right_iff, List.forall₂_same]
    exact fun a _ => hreported a

/-- Of references to stop points and to the ends of assignments, those are reported as dangling or
missing that do not resolve. A reference that repeats an id is one of them just when the ids do not
include this id without the white space around it. -/
theorem unresolved_references_reported (d : ParsedDocument) :
    (∃ declared, d.rootNode.nodesAt StopPointIndex.path = .ok declared ∧
      StopPointIndex.build d.rootNode = .ok (.ofIds (declared.map (·.text))) ∧
      ∀ journey mode, ∃ passingTimes shares,
        journey.nodesAt "passingTimes/TimetabledPassingTime" = .ok passingTimes ∧
        checkJourney journey (.ofIds (declared.map (·.text))) mode = .ok shares.flatten ∧
        List.Forall₂ (StopPointReported (declared.map (·.text))) passingTimes shares) ∧
    ∃ scheduledStopPoints stopPlaces assignments,
      d.rootNode.nodesAt scheduledStopPointsPath = .ok scheduledStopPoints ∧
      d.rootNode.nodesAt stopPlacesPath = .ok stopPlaces ∧
      d.rootNode.nodesAt stopAssignmentsPath = .ok assignments ∧
      ∀ limits inputs, ∃ shares,
        Rule.check .assignmentDistances limits inputs d.rootNode = .ok shares.flatten ∧
        List.Forall₂ (EndsReported scheduledStopPoints stopPlaces) assignments shares := by
  constructor
  · have hdeclared := nodesAt_stopPointsPath d.rootNode
    refine ⟨_, hdeclared, StopPointIndex.build_of_nodesAt hdeclared, ?_⟩
    exact checkJourney_stopPointReported _
  · have hpoints := nodesAt_scheduledStopPointsPath d.rootNode
    have hplaces := nodesAt_stopPlacesPath d.rootNode
    have hassignments := nodesAt_stopAssignmentsPath d.rootNode
    refine ⟨_, _, _, hpoints, hplaces, hassignments, fun limits inputs => ?_⟩
    exact assignmentDistanceCheck_endsReported hpoints hplaces hassignments limits.assignment

/-- A journey pattern with a stop point whose id has white space around it, and a journey that
refers to the stop point by that id. -/
def paddedIdDocument : ParsedDocument :=
  framesDocument
    [.element ⟨40, "ServiceFrame", [], []⟩ [.element ⟨54, "journeyPatterns", [], []⟩
      [.element ⟨71, "ServiceJourneyPattern", [], []⟩ [.element ⟨94, "pointsInSequence", [], []⟩
        [.element ⟨112, "StopPointInJourneyPattern", [⟨"id", none, " P "⟩], []⟩ []]]]],
      .element ⟨225, "TimetableFrame", [], []⟩ [.element ⟨241, "vehicleJourneys", [], []⟩
        [.element ⟨258, "ServiceJourney", [], []⟩ [.element ⟨274, "passingTimes", [], []⟩
          [.element ⟨288, "TimetabledPassingTime", [], []⟩
            [.element ⟨311, "StopPointInJourneyPatternRef", [⟨"ref", none, " P "⟩], []⟩ []]]]]]]

set_option maxRecDepth 4000 in
theorem padded_id_dangling :
    (Source.ofText "doc.xml" ("<p><dataObjects><CompositeFrame><frames><ServiceFrame>" ++
        "<journeyPatterns><ServiceJourneyPattern><pointsInSequence>" ++
        "<StopPointInJourneyPattern id=' P '/></pointsInSequence></ServiceJourneyPattern>" ++
        "</journeyPatterns></ServiceFrame><TimetableFrame><vehicleJourneys><ServiceJourney>" ++
        "<passingTimes><TimetabledPassingTime><StopPointInJourneyPatternRef ref=' P '/>" ++
        "</TimetabledPassingTime></passingTimes></ServiceJourney></vehicleJourneys>" ++
        "</TimetableFrame></frames></CompositeFrame></dataObjects></p>")).parse =
          .ok paddedIdDocument ∧
      StopPointIndex.build paddedIdDocument.rootNode = .ok ⟨[" P "]⟩ ∧
      ∃ journey passingTime,
        paddedIdDocument.rootNode.nodesAt serviceJourneysPath = .ok [journey] ∧
        journey.nodesAt "passingTimes/TimetabledPassingTime" = .ok [passingTime] ∧
        passingTime.stringAt? stopPointRefPath = .ok (some " P ") ∧
        ∀ mode, checkJourney journey ⟨[" P "]⟩ mode = .ok [(Finding.consistency
          ("Expected StopPointInJourneyPattern(@id=P) referenced from ServiceJourney(@id=), " ++
            "TimetabledPassingTime(@id=)")).withLine 1] := by
  have hpassing : PathExpr.parse "passingTimes/TimetabledPassingTime" =
      .ok ⟨"passingTimes/TimetabledPassingTime", [⟨false, [⟨.child, .named "passingTimes", []⟩,
        ⟨.child, .named "TimetabledPassingTime", []⟩]⟩]⟩ := by with_unfolding_all rfl
  refine ⟨?_, ?_, _, _, (nodesAt_serviceJourneysPath _).trans rfl,
    (Node.nodesAt_of_parse hpassing _).trans rfl, ?_, ?_⟩
  · rw [← String.ofList_append, ← String.ofList_append, ← String.ofList_append,
      ← String.ofList_append, ← String.ofList_append, ← String.ofList_append, Source.parse_ofList]
    with_unfolding_all rfl
  · rw [StopPointIndex.build, nodesAt_stopPointsPath]
    with_unfolding_all rfl
  · with_unfolding_all rfl
  · intro mode
    cases mode <;> with_unfolding_all rfl

end TransitAudit
