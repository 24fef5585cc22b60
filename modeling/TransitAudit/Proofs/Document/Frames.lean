import TransitAudit.Proofs.Document.Lookup
import TransitAudit.Proofs.Document.Reading
import TransitAudit.Proofs.Path.Inward
import TransitAudit.Rule.Naming

/-! Places below the frames of a document. Most checks begin with the elements at one of these
places, which child steps lead to from the root element. So these elements come in document order
whenever all elements start in that order. -/
namespace TransitAudit

def frameSteps : List Path.Step :=
  [⟨.self, .any, []⟩, ⟨.child, .named "dataObjects", []⟩, ⟨.child, .named "CompositeFrame", []⟩,
    ⟨.child, .named "frames", []⟩]

/-! Journeys and the stop points of journey patterns -/

/-- The text of the path to the parents of the journeys. -/
def vehicleJourneysPath : String :=
  "./dataObjects/CompositeFrame/frames/TimetableFrame/vehicleJourneys"

def vehicleJourneysSteps : List Path.Step :=
  frameSteps ++ [⟨.child, .named "TimetableFrame", []⟩, ⟨.child, .named "vehicleJourneys", []⟩]

def serviceJourneyStep : Path.Step :=
  ⟨.child, .named "ServiceJourney", []⟩

def serviceJourneyPath : Path.LocationPath :=
  ⟨false, vehicleJourneysSteps ++ [serviceJourneyStep]⟩

def stopPointPath : Path.LocationPath :=
  ⟨false, frameSteps ++ [⟨.child, .named "ServiceFrame", []⟩,
    ⟨.child, .named "journeyPatterns", []⟩, ⟨.child, .any, [.nameContains "JourneyPattern"]⟩,
    ⟨.child, .named "pointsInSequence", []⟩, ⟨.child, .named "StopPointInJourneyPattern", []⟩,
    ⟨.attribute, .named "id", []⟩]⟩

set_option maxRecDepth 4000 in
theorem nodesAt_serviceJourneysPath (n : Node) :
    n.nodesAt serviceJourneysPath = .ok (serviceJourneyPath.select n) := by
  have hp : PathExpr.parse serviceJourneysPath =
      .ok ⟨serviceJourneysPath, [serviceJourneyPath]⟩ := by with_unfolding_all rfl
  exact Node.nodesAt_of_parse hp n

set_option maxRecDepth 4000 in
theorem nodesAt_vehicleJourneysPath (n : Node) :
    n.nodesAt vehicleJourneysPath =
      .ok (Path.LocationPath.select ⟨false, vehicleJourneysSteps⟩ n) := by
  have hp : PathExpr.parse vehicleJourneysPath =
      .ok ⟨vehicleJourneysPath, [⟨false, vehicleJourneysSteps⟩]⟩ := by with_unfolding_all rfl
  exact Node.nodesAt_of_parse hp n

set_option maxRecDepth 4000 in
theorem nodesAt_stopPointsPath (n : Node) :
    n.nodesAt StopPointIndex.path = .ok (stopPointPath.select n) := by
  have hpath : StopPointIndex.path = "./dataObjects/CompositeFrame/frames/ServiceFrame/" ++
      "journeyPatterns/*[contains(name(), 'JourneyPattern')]/" ++
      "pointsInSequence/StopPointInJourneyPattern/@id" := by decide +kernel
  have hp : PathExpr.parse StopPointIndex.path =
      .ok ⟨StopPointIndex.path, [stopPointPath]⟩ := by
    rw [hpath, ← String.ofList_append, ← String.ofList_append, PathExpr.parse_ofList]
    with_unfolding_all rfl
  exact Node.nodesAt_of_parse hp n

/-! Other elements, by the names of the elements from the frames down to them -/

/-- The path from the root element through the frames to elements with these names. -/
def belowFrames (names : List String) : Path.LocationPath :=
  ⟨false, frameSteps ++ names.map fun name => ⟨.child, .named name, []⟩⟩

theorem inward_belowFrames (names : List String) : ∀ s ∈ (belowFrames names).steps, s.Inward := by
  intro s hs
  rcases List.mem_append.mp hs with h | h
  · have hall : ∀ s ∈ frameSteps, s.Inward := by
      unfold Path.Step.Inward
      decide
    exact hall s h
  · obtain ⟨name, -, rfl⟩ := List.mem_map.mp h
    exact .inr (.inl rfl)

theorem select_belowFrames_sublist {d : ParsedDocument} (hd : d.StartsAscending)
    (names : List String) : ((belowFrames names).select d.rootNode).Sublist d.elements :=
  Path.select_sublist hd (inward_belowFrames names)

/-- The elements are in document order just when they have one parent or start in the order in which
they stand. -/
theorem select_belowFrames_sublist_iff {d : ParsedDocument} (names : List String) (name : String) :
    ((belowFrames (names ++ [name])).select d.rootNode).Sublist d.elements ↔
      ((belowFrames names).select d.rootNode).length ≤ 1 ∨
        d.StartAsTheyStand ((belowFrames (names ++ [name])).select d.rootNode) := by
  have hconcat : belowFrames (names ++ [name]) =
      ⟨false, (belowFrames names).steps ++ [⟨.child, .named name, []⟩]⟩ := by
    simp [belowFrames]
  have hinward := inward_belowFrames (names ++ [name])
  rw [hconcat] at hinward ⊢
  exact Path.select_concat_sublist_iff hinward

set_option maxRecDepth 4000 in
theorem nodesAt_stopPlacesPath (n : Node) : n.nodesAt stopPlacesPath =
    .ok ((belowFrames ["SiteFrame", "stopPlaces", "StopPlace"]).select n) := by
  have hp : PathExpr.parse stopPlacesPath =
      .ok ⟨stopPlacesPath, [belowFrames ["SiteFrame", "stopPlaces", "StopPlace"]]⟩ := by
    with_unfolding_all rfl
  exact Node.nodesAt_of_parse hp n

set_option maxRecDepth 4000 in
theorem nodesAt_scheduledStopPointsPath (n : Node) : n.nodesAt scheduledStopPointsPath =
    .ok ((belowFrames ["ServiceFrame", "scheduledStopPoints", "ScheduledStopPoint"]).select n) := by
  have hp : PathExpr.parse scheduledStopPointsPath = .ok ⟨scheduledStopPointsPath,
      [belowFrames ["ServiceFrame", "scheduledStopPoints", "ScheduledStopPoint"]]⟩ := by
    with_unfolding_all rfl
  exact Node.nodesAt_of_parse hp n

/-- The document with the text `<p><dataObjects><CompositeFrame><frames>`, this content, and the end
tags of the four elements. -/
def framesDocument (content : List Xml.Content) : ParsedDocument :=
  ⟨⟨⟨⟨0, "p", [], []⟩, [.element ⟨3, "dataObjects", [], []⟩
    [.element ⟨16, "CompositeFrame", [], []⟩ [.element ⟨32, "frames", [], []⟩ content]]]⟩, []⟩,
    ⟨#[0]⟩⟩

end TransitAudit
