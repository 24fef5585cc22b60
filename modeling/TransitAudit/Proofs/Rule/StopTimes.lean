import TransitAudit.Proofs.Document.Frames
import TransitAudit.Proofs.Failure
import TransitAudit.Proofs.Journey.Local
import TransitAudit.Rule.Run

/-! Departures and arrivals at the stop points of journey patterns. A passing time needs a departure
unless its stop point is the last of the pattern, and an arrival unless it is the first. Stop points
without an id do not count here, so that a stop point is taken for the last or the first one if all
those behind it or ahead of it have no id. -/
namespace TransitAudit

/-! The passing times of a document by the references to their stop points -/

def timetabledPassingTimesPath : String :=
  Path.join [serviceJourneysPath, "passingTimes", "TimetabledPassingTime"]

set_option maxRecDepth 4000 in
theorem nodesAt_timetabledPassingTimesPath (n : Node) : n.nodesAt timetabledPassingTimesPath =
    .ok ((belowFrames ["TimetableFrame", "vehicleJourneys", "ServiceJourney", "passingTimes",
      "TimetabledPassingTime"]).select n) := by
  have hp : PathExpr.parse timetabledPassingTimesPath = .ok ⟨timetabledPassingTimesPath,
      [belowFrames ["TimetableFrame", "vehicleJourneys", "ServiceJourney", "passingTimes",
        "TimetabledPassingTime"]]⟩ := by with_unfolding_all rfl
  exact Node.nodesAt_of_parse hp n

/-- The path from a passing time to the reference to its stop point. -/
def stopPointRef : Path.LocationPath :=
  ⟨false, [⟨.child, .named "StopPointInJourneyPatternRef", []⟩, ⟨.attribute, .named "ref", []⟩]⟩

/-- The passing times that refer to a stop point, with their references. -/
def byStopPoint (nodes : List Node) : List (String × Node) :=
  nodes.filterMap fun t => ((stopPointRef.select t).head?.map (·.text)).map (·, t)

theorem stringAt?_stopPointRefPath (t : Node) :
    t.stringAt? stopPointRefPath = .ok ((stopPointRef.select t).head?.map (·.text)) := by
  have hp : PathExpr.parse stopPointRefPath = .ok ⟨stopPointRefPath, [stopPointRef]⟩ := by
    with_unfolding_all rfl
  rw [Node.stringAt?_of_parse_ok hp, Path.evaluate_singleton]

theorem mem_byStopPoint_iff {nodes : List Node} {reference : String} {t : Node} :
    (reference, t) ∈ byStopPoint nodes ↔
      t ∈ nodes ∧ t.stringAt? stopPointRefPath = .ok (some reference) := by
  rw [byStopPoint, List.mem_filterMap, stringAt?_stopPointRefPath]
  constructor
  · rintro ⟨t', ht, hpair⟩
    obtain ⟨reference', href, hpair⟩ := Option.map_eq_some_iff.mp hpair
    cases hpair
    exact ⟨ht, congrArg _ href⟩
  · rintro ⟨ht, href⟩
    exact ⟨t, ht, by rw [Except.ok.inj href]; rfl⟩

theorem passingTimesByStopPoint_eq {root : Node} {nodes : List Node}
    (h : root.nodesAt timetabledPassingTimesPath = .ok nodes) :
    passingTimesByStopPoint root = .ok (byStopPoint nodes) := by
  have hread := mapM_eq_ok_map fun t (_ : t ∈ nodes) => stringAt?_stopPointRefPath t
  rw [timetabledPassingTimesPath] at h
  rw [stopPointRefPath] at hread
  rw [passingTimesByStopPoint, h]
  simp only [bind, Except.bind, hread]
  rw [← List.map_prod_right_eq_zip, List.filterMap_map]
  rfl

/-! Findings at a stop point -/

/-- How findings name a stop point of a journey pattern. -/
def stopPointContext (stopPoint : Node) : String :=
  let id := (stopPoint.attr? "id").getD ""
  s!"for StopPointInJourneyPattern(@id={id})"

/-- The report that a passing time at a stop point does not give a time. -/
def missingTime (part : String) (stopPoint passingTime : Node) : Finding :=
  let id := (passingTime.attr? "id").getD ""
  inconsistency passingTime
    s!"Expected {part} time in TimetabledPassingTime(@id={id}) {stopPointContext stopPoint}"

/-- What a passing time lacks at a stop point. -/
def timeGaps (isFirst isLast : Bool) (stopPoint passingTime : Node) : List Finding :=
  if (passingTime.attr? "id").isNone then [inconsistency passingTime
    s!"Expected TimetabledPassingTime to have attribute @id {stopPointContext stopPoint}"]
  else
    (if !isLast && (passingTime.childrenNamed "DepartureTime").isEmpty then
      [missingTime "departure" stopPoint passingTime] else []) ++
    (if !isFirst && (passingTime.childrenNamed "ArrivalTime").isEmpty then
      [missingTime "arrival" stopPoint passingTime] else [])

/-- The passing times that refer to a stop point. -/
def timesAt (passingTimes : List (String × Node)) (stopPoint : Node) : List Node :=
  (passingTimes.filter (·.1 == (stopPoint.attr? "id").getD "")).map (·.2)

def stopGaps (passingTimes : List (String × Node)) (isFirst isLast : Bool) (stopPoint : Node) :
    List Finding :=
  if (timesAt passingTimes stopPoint).isEmpty then
    [inconsistency stopPoint s!"Expected passing times {stopPointContext stopPoint}"]
  else (timesAt passingTimes stopPoint).flatMap (timeGaps isFirst isLast stopPoint)

theorem missingTime_departure_ne {stopPoint passingTime : Node} :
    missingTime "departure" stopPoint passingTime ≠
      missingTime "arrival" stopPoint passingTime := by
  intro h
  -- the parts differ in their first letter
  have hletter := congrArg (fun f => f.message.toList[9]?) h
  simp [missingTime, inconsistency, Finding.withLine, Finding.consistency, Finding.ofKind,
    toString] at hletter

theorem missingTime_mem_timeGaps_iff {isFirst isLast : Bool} {s t : Node}
    (hid : (t.attr? "id").isSome) :
    (missingTime "departure" s t ∈ timeGaps isFirst isLast s t ↔
      isLast = false ∧ t.childrenNamed "DepartureTime" = []) ∧
    (missingTime "arrival" s t ∈ timeGaps isFirst isLast s t ↔
      isFirst = false ∧ t.childrenNamed "ArrivalTime" = []) := by
  have hdeparture := @missingTime_departure_ne s t
  have hsome : ¬ (t.attr? "id").isNone = true := by
    rw [← Option.not_isSome, hid]
    decide
  rw [timeGaps, if_neg hsome]
  simp [hdeparture, hdeparture.symm]

theorem passingTimeGaps_eq (isFirst isLast : Bool) (stopPoint passingTime : Node) :
    passingTimeGaps (stopPointContext stopPoint) isFirst isLast passingTime =
      .ok (timeGaps isFirst isLast stopPoint passingTime) := by
  have hdeparture : Node.NamesChildren "DepartureTime" := by with_unfolding_all rfl
  have harrival : Node.NamesChildren "ArrivalTime" := by with_unfolding_all rfl
  unfold passingTimeGaps timeGaps missingTime
  cases passingTime.attr? "id" with
  | none => rfl
  | some id =>
    rw [Node.stringAt?_of_namesChildren hdeparture, Node.stringAt?_of_namesChildren harrival]
    cases passingTime.childrenNamed "DepartureTime" <;>
      cases passingTime.childrenNamed "ArrivalTime" <;> rfl

theorem stopPointGaps_eq (passingTimes : List (String × Node)) (last position : Nat)
    (stopPoint : Node) : stopPointGaps passingTimes last position stopPoint =
      .ok (stopGaps passingTimes (position == 0) (position == last) stopPoint) := by
  unfold stopPointGaps stopGaps
  change (if (timesAt passingTimes stopPoint).isEmpty = true then _ else _) = _
  split
  · rfl
  · exact flatten_mapM_eq_ok fun t _ => passingTimeGaps_eq _ _ stopPoint t

/-! Findings along a pattern -/

/-- The findings at stop points one after another, of which the first may be that of a pattern. -/
def gapsAlong (passingTimes : List (String × Node)) (isFirst : Bool) : List Node → List Finding
  | [] => []
  | s :: after =>
    stopGaps passingTimes isFirst after.isEmpty s ++ gapsAlong passingTimes false after

theorem stopPointGapsFrom_eq (passingTimes : List (String × Node)) {last : Nat} {ns : List Node}
    {position : Nat} (h : ns ≠ [] → position + ns.length = last + 1) :
    stopPointGapsFrom passingTimes last position ns =
      .ok (gapsAlong passingTimes (position == 0) ns) := by
  induction ns generalizing position with
  | nil => rfl
  | cons n ns ih =>
    have hposition : position + (ns.length + 1) = last + 1 := h (List.cons_ne_nil n ns)
    have hlast : (position == last) = ns.isEmpty := by
      rw [Bool.eq_iff_iff, beq_iff_eq, List.isEmpty_iff, ← List.length_eq_zero_iff]
      omega
    have hrest := @ih (position + 1) fun _ => by omega
    rw [stopPointGapsFrom, stopPointGaps_eq, hrest, hlast]
    rfl

/-- The findings at one of the stop points, with whether any are ahead of it or behind it. -/
theorem stopGaps_infix_gapsAlong (passingTimes : List (String × Node)) (isFirst : Bool)
    (before : List Node) (s : Node) (after : List Node) :
    stopGaps passingTimes (isFirst && before.isEmpty) after.isEmpty s <:+:
      gapsAlong passingTimes isFirst (before ++ s :: after) := by
  induction before generalizing isFirst with
  | nil =>
    rw [List.isEmpty_nil, Bool.and_true]
    exact (List.prefix_append _ _).isInfix
  | cons n before ih =>
    -- whatever is behind the first stop point is not the first itself
    rw [List.isEmpty_cons, Bool.and_false]
    exact (ih false).trans (List.suffix_append _ _).isInfix

theorem timeGaps_infix_stopGaps {passingTimes : List (String × Node)} {s t : Node} {id : String}
    (hs : s.attr? "id" = some id) (ht : (id, t) ∈ passingTimes) (isFirst isLast : Bool) :
    timeGaps isFirst isLast s t <:+: stopGaps passingTimes isFirst isLast s := by
  have hmem : t ∈ timesAt passingTimes s :=
    List.mem_map.mpr ⟨(id, t), List.mem_filter.mpr ⟨ht, by simp [hs]⟩, rfl⟩
  obtain ⟨before, after, hsplit⟩ := List.append_of_mem hmem
  rw [stopGaps, if_neg (by simp [hsplit]), hsplit, List.flatMap_append, List.flatMap_cons,
    ← List.append_assoc]
  exact List.infix_append _ _ _

/-! Stop points with and without an id -/

/-- The stop points of a journey pattern. -/
def Node.stopPoints (pattern : Node) : List Node :=
  (pattern.childrenNamed "pointsInSequence").flatMap (·.childrenNamed "StopPointInJourneyPattern")

def Node.identified (n : Node) : Bool :=
  (n.attr? "id").isSome

def identifiedStopStep : Path.Step :=
  ⟨.child, .named "StopPointInJourneyPattern", [.hasAttribute (.named "id")]⟩

def identifiedStopsPath : String :=
  "pointsInSequence/StopPointInJourneyPattern[@id]"

def identifiedStopPath : Path.LocationPath :=
  ⟨false, [⟨.child, .named "pointsInSequence", []⟩, identifiedStopStep]⟩

theorem nodesAt_identifiedStopsPath (n : Node) :
    n.nodesAt identifiedStopsPath = .ok (identifiedStopPath.select n) := by
  have hp : PathExpr.parse identifiedStopsPath =
      .ok ⟨identifiedStopsPath, [identifiedStopPath]⟩ := by with_unfolding_all rfl
  exact Node.nodesAt_of_parse hp n

theorem select_identifiedStopStep (n : Node) : identifiedStopStep.select n =
    (n.childrenNamed "StopPointInJourneyPattern").filter Node.identified := by
  have hid : Path.localName "id" = "id" := by with_unfolding_all rfl
  change (n.childrenNamed "StopPointInJourneyPattern").filter
    (Path.Predicate.holds (.hasAttribute (.named "id"))) = _
  exact List.filter_congr fun c _ => Node.holds_hasAttribute hid c

theorem select_identifiedStopPath (pattern : Node) : identifiedStopPath.select pattern =
    if 1 < (pattern.childrenNamed "pointsInSequence").length then
      Path.normalize (pattern.stopPoints.filter Node.identified)
    else pattern.stopPoints.filter Node.identified := by
  have hconcat := Path.LocationPath.select_concat false [⟨.child, .named "pointsInSequence", []⟩]
    identifiedStopStep pattern
  rw [Node.childStep_select, Path.Step.selectAll] at hconcat
  rw [Node.stopPoints, List.filter_flatMap]
  simp only [← select_identifiedStopStep]
  exact hconcat

theorem select_identifiedStopPath_eq_filter {d : ParsedDocument} {pattern : Node}
    (hpattern : pattern ∈ d.elements)
    (h : (pattern.childrenNamed "pointsInSequence").length ≤ 1 ∨ d.StartsAscending) :
    identifiedStopPath.select pattern = pattern.stopPoints.filter Node.identified := by
  rw [select_identifiedStopPath]
  rcases h with h | hd
  · exact if_neg (by omega)
  · -- sorting changes nothing, since the stop points start in the order in which they stand
    have hsub : pattern.stopPoints.Sublist d.elements := by
      have hinner := List.Sublist.flatMap_right (pattern.childrenNamed "pointsInSequence")
        fun c _ => c.childrenNamed_sublist "StopPointInJourneyPattern"
      have houter := (pattern.childrenNamed_sublist "pointsInSequence").flatMap Node.children
      exact ((hinner.trans houter).trans pattern.flatMap_children_sublist_descendants).trans
        (ParsedDocument.descendants_sublist_elements hpattern)
    have hstarts : (pattern.stopPoints.filter Node.identified).Pairwise
        fun a b => a.start < b.start := List.Pairwise.sublist (List.filter_sublist.trans hsub) hd
    rw [Path.normalize_of_starts hstarts, ite_self]

/-! The rule -/

def scheduledStopPointIdsPath : String :=
  Path.join [scheduledStopPointsPath, "@id"]

def journeyPatternsPath : String :=
  Path.join [framesPath, "ServiceFrame", "journeyPatterns",
    "*[contains(name(), 'JourneyPattern')]"]

def scheduledStopPointIdPath : Path.LocationPath :=
  ⟨false, (belowFrames ["ServiceFrame", "scheduledStopPoints", "ScheduledStopPoint"]).steps ++
    [⟨.attribute, .named "id", []⟩]⟩

def journeyPatternPath : Path.LocationPath :=
  ⟨false, (belowFrames ["ServiceFrame", "journeyPatterns"]).steps ++
    [⟨.child, .any, [.nameContains "JourneyPattern"]⟩]⟩

theorem inward_journeyPatternPath : ∀ s ∈ journeyPatternPath.steps, s.Inward := by
  intro s hs
  rcases List.mem_append.mp hs with h | h
  · exact inward_belowFrames _ s h
  · obtain rfl := List.mem_singleton.mp h
    exact .inr (.inl rfl)

/-- The references of a journey pattern to scheduled stop points. -/
def scheduledRefPath : Path.LocationPath :=
  ⟨false, [⟨.child, .named "pointsInSequence", []⟩,
    ⟨.child, .named "StopPointInJourneyPattern", []⟩,
    ⟨.child, .named "ScheduledStopPointRef", []⟩, ⟨.attribute, .named "ref", []⟩]⟩

set_option maxRecDepth 4000 in
theorem nodesAt_scheduledStopPointIdsPath (n : Node) :
    n.nodesAt scheduledStopPointIdsPath = .ok (scheduledStopPointIdPath.select n) := by
  have hp : PathExpr.parse scheduledStopPointIdsPath =
      .ok ⟨scheduledStopPointIdsPath, [scheduledStopPointIdPath]⟩ := by with_unfolding_all rfl
  exact Node.nodesAt_of_parse hp n

set_option maxRecDepth 4000 in
theorem nodesAt_journeyPatternsPath (n : Node) :
    n.nodesAt journeyPatternsPath = .ok (journeyPatternPath.select n) := by
  have hpath : journeyPatternsPath = "./dataObjects/CompositeFrame/frames/ServiceFrame/" ++
      "journeyPatterns/*[contains(name(), 'JourneyPattern')]" := by decide +kernel
  have hp : PathExpr.parse journeyPatternsPath =
      .ok ⟨journeyPatternsPath, [journeyPatternPath]⟩ := by
    rw [hpath, ← String.ofList_append, PathExpr.parse_ofList]
    with_unfolding_all rfl
  exact Node.nodesAt_of_parse hp n

/-- The findings on a journey pattern. -/
def patternGaps (scheduled : List String) (passingTimes : List (String × Node)) (pattern : Node) :
    List Finding :=
  (scheduledRefPath.select pattern).flatMap (scheduledStopFindings scheduled) ++
    gapsAlong passingTimes true (identifiedStopPath.select pattern)

set_option maxRecDepth 4000 in
theorem patternFindings_eq (scheduled : List String) (passingTimes : List (String × Node))
    (pattern : Node) : patternFindings scheduled passingTimes pattern =
      .ok (patternGaps scheduled passingTimes pattern) := by
  have hrefs : PathExpr.parse
      "pointsInSequence/StopPointInJourneyPattern/ScheduledStopPointRef/@ref" =
        .ok ⟨"pointsInSequence/StopPointInJourneyPattern/ScheduledStopPointRef/@ref",
          [scheduledRefPath]⟩ := by with_unfolding_all rfl
  have hstops := nodesAt_identifiedStopsPath pattern
  rw [identifiedStopsPath] at hstops
  have hgaps : stopPointGapsFrom passingTimes ((identifiedStopPath.select pattern).length - 1) 0
      (identifiedStopPath.select pattern) =
        .ok (gapsAlong passingTimes true (identifiedStopPath.select pattern)) := by
    apply stopPointGapsFrom_eq
    intro hne
    have hpos := List.length_pos_of_ne_nil hne
    omega
  rw [patternFindings, Node.nodesAt_of_parse hrefs, hstops]
  simp only [bind, Except.bind, hgaps]
  rfl

theorem stopTimesCheck_eq {root : Node} {scheduled patterns : List Node}
    {passingTimes : List (String × Node)}
    (hscheduled : root.nodesAt scheduledStopPointIdsPath = .ok scheduled)
    (hpassing : passingTimesByStopPoint root = .ok passingTimes)
    (hpatterns : root.nodesAt journeyPatternsPath = .ok patterns) : stopTimesCheck root =
      .ok (patterns.flatMap (patternGaps (scheduled.map (·.text)) passingTimes)) := by
  rw [scheduledStopPointIdsPath] at hscheduled
  rw [journeyPatternsPath] at hpatterns
  rw [stopTimesCheck, hscheduled, hpassing, hpatterns]
  exact flatten_mapM_eq_ok fun p _ => patternFindings_eq _ passingTimes p

/-- At each of the stop points, passing times with an id are reported for a missing departure just
when another stop point is behind it, and for a missing arrival just when one is ahead of it. -/
def TimesReported (passingTimes stopPoints : List Node) (fs : List Finding) : Prop :=
  ∀ before s after, stopPoints = before ++ s :: after → ∀ id ∈ s.attr? "id",
    ∀ t ∈ passingTimes, t.stringAt? stopPointRefPath = .ok (some id) → t.identified →
      ∃ gaps, gaps = timeGaps before.isEmpty after.isEmpty s t ∧ gaps <:+: fs ∧
        (missingTime "departure" s t ∈ gaps ↔
          after ≠ [] ∧ t.childrenNamed "DepartureTime" = []) ∧
        (missingTime "arrival" s t ∈ gaps ↔ before ≠ [] ∧ t.childrenNamed "ArrivalTime" = [])

theorem timesReported_gapsAlong (passingTimes stopPoints : List Node) :
    TimesReported passingTimes stopPoints
      (gapsAlong (byStopPoint passingTimes) true stopPoints) := by
  rintro before s after rfl id hs t ht href hid
  obtain ⟨hdeparture, harrival⟩ :=
    @missingTime_mem_timeGaps_iff before.isEmpty after.isEmpty s t hid
  have htime := timeGaps_infix_stopGaps hs (mem_byStopPoint_iff.mpr ⟨ht, href⟩) before.isEmpty
    after.isEmpty
  have hstop := stopGaps_infix_gapsAlong (byStopPoint passingTimes) true before s after
  refine ⟨_, rfl, htime.trans hstop, ?_, ?_⟩
  · rw [hdeparture, List.isEmpty_eq_false_iff]
  · rw [harrival, List.isEmpty_eq_false_iff]

theorem TimesReported.mono {passingTimes stopPoints : List Node} {fs gs : List Finding}
    (h : TimesReported passingTimes stopPoints fs) (hfs : fs <:+: gs) :
    TimesReported passingTimes stopPoints gs := by
  intro before s after hsplit id hs t ht href hid
  obtain ⟨gaps, hgaps, hinfix, hiff⟩ := h before s after hsplit id hs t ht href hid
  exact ⟨gaps, hgaps, hinfix.trans hfs, hiff⟩

/-- In a journey pattern, it is the first and the last of the stop points with an id that need no
arrival and no departure, whether or not others are ahead of them or behind them. -/
theorem first_and_last_among_identified (d : ParsedDocument) :
    ∃ scheduled passingTimes patterns,
      d.rootNode.nodesAt scheduledStopPointIdsPath = .ok scheduled ∧
      d.rootNode.nodesAt timetabledPassingTimesPath = .ok passingTimes ∧
      d.rootNode.nodesAt journeyPatternsPath = .ok patterns ∧
      (∀ limits inputs, Rule.check .stopPointTimes limits inputs d.rootNode = .ok
        (patterns.flatMap (patternGaps (scheduled.map (·.text)) (byStopPoint passingTimes)))) ∧
      ∀ p ∈ patterns, ∃ stopPoints, p.nodesAt identifiedStopsPath = .ok stopPoints ∧
        TimesReported passingTimes stopPoints
          (patternGaps (scheduled.map (·.text)) (byStopPoint passingTimes) p) ∧
        ((p.childrenNamed "pointsInSequence").length ≤ 1 ∨ d.StartsAscending →
          stopPoints = p.stopPoints.filter Node.identified) := by
  have hscheduled := nodesAt_scheduledStopPointIdsPath d.rootNode
  have hpassing := nodesAt_timetabledPassingTimesPath d.rootNode
  have hpatterns := nodesAt_journeyPatternsPath d.rootNode
  refine ⟨_, _, _, hscheduled, hpassing, hpatterns, ?_, ?_⟩
  · exact fun _ _ => stopTimesCheck_eq hscheduled (passingTimesByStopPoint_eq hpassing) hpatterns
  · intro p hp
    have hinside : p ∈ d.elements := Path.select_subset inward_journeyPatternPath hp
    refine ⟨_, nodesAt_identifiedStopsPath p, ?_, select_identifiedStopPath_eq_filter hinside⟩
    exact (timesReported_gapsAlong _ _).mono (List.suffix_append _ _).isInfix

/-- A journey pattern with two stop points, of which only the first has an id, and a passing time at
that one without a departure. -/
def unidentifiedEndDocument : ParsedDocument :=
  framesDocument
    [.element ⟨40, "ServiceFrame", [], []⟩ [.element ⟨54, "journeyPatterns", [], []⟩
      [.element ⟨71, "ServiceJourneyPattern", [], []⟩ [.element ⟨94, "pointsInSequence", [], []⟩
        [.element ⟨112, "StopPointInJourneyPattern", [⟨"id", none, "P"⟩], []⟩ [],
          .element ⟨147, "StopPointInJourneyPattern", [], []⟩ []]]]],
      .element ⟨251, "TimetableFrame", [], []⟩ [.element ⟨267, "vehicleJourneys", [], []⟩
        [.element ⟨284, "ServiceJourney", [], []⟩ [.element ⟨300, "passingTimes", [], []⟩
          [.element ⟨314, "TimetabledPassingTime", [⟨"id", none, "T"⟩], []⟩
            [.element ⟨344, "StopPointInJourneyPatternRef", [⟨"ref", none, "P"⟩], []⟩ []]]]]]]

set_option maxRecDepth 4000 in
theorem departure_unreported_ahead_of_unidentified :
    (Source.ofText "doc.xml" ("<p><dataObjects><CompositeFrame><frames><ServiceFrame>" ++
        "<journeyPatterns><ServiceJourneyPattern><pointsInSequence>" ++
        "<StopPointInJourneyPattern id='P'/><StopPointInJourneyPattern/></pointsInSequence>" ++
        "</ServiceJourneyPattern></journeyPatterns></ServiceFrame><TimetableFrame>" ++
        "<vehicleJourneys><ServiceJourney><passingTimes><TimetabledPassingTime id='T'>" ++
        "<StopPointInJourneyPatternRef ref='P'/></TimetabledPassingTime></passingTimes>" ++
        "</ServiceJourney></vehicleJourneys></TimetableFrame></frames></CompositeFrame>" ++
        "</dataObjects></p>")).parse = .ok unidentifiedEndDocument ∧
      ∃ pattern s last t,
        unidentifiedEndDocument.rootNode.nodesAt journeyPatternsPath = .ok [pattern] ∧
        pattern.stopPoints = [s, last] ∧ s.attr? "id" = some "P" ∧
        unidentifiedEndDocument.rootNode.nodesAt timetabledPassingTimesPath = .ok [t] ∧
        t.stringAt? stopPointRefPath = .ok (some "P") ∧ t.attr? "id" = some "T" ∧
        t.childrenNamed "DepartureTime" = [] ∧
        ∀ limits inputs,
          Rule.check .stopPointTimes limits inputs unidentifiedEndDocument.rootNode = .ok [] := by
  refine ⟨?_, _, _, _, _, (nodesAt_journeyPatternsPath _).trans rfl, rfl, ?_,
    (nodesAt_timetabledPassingTimesPath _).trans rfl, ?_, ?_, ?_, ?_⟩
  · rw [← String.ofList_append, ← String.ofList_append, ← String.ofList_append,
      ← String.ofList_append, ← String.ofList_append, ← String.ofList_append,
      ← String.ofList_append, Source.parse_ofList]
    with_unfolding_all rfl
  · with_unfolding_all rfl
  · with_unfolding_all rfl
  · with_unfolding_all rfl
  · with_unfolding_all rfl
  · intro limits inputs
    have hpassing := nodesAt_timetabledPassingTimesPath unidentifiedEndDocument.rootNode
    refine (stopTimesCheck_eq (nodesAt_scheduledStopPointIdsPath _)
      (passingTimesByStopPoint_eq hpassing) (nodesAt_journeyPatternsPath _)).trans ?_
    with_unfolding_all rfl

end TransitAudit
