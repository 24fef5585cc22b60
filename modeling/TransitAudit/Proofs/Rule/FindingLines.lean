import TransitAudit.Proofs.Document.Lines
import TransitAudit.Proofs.Journey.Local
import TransitAudit.Proofs.Path.Reach
import TransitAudit.Proofs.Rule.Naming
import TransitAudit.Proofs.Task.Batch

/-! The lines of findings. From the root element the checks of all rules go to nodes of the
document, and the line of a finding is that of such a node. So it is a line of the document. -/
namespace TransitAudit

open Document

variable {d : ParsedDocument}

/-! Nodes that are looked up -/

namespace ParsedDocument.Holds

variable {n m : Node} {path : String}

theorem evaluate {e : PathExpr} (hn : d.Holds n) (hm : m ∈ e.evaluate n) : d.Holds m := by
  have hfound : m ∈ e.alternatives.flatMap (·.select n) := by
    unfold PathExpr.evaluate at hm
    split at hm
    · exact Path.normalize_subset _ hm
    · exact hm
  obtain ⟨p, -, hp⟩ := List.mem_flatMap.mp hfound
  have hbegin : ∀ k ∈ [if p.absolute then n.top else n], d.Holds k := by
    intro k hk
    rw [List.mem_singleton] at hk
    exact hk ▸ hn.start p.absolute
  exact foldl_selectAll hbegin m hp

theorem nodesAt {ns : List Node} (hn : d.Holds n) (h : n.nodesAt path = .ok ns) :
    ∀ m ∈ ns, d.Holds m := by
  rw [Node.nodesAt, mapError_eq_ok_iff, Node.select, map_eq_ok_iff] at h
  obtain ⟨e, -, rfl⟩ := h
  exact fun m hm => hn.evaluate hm

theorem first (hn : d.Holds n) (h : n.first path = .ok m) : d.Holds m := by
  obtain ⟨e, -, h⟩ := bind_eq_ok_iff.mp h
  unfold Node.firstOf at h
  split at h
  · rename_i found rest heq
    cases h
    exact hn.evaluate (heq ▸ List.mem_cons_self)
  · cases h

theorem firstAt? (hn : d.Holds n) (h : firstAt? n path = .ok (some m)) : d.Holds m := by
  unfold TransitAudit.firstAt? at h
  split at h
  · rename_i found hfirst
    cases h
    exact hn.first hfirst
  · split at h <;> cases h

end ParsedDocument.Holds

/-! Findings at nodes of the document -/

/-- The line of a finding, if it has one, is that of a node of the document. -/
def Finding.Located (d : ParsedDocument) (f : Finding) : Prop :=
  ∀ line ∈ f.line, ∃ n, d.Holds n ∧ line = n.line

/-- All that a check finds is located in the document. -/
def FindsLocated (d : ParsedDocument) (x : Except AuditError (List Finding)) : Prop :=
  ∀ findings, x = .ok findings → ∀ f ∈ findings, f.Located d

namespace FindsLocated

variable {α : Type} {fs gs : List Finding}

theorem ok (h : ∀ f ∈ fs, f.Located d) : FindsLocated d (.ok fs) := by
  intro findings hfindings
  cases hfindings
  exact h

theorem nil : FindsLocated d (.ok []) :=
  ok (List.forall_mem_nil _)

theorem singleton {f : Finding} (h : f.Located d) : FindsLocated d (.ok [f]) :=
  ok (List.forall_mem_singleton.mpr h)

theorem bind {x : Except AuditError α} {f : α → Except AuditError (List Finding)}
    (h : ∀ a, x = .ok a → FindsLocated d (f a)) : FindsLocated d (x >>= f) := by
  intro findings hfindings
  obtain ⟨a, ha, hf⟩ := bind_eq_ok_iff.mp hfindings
  exact h a ha findings hf

/-- The findings of several checks, one after another. -/
theorem flatten {xs : List α} {f : α → Except AuditError (List Finding)}
    (h : ∀ x ∈ xs, FindsLocated d (f x)) :
    FindsLocated d (xs.mapM f >>= fun batches => .ok batches.flatten) := by
  refine bind fun batches hbatches => ok ?_
  intro g hg
  obtain ⟨batch, hbatch, hg⟩ := List.mem_flatten.mp hg
  obtain ⟨x, hx, hfx⟩ := exists_of_mem_mapM hbatches hbatch
  exact h x hx batch hfx g hg

end FindsLocated

theorem Finding.Located.of_line {f : Finding} {n : Node} (hn : d.Holds n)
    (h : f.line = some n.line) : f.Located d := by
  intro line hline
  rw [h] at hline
  cases hline
  exact ⟨n, hn, rfl⟩

theorem Finding.located_of_line_eq_none {f : Finding} (h : f.line = none) : f.Located d := by
  intro line hline
  rw [h] at hline
  cases hline

theorem located_inconsistency {n : Node} (hn : d.Holds n) (message : String) :
    (inconsistency n message).Located d :=
  .of_line hn rfl

/-! Keys, references and journeys -/

theorem mem_of_mem_duplicatesAfter {k : KeyEvaluator} {seen : List CompositeKey} {ns : List Node}
    {n : Node} {key : CompositeKey} (h : (n, key) ∈ duplicatesAfter k seen ns) : n ∈ ns := by
  induction ns generalizing seen with
  | nil => cases h
  | cons m ns ih =>
    rw [duplicatesAfter] at h
    split at h
    · rcases List.mem_cons.mp h with h | h
      · cases h
        exact List.mem_cons_self
      · exact List.mem_cons_of_mem _ (ih h)
    · exact List.mem_cons_of_mem _ (ih h)

theorem checkUnique_located {context : Node} (hcontext : d.Holds context) (c : Constraint) :
    FindsLocated d (checkUnique c context) := by
  refine .bind fun k _ => .ok ?_
  intro f hf
  obtain ⟨⟨n, key⟩, hn, rfl⟩ := List.mem_map.mp hf
  exact .of_line (hcontext.evaluate (mem_of_mem_duplicatesAfter hn)) rfl

theorem checkKeyref_located {context : Node} (hcontext : d.Holds context)
    (keyref key : Constraint) : FindsLocated d (checkKeyref keyref key context) := by
  refine .bind fun k _ => ?_
  dsimp only
  split
  · exact .nil
  · refine .bind fun keys _ => .ok ?_
    intro f hf
    obtain ⟨n, hn, hf⟩ := List.mem_filterMap.mp hf
    split at hf
    · cases hf
    · split at hf
      · cases hf
      · cases hf
        exact .of_line (hcontext.evaluate hn) rfl

theorem checkJourney_located {journey : Node} (hjourney : d.Holds journey)
    (stopPoints : StopPointIndex) (mode : Monotonicity) :
    FindsLocated d (checkJourney journey stopPoints mode) := by
  obtain ⟨ps, hps⟩ := exists_passingTimesOf journey
  obtain ⟨passingTimes, hnodes, hread⟩ := bind_eq_ok_iff.mp hps
  rw [checkJourney_of_passingTimesOf hps, List.flatMap_def]
  apply FindsLocated.ok
  intro f hf
  obtain ⟨share, hshare, hf⟩ := List.mem_flatten.mp hf
  -- each share of the findings is about one passing time
  have hreported : List.Forall₂ (ReportedAt stopPoints) passingTimes
      (findingsByPosition stopPoints mode journey ps) :=
    reportedAt_findingsByPosition hread stopPoints mode
  obtain ⟨n, hn, about, rfl, habout, -⟩ := exists_of_mem_forall₂ hreported.flip hshare
  obtain ⟨topic, -, hf⟩ := List.mem_filterMap.mp hf
  exact .of_line (hjourney.nodesAt hnodes n hn) (habout topic f hf).1

theorem Task.execute_located {t : Task} (ht : d.Holds t.context) :
    FindsLocated d t.execute := by
  unfold execute
  split
  · exact checkUnique_located ht _
  · exact checkKeyref_located ht _ _
  · exact checkJourney_located ht _ _

theorem Task.runBatch_located {tasks : List Task} (h : ∀ t ∈ tasks, d.Holds t.context) :
    FindsLocated d (runBatch tasks) := by
  intro findings hfindings
  obtain ⟨batches, hbatches, rfl⟩ := Workers.runBatch_eq_ok_iff.mp hfindings
  have hall := FindsLocated.flatten fun t ht => execute_located (h t ht)
  exact hall _ (bind_eq_ok_iff.mpr ⟨batches, hbatches, rfl⟩)

/-! The rules on elements and their parts -/

theorem nameFindings_located {n : Node} (hn : d.Holds n) (element : String) :
    FindsLocated d (nameFindings element n) := by
  unfold nameFindings
  split
  · exact .singleton (located_inconsistency hn _)
  · refine .bind fun name? _ => ?_
    split
    · exact .nil
    · exact .singleton (located_inconsistency hn _)

theorem namedElements_located {root : Node} (hroot : d.Holds root) (path element : String) :
    FindsLocated d (namedElements root path element) := by
  refine .bind fun selected hselected => .flatten fun n hn => ?_
  exact nameFindings_located (hroot.nodesAt hselected n hn) element

theorem referencedElements_located {root : Node} (hroot : d.Holds root) (path element : String) :
    FindsLocated d (referencedElements root path element) := by
  refine .bind fun references _ => .bind fun selected hselected => .ok ?_
  intro f hf
  obtain ⟨n, hn, hf⟩ := List.mem_flatMap.mp hf
  have hn := hroot.nodesAt hselected n hn
  unfold referenceFindings at hf
  split at hf
  · exact List.mem_singleton.mp hf ▸ located_inconsistency hn _
  · split at hf
    · cases hf
    · exact List.mem_singleton.mp hf ▸ located_inconsistency hn _

theorem stopPlaceTypeCheck_located {root : Node} (hroot : d.Holds root) :
    FindsLocated d (stopPlaceTypeCheck root) := by
  refine .bind fun selected hselected => .flatten fun n hn => .bind fun type? _ => ?_
  have hn := hroot.nodesAt hselected n hn
  dsimp only
  split
  · exact .singleton (located_inconsistency hn _)
  · split
    · exact .nil
    · exact .singleton (.of_line hn rfl)

theorem localeFindings_located {locale : Node} (hlocale : d.Holds locale) (element : String)
    (accepts : String → Bool) : FindsLocated d (localeFindings locale element accepts) := by
  refine .bind fun value? _ => ?_
  split
  · exact .nil
  · split
    · exact .nil
    · exact .singleton (.of_line hlocale rfl)

theorem frameDefaultsLocaleCheck_located {root : Node} (hroot : d.Holds root) :
    FindsLocated d (frameDefaultsLocaleCheck root) := by
  refine .bind fun frame? hframe => ?_
  split
  · exact .singleton (Finding.located_of_line_eq_none rfl)
  · refine .bind fun locale? hlocale => ?_
    split
    · exact .nil
    · exact .flatten fun c _ =>
        localeFindings_located ((hroot.firstAt? hframe).firstAt? hlocale) c.1 c.2

/-! The rule on stop points -/

theorem mem_passingTimesByStopPoint {root : Node} (hroot : d.Holds root)
    {passingTimes : List (String × Node)}
    (h : passingTimesByStopPoint root = .ok passingTimes) : ∀ t ∈ passingTimes, d.Holds t.2 := by
  obtain ⟨nodes, hnodes, h⟩ := bind_eq_ok_iff.mp h
  obtain ⟨references, -, h⟩ := bind_eq_ok_iff.mp h
  cases h
  intro t ht
  obtain ⟨⟨reference?, n⟩, hn, ht⟩ := List.mem_filterMap.mp ht
  obtain ⟨reference, -, rfl⟩ := Option.map_eq_some_iff.mp ht
  exact hroot.nodesAt hnodes n (List.of_mem_zip hn).2

theorem passingTimeGaps_located {t : Node} (ht : d.Holds t) (context : String)
    (isFirst isLast : Bool) : FindsLocated d (passingTimeGaps context isFirst isLast t) := by
  unfold passingTimeGaps
  split
  · exact .singleton (located_inconsistency ht _)
  · refine .bind fun departure? _ => .bind fun arrival? _ => .ok ?_
    intro f hf
    rcases List.mem_append.mp hf with hf | hf
    · split at hf
      · exact List.mem_singleton.mp hf ▸ located_inconsistency ht _
      · cases hf
    · split at hf
      · exact List.mem_singleton.mp hf ▸ located_inconsistency ht _
      · cases hf

theorem stopPointGaps_located {passingTimes : List (String × Node)}
    (hpassing : ∀ t ∈ passingTimes, d.Holds t.2) {n : Node} (hn : d.Holds n)
    (last position : Nat) : FindsLocated d (stopPointGaps passingTimes last position n) := by
  unfold stopPointGaps
  dsimp only
  split
  · exact .singleton (located_inconsistency hn _)
  · refine .flatten fun t ht => ?_
    obtain ⟨pair, hpair, rfl⟩ := List.mem_map.mp ht
    exact passingTimeGaps_located (hpassing pair (List.mem_of_mem_filter hpair)) _ _ _

theorem stopPointGapsFrom_located {passingTimes : List (String × Node)}
    (hpassing : ∀ t ∈ passingTimes, d.Holds t.2) {ns : List Node} (hns : ∀ n ∈ ns, d.Holds n)
    (last position : Nat) : FindsLocated d (stopPointGapsFrom passingTimes last position ns) := by
  induction ns generalizing position with
  | nil => exact .nil
  | cons n ns ih =>
    obtain ⟨hn, hns⟩ := List.forall_mem_cons.mp hns
    refine .bind fun findings hfindings => .bind fun rest hrest => .ok ?_
    intro f hf
    rcases List.mem_append.mp hf with hf | hf
    · exact stopPointGaps_located hpassing hn last position findings hfindings f hf
    · exact ih hns (position + 1) rest hrest f hf

theorem patternFindings_located {passingTimes : List (String × Node)}
    (hpassing : ∀ t ∈ passingTimes, d.Holds t.2) {pattern : Node} (hpattern : d.Holds pattern)
    (scheduled : List String) :
    FindsLocated d (patternFindings scheduled passingTimes pattern) := by
  refine .bind fun references hreferences => .bind fun stopPoints hstopPoints =>
    .bind fun gaps hgaps => .ok ?_
  intro f hf
  rcases List.mem_append.mp hf with hf | hf
  · obtain ⟨n, hn, hf⟩ := List.mem_flatMap.mp hf
    unfold scheduledStopFindings at hf
    dsimp only at hf
    split at hf
    · cases hf
    · exact List.mem_singleton.mp hf ▸
        located_inconsistency (hpattern.nodesAt hreferences n hn) _
  · exact stopPointGapsFrom_located hpassing (hpattern.nodesAt hstopPoints) _ _ gaps hgaps f hf

theorem stopTimesCheck_located {root : Node} (hroot : d.Holds root) :
    FindsLocated d (stopTimesCheck root) := by
  refine .bind fun scheduled _ => .bind fun passingTimes hpassing =>
    .bind fun patterns hpatterns => .flatten fun pattern hpattern => ?_
  exact patternFindings_located (mem_passingTimesByStopPoint hroot hpassing)
    (hroot.nodesAt hpatterns pattern hpattern) _

/-! The rules on distances -/

theorem quayFindings_located {quay : Node} (hquay : d.Holds quay) (limit : Float)
    (stopPlaceId : String) (centre : Coordinates) :
    FindsLocated d (quayFindings limit stopPlaceId centre quay) := by
  refine .bind fun position? _ => ?_
  split
  · exact .nil
  · dsimp only
    split
    · exact .singleton (.of_line hquay rfl)
    · exact .nil

theorem stopPlaceQuays_located {stopPlace : Node} (hstopPlace : d.Holds stopPlace)
    (limit : Float) : FindsLocated d (stopPlaceQuays limit stopPlace) := by
  refine .bind fun centre? _ => ?_
  split
  · exact .nil
  · refine .bind fun quays hquays => .flatten fun quay hquay => ?_
    exact quayFindings_located (hstopPlace.nodesAt hquays quay hquay) _ _ _

theorem quayDistanceCheck_located {root : Node} (hroot : d.Holds root) (limit : Float) :
    FindsLocated d (quayDistanceCheck limit root) := by
  refine .bind fun frame? hframe => ?_
  split
  · exact .singleton (Finding.located_of_line_eq_none rfl)
  · have hframe := hroot.firstAt? hframe
    refine .bind fun system? _ => ?_
    split
    · exact .singleton (.of_line hframe rfl)
    · split
      · exact .singleton (.of_line hframe rfl)
      · refine .bind fun stopPlaces hstopPlaces => .flatten fun stopPlace hstopPlace => ?_
        exact stopPlaceQuays_located (hroot.nodesAt hstopPlaces stopPlace hstopPlace) limit

theorem assignmentFindings_located {assignment : Node} (hassignment : d.Holds assignment)
    (limit : Float) (scheduledStopPoints stopPlaces : List Node) :
    FindsLocated d (assignmentFindings limit scheduledStopPoints stopPlaces assignment) := by
  refine .bind fun point? _ => ?_
  split
  · exact .singleton (located_inconsistency hassignment _)
  · refine .bind fun place? _ => ?_
    split
    · exact .singleton (located_inconsistency hassignment _)
    · refine .bind fun placeAt? _ => .bind fun pointAt? _ => ?_
      split
      · dsimp only
        split
        · exact .singleton (.of_line hassignment rfl)
        · exact .nil
      · exact .nil

theorem assignmentDistanceCheck_located {root : Node} (hroot : d.Holds root) (limit : Float) :
    FindsLocated d (assignmentDistanceCheck limit root) := by
  refine .bind fun scheduledStopPoints _ => .bind fun stopPlaces _ =>
    .bind fun assignments hassignments => .flatten fun assignment hassignment => ?_
  exact assignmentFindings_located (hroot.nodesAt hassignments assignment hassignment) limit _ _

/-! All rules -/

theorem passingTimes_located {root : Node} (hroot : d.Holds root) (mode : Monotonicity) :
    FindsLocated d (Integrity.passingTimes root mode) := by
  refine .bind fun stopPoints _ => .bind fun journeys hjourneys => Task.runBatch_located ?_
  intro t ht
  obtain ⟨journey, hjourney, rfl⟩ := List.mem_map.mp ht
  exact hroot.nodesAt hjourneys journey hjourney

theorem Rule.check_located {root : Node} (hroot : d.Holds root) (r : Rule)
    (limits : DistanceLimits) (inputs : RuleInputs) :
    FindsLocated d (r.check limits inputs root) := by
  cases r with
  | grammar => exact .nil
  | uniqueConstraints =>
    refine .bind fun s _ => Task.runBatch_located ?_
    intro t ht
    obtain ⟨c, -, rfl⟩ := List.mem_map.mp ht
    exact hroot
  | keyrefConstraints =>
    refine .bind fun s _ => .bind fun pairs _ => Task.runBatch_located ?_
    intro t ht
    obtain ⟨p, -, rfl⟩ := List.mem_map.mp ht
    exact hroot
  | increasingPassingTimes | nonDecreasingPassingTimes => exact passingTimes_located hroot _
  | stopPointTimes => exact stopTimesCheck_located hroot
  | stopPlaceNames | scheduledStopPointNames => exact namedElements_located hroot _ _
  | referencedLines | referencedStopPlaces => exact referencedElements_located hroot _ _
  | stopPlaceTypes => exact stopPlaceTypeCheck_located hroot
  | frameDefaultsLocale => exact frameDefaultsLocaleCheck_located hroot
  | quayDistances => exact quayDistanceCheck_located hroot _
  | assignmentDistances => exact assignmentDistanceCheck_located hroot _

theorem ParsedDocument.lines_of_parse {source : Source} (h : source.parse = .ok d) :
    d.lines = LineIndex.build source.text := by
  unfold Source.parse at h
  split at h
  · cases h
    rfl
  · cases h

/-- Where all lines of a text can be numbered, the line of an offset is one more than the number of
line feeds in front of it, and no offset is on an earlier line than one in front of it; the lines of
all that the rules find are lines of the document. -/
theorem lines_count_lineFeeds (source : Source) (hlines : lineCount source.text < 2 ^ 32) :
    (∀ offset, ((LineIndex.build source.text).lineOf offset).toNat =
      1 + lineFeedsBefore source.text offset) ∧
    (∀ a b, a ≤ b → (LineIndex.build source.text).lineOf a ≤
      (LineIndex.build source.text).lineOf b) ∧
    ∀ d, source.parse = .ok d → ∀ (r : Rule) limits inputs findings,
      r.check limits inputs d.rootNode = .ok findings →
        ∀ f ∈ findings, ∀ line ∈ f.line,
          1 ≤ line.toNat ∧ line.toNat ≤ lineCount source.text := by
  have hline := toNat_lineOf_build hlines
  refine ⟨hline, ?_, ?_⟩
  · intro a b hab
    rw [UInt32.le_iff_toNat_le, hline, hline]
    exact Nat.add_le_add_left (lineFeedsBefore_mono hab) 1
  · intro d hparse r limits inputs findings hfindings f hf line hmem
    have hroot := ParsedDocument.Holds.element d.rootNode_mem_elements
    have hlocated := Rule.check_located hroot r limits inputs findings hfindings
    obtain ⟨n, hn, rfl⟩ := hlocated f hf line hmem
    have hlt := lineFeedsBefore_lt_lineCount source.text n.start
    rw [Node.line, hn.document_eq, ParsedDocument.lines_of_parse hparse, hline]
    omega

/-- A stop place on the fourth of six lines. -/
def fourthLine : Source :=
  .ofText "doc.xml" ("<p>\n<dataObjects><CompositeFrame><frames><SiteFrame><stopPlaces>\r\n\n" ++
    "<StopPlace/></stopPlaces></SiteFrame></frames></CompositeFrame>\n</dataObjects></p>\n")

def fourthLineDocument : ParsedDocument :=
  ⟨⟨⟨⟨0, "p", [], []⟩, [.text "\n", .element ⟨4, "dataObjects", [], []⟩
    [.element ⟨17, "CompositeFrame", [], []⟩ [.element ⟨33, "frames", [], []⟩
      [.element ⟨41, "SiteFrame", [], []⟩ [.element ⟨52, "stopPlaces", [], []⟩
        [.text "\n\n", .element ⟨67, "StopPlace", [], []⟩ []]]]], .text "\n"]]⟩, []⟩,
    ⟨#[0, 4, 66, 67, 131, 150]⟩⟩

set_option maxRecDepth 4000 in
theorem lines_count_lineFeeds_of_fourthLine :
    lineCount fourthLine.text < 2 ^ 32 ∧ fourthLine.parse = .ok fourthLineDocument ∧
      ∃ f, Rule.check .stopPlaceNames .default .none fourthLineDocument.rootNode = .ok [f] ∧
        f.line = some 4 ∧ ((LineIndex.build fourthLine.text).lineOf 67).toNat =
          1 + lineFeedsBefore fourthLine.text 67 ∧
        1 ≤ (4 : UInt32).toNat ∧ (4 : UInt32).toNat ≤ lineCount fourthLine.text := by
  have hcount : lineCount fourthLine.text = 6 := by
    rw [fourthLine, Source.ofText, ← String.ofList_append, lineCount_ofList]
    decide
  have hparse : fourthLine.parse = .ok fourthLineDocument := by
    rw [fourthLine, ← String.ofList_append, Source.parse_ofList]
    with_unfolding_all rfl
  have hcheck : Rule.check .stopPlaceNames .default .none fourthLineDocument.rootNode =
      .ok [(Finding.consistency "StopPlace is missing attribute @id").withLine 4] := by
    have hselected := nodesAt_stopPlacesPath fourthLineDocument.rootNode
    exact (namedElements_eq hselected "StopPlace").trans (by with_unfolding_all rfl)
  have hlines : lineCount fourthLine.text < 2 ^ 32 := by
    rw [hcount]
    decide
  obtain ⟨hline, -, hfindings⟩ := lines_count_lineFeeds fourthLine hlines
  exact ⟨hlines, hparse, _, hcheck, rfl, hline 67,
    hfindings _ hparse _ _ _ _ hcheck _ List.mem_cons_self 4 rfl⟩

end TransitAudit
