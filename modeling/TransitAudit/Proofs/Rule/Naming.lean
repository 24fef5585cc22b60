import TransitAudit.Proofs.Document.Frames
import TransitAudit.Proofs.Failure
import TransitAudit.Rule.Run

/-! Elements that need an id and a name. The name is taken from the first `Name`, and from the first
`ShortName` of an element that has no `Name` at all. All elements without an id or a name are
reported, but so is an element with a name further behind, if the child that the name is taken from
holds nothing but white space. -/
namespace TransitAudit

namespace Node

variable {n : Node}

/-- Some child with that name holds more than white space. -/
def HasTextIn (n : Node) (name : String) : Prop :=
  ∃ c ∈ n.childrenNamed name, Text.blank c.text = false

/-- The element has no id, or no name. -/
def Unnamed (n : Node) : Prop :=
  n.attr? "id" = none ∨ ¬ (n.HasTextIn "Name" ∨ n.HasTextIn "ShortName")

/-- The child that the name is taken from. -/
def nameChild? (n : Node) : Option Node :=
  (n.childrenNamed "Name" ++ n.childrenNamed "ShortName").head?

/-- The element has no id, or nothing in the child that the name is taken from. -/
def lacksName (n : Node) : Bool :=
  (n.attr? "id").isNone || !n.nameChild?.any fun c => !Text.blank c.text

theorem hasTextIn_of_mem_nameChild? {c : Node} (hc : c ∈ n.nameChild?)
    (htext : Text.blank c.text = false) : n.HasTextIn "Name" ∨ n.HasTextIn "ShortName" := by
  rcases List.mem_append.mp (List.mem_of_mem_head? hc) with h | h
  · exact .inl ⟨c, h, htext⟩
  · exact .inr ⟨c, h, htext⟩

theorem not_hasTextIn_of_nameChild? (h : n.nameChild? = none) :
    ¬ (n.HasTextIn "Name" ∨ n.HasTextIn "ShortName") := by
  obtain ⟨hname, hshort⟩ := List.append_eq_nil_iff.mp (List.head?_eq_none_iff.mp h)
  rintro (⟨c, hc, -⟩ | ⟨c, hc, -⟩)
  · rw [hname] at hc
    exact absurd hc List.not_mem_nil
  · rw [hshort] at hc
    exact absurd hc List.not_mem_nil

theorem lacksName_iff :
    n.lacksName = true ↔ n.Unnamed ∨ ∃ c ∈ n.nameChild?, Text.blank c.text = true := by
  unfold lacksName Unnamed
  cases hid : n.attr? "id" with
  | none => simp
  | some id =>
    cases hc : n.nameChild? with
    | none => simpa using not_hasTextIn_of_nameChild? hc
    | some c =>
      cases htext : Text.blank c.text with
      | true => simp [htext]
      | false =>
        have hname := hasTextIn_of_mem_nameChild? hc htext
        simp [htext, hname]

end Node

/-! What is reported -/

/-- What is said about an element without an id or a name. -/
def nameFinding (element : String) (n : Node) : Finding :=
  inconsistency n <| match n.attr? "id" with
    | none => s!"{element} is missing attribute @id"
    | some id => s!"Missing name for {element}(@id={id})"

theorem nameOf_eq (n : Node) : nameOf n = .ok (n.nameChild?.map (·.text)) := by
  have hname : Node.NamesChildren "Name" := by with_unfolding_all rfl
  have hshort : Node.NamesChildren "ShortName" := by with_unfolding_all rfl
  rw [nameOf, Node.stringAt?_of_namesChildren hname, Node.stringAt?_of_namesChildren hshort,
    Node.nameChild?, List.head?_append, Option.map_or]
  cases (n.childrenNamed "Name").head? <;> rfl

theorem nameFindings_eq (element : String) (n : Node) :
    nameFindings element n = .ok (if n.lacksName then [nameFinding element n] else []) := by
  unfold nameFindings nameFinding Node.lacksName
  cases n.attr? "id" with
  | none => rfl
  | some id =>
    rw [nameOf_eq]
    cases n.nameChild? with
    | none => rfl
    | some c =>
      cases htext : Text.blank c.text <;> simp [htext, bind, Except.bind, pure, Except.pure]

theorem namedElements_eq {root : Node} {path : String} {selected : List Node}
    (h : root.nodesAt path = .ok selected) (element : String) :
    namedElements root path element =
      .ok ((selected.filter Node.lacksName).map (nameFinding element)) := by
  have hreported (ns : List Node) :
      (ns.flatMap fun n => if n.lacksName then [nameFinding element n] else []) =
        (ns.filter Node.lacksName).map (nameFinding element) := by
    induction ns with
    | nil => rfl
    | cons n ns ih => cases hn : n.lacksName <;> simp [hn, ih]
  rw [namedElements, h, ← hreported]
  exact flatten_mapM_eq_ok fun n _ => nameFindings_eq element n

/-- What a rule on names reports of a document: of the elements at its path, in the order of
selection, those that have no id or nothing in the child that their name is taken from. This order
is that of the document just when the elements have one parent or start in the order in which they
stand. -/
def NamesReported (d : ParsedDocument) (r : Rule) (element path : String) (above : List String) :
    Prop :=
  ∃ selected, d.rootNode.nodesAt path = .ok selected ∧
    (∀ limits inputs, r.check limits inputs d.rootNode =
      .ok ((selected.filter Node.lacksName).map (nameFinding element))) ∧
    (∀ n ∈ selected, n.lacksName = true ↔
      n.Unnamed ∨ ∃ c ∈ n.nameChild?, Text.blank c.text = true) ∧
    (selected.Sublist d.elements ↔
      ((belowFrames above).select d.rootNode).length ≤ 1 ∨ d.StartAsTheyStand selected) ∧
    (d.StartsAscending → selected.Sublist d.elements)

/-- Both rules report each unnamed element once. They report one that is named just when the child
that its name is taken from is blank. -/
theorem names_reported_from_first_child (d : ParsedDocument) :
    NamesReported d .stopPlaceNames "StopPlace" stopPlacesPath ["SiteFrame", "stopPlaces"] ∧
      NamesReported d .scheduledStopPointNames "ScheduledStopPoint" scheduledStopPointsPath
        ["ServiceFrame", "scheduledStopPoints"] := by
  constructor
  · have hselected := nodesAt_stopPlacesPath d.rootNode
    refine ⟨_, hselected, ?_, fun n _ => Node.lacksName_iff, ?_, ?_⟩
    · exact fun _ _ => namedElements_eq hselected "StopPlace"
    · exact select_belowFrames_sublist_iff ["SiteFrame", "stopPlaces"] "StopPlace"
    · exact fun hd => select_belowFrames_sublist hd _
  · have hselected := nodesAt_scheduledStopPointsPath d.rootNode
    refine ⟨_, hselected, ?_, fun n _ => Node.lacksName_iff, ?_, ?_⟩
    · exact fun _ _ => namedElements_eq hselected "ScheduledStopPoint"
    · exact select_belowFrames_sublist_iff ["ServiceFrame", "scheduledStopPoints"]
        "ScheduledStopPoint"
    · exact fun hd => select_belowFrames_sublist hd _

/-- A stop place with the children `<Name/><ShortName>N</ShortName>`. -/
def blankNamePlace : Xml.Element :=
  ⟨⟨63, "StopPlace", [⟨"id", none, "S"⟩], []⟩,
    [.element ⟨81, "Name", [], []⟩ [], .element ⟨88, "ShortName", [], []⟩ [.text "N"]]⟩

def blankNameDocument : ParsedDocument :=
  framesDocument [.element ⟨40, "SiteFrame", [], []⟩ [.element ⟨51, "stopPlaces", [], []⟩
    [.element blankNamePlace.tag blankNamePlace.content]]]

set_option maxRecDepth 4000 in
/-- The only stop place has an id and a short name, and is reported nonetheless. -/
theorem short_name_behind_blank_name :
    (Source.ofText "doc.xml" ("<p><dataObjects><CompositeFrame><frames><SiteFrame><stopPlaces>" ++
        "<StopPlace id='S'><Name/><ShortName>N</ShortName></StopPlace></stopPlaces></SiteFrame>" ++
        "</frames></CompositeFrame></dataObjects></p>")).parse = .ok blankNameDocument ∧
      ∃ n, blankNameDocument.rootNode.nodesAt stopPlacesPath = .ok [n] ∧ ¬ n.Unnamed ∧
        ∀ limits inputs, Rule.check .stopPlaceNames limits inputs blankNameDocument.rootNode =
          .ok [(Finding.consistency "Missing name for StopPlace(@id=S)").withLine 1] := by
  have hselected : ∃ n, blankNameDocument.rootNode.nodesAt stopPlacesPath = .ok [n] ∧
      ¬ n.Unnamed ∧ n.lacksName = true ∧
      nameFinding "StopPlace" n =
        (Finding.consistency "Missing name for StopPlace(@id=S)").withLine 1 := by
    refine ⟨_, (nodesAt_stopPlacesPath _).trans rfl, ?_, ?_, ?_⟩
    · rintro (h | h)
      · cases h
      · exact h (.inr ⟨_, List.mem_singleton_self _, by with_unfolding_all rfl⟩)
    · with_unfolding_all rfl
    · with_unfolding_all rfl
  obtain ⟨n, hn, hnamed, hlacks, hfinding⟩ := hselected
  refine ⟨?_, n, hn, hnamed, ?_⟩
  · rw [← String.ofList_append, ← String.ofList_append, Source.parse_ofList]
    with_unfolding_all rfl
  · intro limits inputs
    change namedElements _ _ _ = _
    rw [namedElements_eq hn, ← hfinding]
    simp [hlacks]

end TransitAudit
