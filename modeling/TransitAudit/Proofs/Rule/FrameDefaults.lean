import TransitAudit.Proofs.Document.Lookup
import TransitAudit.Proofs.Document.Reading
import TransitAudit.Proofs.Failure
import TransitAudit.Proofs.Text.Trim
import TransitAudit.Rule.Run

/-! The locale of a document. The check looks at the first frame defaults, at the first
`DefaultLocale` of these, and at the first child of each kind in it. That it reports nothing says
that these children are admissible, and nothing about any others. -/
namespace TransitAudit

theorem firstAt?_of_parse_ok {path : String} {e : PathExpr} (he : PathExpr.parse path = .ok e)
    (n : Node) : firstAt? n path = .ok (e.evaluate n).head? := by
  have hfirst : n.first path = n.firstOf e := by
    rw [Node.first, he]
    rfl
  rw [firstAt?, hfirst, Node.firstOf]
  cases e.evaluate n <;> rfl

/-! One part of a locale -/

/-- A part may be blank, and otherwise has to be accepted. -/
def admissible (accepts : String → Bool) (part : Node) : Bool :=
  Text.blank part.text || accepts (Text.trimmed part.text)

def localeFinding (locale : Node) (element : String) (part : Node) : Finding :=
  (inconsistency locale s!"Invalid <{element} /> in <FrameDefaults />").withExtra "value"
    (.string (Text.trimmed part.text))

/-- What is reported of the first part of a kind. -/
def partReports (locale : Node) (c : String × (String → Bool)) : List Finding :=
  ((locale.childrenNamed c.1).head?.toList.filter fun part => !admissible c.2 part).map
    (localeFinding locale c.1)

theorem namesChildren_localeChecks : ∀ c ∈ localeChecks, Node.NamesChildren c.1 := by
  simp only [localeChecks, List.forall_mem_cons]
  refine ⟨?_, ?_, ?_, ?_, ?_, List.forall_mem_nil _⟩ <;> with_unfolding_all rfl

theorem localeFindings_eq {c : String × (String → Bool)} (hc : c ∈ localeChecks) (locale : Node) :
    localeFindings locale c.1 c.2 = .ok (partReports locale c) := by
  rw [localeFindings, Node.stringAt?_of_namesChildren (namesChildren_localeChecks c hc),
    partReports]
  cases (locale.childrenNamed c.1).head? with
  | none => rfl
  | some part =>
    have hadmits : ((Text.trimmed part.text).isEmpty || c.2 (Text.trimmed part.text)) =
        admissible c.2 part := by rw [Text.isEmpty_trimmed, admissible]
    simp only [bind, Except.bind, Option.map_some, hadmits]
    cases hadmissible : admissible c.2 part <;> simp [hadmissible, localeFinding, pure, Except.pure]

theorem partReports_eq_nil_iff {locale : Node} {c : String × (String → Bool)} :
    partReports locale c = [] ↔
      ∀ part ∈ (locale.childrenNamed c.1).head?, admissible c.2 part = true := by
  simp [partReports, List.filter_eq_nil_iff]

/-! The whole check -/

/-- The parts of a kind in all frame defaults. -/
def LocalePart (frames : List Node) (element : String) (part : Node) : Prop :=
  ∃ f ∈ frames, ∃ locale ∈ f.childrenNamed "DefaultLocale", part ∈ locale.childrenNamed element

/-- The part of a kind that comes first at each level. -/
def FirstLocalePart (frames : List Node) (element : String) (part : Node) : Prop :=
  ∃ f ∈ frames.head?, ∃ locale ∈ (f.childrenNamed "DefaultLocale").head?,
    part ∈ (locale.childrenNamed element).head?

theorem FirstLocalePart.localePart {frames : List Node} {element : String} {part : Node}
    (h : FirstLocalePart frames element part) : LocalePart frames element part := by
  obtain ⟨f, hf, locale, hlocale, hpart⟩ := h
  exact ⟨f, List.mem_of_mem_head? hf, locale, List.mem_of_mem_head? hlocale,
    List.mem_of_mem_head? hpart⟩

/-- What is reported of a document with these frame defaults. -/
def localeReports (frames : List Node) : List Finding :=
  match frames.head? with
  | none => [missingFrameDefaults]
  | some f => (f.childrenNamed "DefaultLocale").head?.toList.flatMap fun locale =>
    localeChecks.flatMap (partReports locale)

def frameDefaultsLocation : Path.LocationPath :=
  ⟨false, [⟨.self, .any, []⟩, ⟨.child, .named "dataObjects", []⟩,
    ⟨.child, .named "CompositeFrame", []⟩, ⟨.child, .named "FrameDefaults", []⟩]⟩

theorem parse_frameDefaultsPath : PathExpr.parse frameDefaultsPath =
    .ok ⟨frameDefaultsPath, [frameDefaultsLocation]⟩ := by
  with_unfolding_all rfl

theorem nodesAt_frameDefaultsPath (n : Node) :
    n.nodesAt frameDefaultsPath = .ok (frameDefaultsLocation.select n) :=
  Node.nodesAt_of_parse parse_frameDefaultsPath n

theorem frameDefaultsLocaleCheck_eq {root : Node} {frames : List Node}
    (h : root.nodesAt frameDefaultsPath = .ok frames) :
    frameDefaultsLocaleCheck root = .ok (localeReports frames) := by
  have hlocale : Node.NamesChildren "DefaultLocale" := by with_unfolding_all rfl
  rw [Node.nodesAt_of_parse_ok parse_frameDefaultsPath] at h
  rw [frameDefaultsLocaleCheck, firstAt?_of_parse_ok parse_frameDefaultsPath, Except.ok.inj h,
    localeReports]
  cases frames.head? with
  | none => rfl
  | some f =>
    simp only [bind, Except.bind, firstAt?_of_parse_ok hlocale, Path.evaluate_singleton,
      Node.childStep_select]
    cases (f.childrenNamed "DefaultLocale").head? with
    | none => rfl
    | some locale =>
      rw [Option.toList_some, List.flatMap_singleton]
      exact flatten_mapM_eq_ok fun c hc => localeFindings_eq hc locale

theorem localeReports_eq_nil_iff {frames : List Node} : localeReports frames = [] ↔
    frames ≠ [] ∧ ∀ c ∈ localeChecks, ∀ part, FirstLocalePart frames c.1 part →
      admissible c.2 part = true := by
  unfold localeReports FirstLocalePart
  cases frames with
  | nil => simp
  | cons f frames =>
    rw [List.head?_cons]
    simp only [List.flatMap_eq_nil_iff, Option.mem_toList, partReports_eq_nil_iff]
    constructor
    · intro h
      refine ⟨List.cons_ne_nil _ _, ?_⟩
      rintro c hc part ⟨_, ⟨⟩, locale, hlocale, hpart⟩
      exact h locale hlocale c hc part hpart
    · rintro ⟨-, h⟩ locale hlocale c hc part hpart
      exact h c hc part ⟨f, rfl, locale, hlocale, hpart⟩

/-- The check always gives a result. It reports nothing just when there are frame defaults and the
first parts are admissible, so that admissible frame defaults are never reported. All parts of a
document without findings are admissible just when those are that do not come first. -/
theorem clean_locale_admits_first_parts (d : ParsedDocument) :
    ∃ frames findings, d.rootNode.nodesAt frameDefaultsPath = .ok frames ∧
      (∀ limits inputs,
        Rule.check .frameDefaultsLocale limits inputs d.rootNode = .ok findings) ∧
      (findings = [] ↔ frames ≠ [] ∧ ∀ c ∈ localeChecks, ∀ part,
        FirstLocalePart frames c.1 part → admissible c.2 part = true) ∧
      (frames ≠ [] → (∀ c ∈ localeChecks, ∀ part,
        LocalePart frames c.1 part → admissible c.2 part = true) → findings = []) ∧
      (findings = [] →
        ((∀ c ∈ localeChecks, ∀ part, LocalePart frames c.1 part → admissible c.2 part = true) ↔
          ∀ c ∈ localeChecks, ∀ part, LocalePart frames c.1 part →
            ¬ FirstLocalePart frames c.1 part → admissible c.2 part = true)) := by
  have hframes := nodesAt_frameDefaultsPath d.rootNode
  refine ⟨_, _, hframes, fun _ _ => frameDefaultsLocaleCheck_eq hframes, localeReports_eq_nil_iff,
    ?_, ?_⟩
  · intro hne hall
    exact localeReports_eq_nil_iff.mpr ⟨hne, fun c hc part h => hall c hc part h.localePart⟩
  · intro hclean
    obtain ⟨-, hfirst⟩ := localeReports_eq_nil_iff.mp hclean
    constructor
    · exact fun hall c hc part hpart _ => hall c hc part hpart
    · intro hrest c hc part hpart
      by_cases h : FirstLocalePart (frameDefaultsLocation.select d.rootNode) c.1 part
      · exact hfirst c hc part h
      · exact hrest c hc part hpart h

/-- A locale with two time zone offsets, of which the first is blank and the second is none. -/
def twoOffsets : ParsedDocument :=
  ⟨⟨⟨⟨0, "p", [], []⟩, [.element ⟨3, "dataObjects", [], []⟩
    [.element ⟨16, "CompositeFrame", [], []⟩ [.element ⟨32, "FrameDefaults", [], []⟩
      [.element ⟨47, "DefaultLocale", [], []⟩ [.element ⟨62, "TimeZoneOffset", [], []⟩ [],
        .element ⟨79, "TimeZoneOffset", [], []⟩ [.text "1"]]]]]]⟩, []⟩, ⟨#[0]⟩⟩

set_option maxRecDepth 4000 in
/-- The second offset is not admissible, and yet nothing is reported. -/
theorem later_offset_unchecked :
    (Source.ofText "doc.xml" ("<p><dataObjects><CompositeFrame><FrameDefaults><DefaultLocale>" ++
        "<TimeZoneOffset/><TimeZoneOffset>1</TimeZoneOffset></DefaultLocale></FrameDefaults>" ++
        "</CompositeFrame></dataObjects></p>")).parse = .ok twoOffsets ∧
      ("TimeZoneOffset", isTimeZoneOffset) ∈ localeChecks ∧
      ∃ frames part, twoOffsets.rootNode.nodesAt frameDefaultsPath = .ok frames ∧
        LocalePart frames "TimeZoneOffset" part ∧ admissible isTimeZoneOffset part = false ∧
        ∀ limits inputs,
          Rule.check .frameDefaultsLocale limits inputs twoOffsets.rootNode = .ok [] := by
  have hparts : ∃ frames part, twoOffsets.rootNode.nodesAt frameDefaultsPath = .ok frames ∧
      LocalePart frames "TimeZoneOffset" part ∧ admissible isTimeZoneOffset part = false ∧
      localeReports frames = [] := by
    refine ⟨_, _, nodesAt_frameDefaultsPath _, ⟨_, List.mem_singleton_self _, _,
      List.mem_singleton_self _, List.mem_cons_of_mem _ (List.mem_singleton_self _)⟩, ?_, ?_⟩
    · with_unfolding_all rfl
    · with_unfolding_all rfl
  obtain ⟨frames, part, hframes, hpart, hadmissible, hclean⟩ := hparts
  refine ⟨?_, List.mem_cons_self, frames, part, hframes, hpart, hadmissible, ?_⟩
  · rw [← String.ofList_append, ← String.ofList_append, Source.parse_ofList]
    with_unfolding_all rfl
  · intro limits inputs
    rw [← hclean]
    exact frameDefaultsLocaleCheck_eq hframes

end TransitAudit
