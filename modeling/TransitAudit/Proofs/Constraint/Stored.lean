import TransitAudit.Constraint.Schema
import TransitAudit.Proofs.Constraint.Extraction
import TransitAudit.Proofs.Constraint.Unlabelled

/-! The paths that a schema's constraints are stored with. Each is a declared path without the label
of the target namespace. It is accepted if the declared one is, and has the same steps; but the
label is taken out of literals too, and so a path with such a literal may select something else. -/
namespace TransitAudit

open TransitAudit.Path

/-! Declarations -/

/-- The paths of a declaration as they are written. -/
structure Declares (n : Node) (selector : String) (fields : List String) : Prop where
  selector : ∃ s, n.first "xsd:selector" = .ok s ∧ s.attr? "xpath" = some selector
  fields : ∃ ns, n.nodesAt "xsd:field" = .ok ns ∧
    List.Forall₂ (fun f path => f.attr? "xpath" = some path) ns fields

/-- The stored fields are written paths without their labels. -/
theorem exists_fields {label? : Option String} {nodes : List Node} {stored : List String}
    (h : List.Forall₂ (fun f field => ∃ path, f.attr? "xpath" = some path ∧
      field = stripLabel label? path) nodes stored) :
    ∃ fields, List.Forall₂ (fun f path => f.attr? "xpath" = some path) nodes fields ∧
      stored = fields.map (stripLabel label?) := by
  induction h with
  | nil => exact ⟨[], .nil, rfl⟩
  | cons hf _ ih =>
    obtain ⟨path, hpath, rfl⟩ := hf
    obtain ⟨fields, hfields, rfl⟩ := ih
    exact ⟨path :: fields, .cons hpath hfields, rfl⟩

theorem exists_declares {label? : Option String} {kind : ConstraintKind} {n : Node}
    {c : Constraint} (h : Constraint.ofDeclaration label? kind n = .ok c) :
    ∃ selector fields, Declares n selector fields ∧ c.kind = kind ∧
      c.selector = stripLabel label? selector ∧ c.fields = fields.map (stripLabel label?) := by
  have hread := Constraint.ofDeclaration_eq_ok_iff.mp h
  obtain ⟨s, hs, selector, hpath, hselector⟩ := hread.selector
  obtain ⟨fields, hfields, hstored⟩ := exists_fields hread.fields
  have hfirst : n.first "xsd:selector" = .ok s := by
    obtain ⟨selectors, hselectors⟩ := List.head?_eq_some_iff.mp hs
    rw [first_selector, hselectors]
  exact ⟨selector, fields, ⟨⟨s, hfirst, hpath⟩, _, nodesAt_field n, hfields⟩, hread.kind_eq,
    hselector, hstored⟩

/-! Labels -/

theorem SchemaSource.parse_eq_ok_iff {s : SchemaSource} {d : ParsedDocument} :
    s.parse = .ok d ↔ (Source.ofText s.identifier s.text).parse = .ok d := by
  unfold SchemaSource.parse
  constructor
  · intro h
    split at h
    · rename_i hd
      cases h
      exact hd
    · cases h
    · cases h
  · intro h
    rw [h]

theorem isLocalName_of_targetLabel? {s : SchemaSource} {d : ParsedDocument} {label : String}
    (hs : s.parse = .ok d) (h : targetLabel? d.rootNode = some label) :
    Xml.IsLocalName label := by
  -- the label is one of those that the tag of the root element binds
  obtain ⟨target, -, h⟩ := Option.bind_eq_some_iff.mp h
  obtain ⟨b, hb, hlabel⟩ := List.exists_of_findSome?_eq_some h
  have htag := Source.tag_wellFormed_of_parse (SchemaSource.parse_eq_ok_iff.mp hs)
    d.rootNode_mem_elements
  have hlabel' : b.label = some label := (Option.filter_eq_some_iff.mp hlabel).1
  exact htag.labels b (List.mem_filter.mp hb).1 label hlabel'

/-! Meaning -/

/-- One text is accepted if another is, and has the same steps, with the literals changed. Where
none changes it selects the same. -/
def SameUpTo (change : String → String) (text stored : String) : Prop :=
  ∀ e, PathExpr.parse text = .ok e → ∃ e', PathExpr.parse stored = .ok e' ∧
    e'.alternatives = e.alternatives.map (·.mapLiterals change) ∧
    (e'.alternatives = e.alternatives ↔ ∀ v ∈ e.literals, change v = v) ∧
    ((∀ v ∈ e.literals, change v = v) → ∀ n, e'.evaluate n = e.evaluate n)

theorem sameUpTo_of_readAlternatives {change : String → String} {text stored : String}
    (h : ∀ paths, readAlternatives text.toList = .ok paths →
      readAlternatives stored.toList = .ok (paths.map (·.mapLiterals change))) :
    SameUpTo change text stored := by
  intro e he
  have hread := h _ (PathExpr.parse_eq_ok_iff.mp he).2
  have hiff : e.alternatives.map (·.mapLiterals change) = e.alternatives ↔
      ∀ v ∈ e.literals, change v = v :=
    map_eq_self_iff_literals LocationPath.mapLiterals_eq_self_iff e.alternatives
  refine ⟨⟨stored, _⟩, PathExpr.parse_eq_ok_iff.mpr ⟨rfl, hread⟩, rfl, hiff, ?_⟩
  intro hsame n
  have halternatives := hiff.mpr hsame
  simp only [PathExpr.evaluate, halternatives]

/-- Removing a label keeps the meaning of a path up to its literals. -/
theorem sameUpTo_stripLabel {label? : Option String}
    (hlabel : ∀ label ∈ label?, Xml.IsLocalName label) (text : String) :
    SameUpTo (stripLabel label?) text (stripLabel label? text) := by
  apply sameUpTo_of_readAlternatives
  intro paths h
  cases label? with
  | none =>
    -- nothing is removed
    have hsame : paths.map (·.mapLiterals (stripLabel none)) = paths :=
      (map_eq_self_iff_literals LocationPath.mapLiterals_eq_self_iff paths).mpr fun _ _ => rfl
    rw [hsame]
    exact h
  | some label =>
    have hread := readAlternatives_unlabelled (hlabel label rfl) h
    rw [stripLabel, String.toList_ofList]
    exact hread

theorem exists_declaration_of_mem_extract {n : Node} {set : ConstraintSet}
    (hset : ConstraintSet.extract n = .ok set) {c : Constraint}
    (hc : c ∈ set.keys ++ set.keyrefs ++ set.uniques) :
    ∃ kind nodes, n.nodesAt kind.declarations = .ok nodes ∧
      ∃ m ∈ nodes, Constraint.ofDeclaration (targetLabel? n) kind m = .ok c := by
  have hread := ConstraintSet.extract_eq_ok_iff.mp hset
  have hfrom (kind : ConstraintKind) (hc : c ∈ set.ofKind kind) :
      ∃ kind nodes, n.nodesAt kind.declarations = .ok nodes ∧
        ∃ m ∈ nodes, Constraint.ofDeclaration (targetLabel? n) kind m = .ok c := by
    obtain ⟨m, hm, hmc⟩ := exists_of_mem_forall₂ (hread kind).flip hc
    exact ⟨kind, _, kind.nodesAt_declarations n, m, hm,
      Constraint.ofDeclaration_eq_ok_iff.mpr hmc⟩
  rcases List.mem_append.mp hc with hc | hc
  · rcases List.mem_append.mp hc with hc | hc
    · exact hfrom .key hc
    · exact hfrom .keyref hc
  · exact hfrom .unique hc

/-- The selector and the fields of every constraint that a schema gives are declared paths without
the label of the target namespace. They are accepted if the declared ones are, and they select the
same from every node of every document unless the label stands in a literal. -/
theorem stored_paths_same_up_to_literals {s : SchemaSource} {d : ParsedDocument}
    {set : ConstraintSet} (hs : s.parse = .ok d)
    (hset : ConstraintSet.extract d.rootNode = .ok set) :
    ∀ c ∈ set.keys ++ set.keyrefs ++ set.uniques, ∃ nodes, ∃ n ∈ nodes, ∃ selector fields,
      d.rootNode.nodesAt c.kind.declarations = .ok nodes ∧ Declares n selector fields ∧
        List.Forall₂ (SameUpTo (stripLabel (targetLabel? d.rootNode))) (selector :: fields)
          (c.selector :: c.fields) := by
  intro c hc
  obtain ⟨kind, nodes, hnodes, n, hn, hread⟩ := exists_declaration_of_mem_extract hset hc
  obtain ⟨selector, fields, hdeclares, rfl, hselector, hfields⟩ := exists_declares hread
  have hlabel : ∀ label ∈ targetLabel? d.rootNode, Xml.IsLocalName label :=
    fun label h => isLocalName_of_targetLabel? hs h
  refine ⟨nodes, n, hn, selector, fields, hnodes, hdeclares, ?_⟩
  have hall : c.selector :: c.fields =
      (selector :: fields).map (stripLabel (targetLabel? d.rootNode)) := by
    rw [hselector, hfields]
    rfl
  rw [hall, List.forall₂_map_right_iff, List.forall₂_same]
  exact fun text _ => sameUpTo_stripLabel hlabel text

/-- The element `<unique name='U'>` with a selector and the field `@i`, inside the root element of a
schema whose target namespace has the label `p`. -/
def labelledUnique (selector : String) (fieldStart : Nat) : ParsedDocument :=
  ⟨⟨⟨⟨0, "s", [⟨"targetNamespace", none, "u"⟩], [⟨some "p", "u"⟩]⟩,
    [.element ⟨35, "unique", [⟨"name", none, "U"⟩], [⟨some "p", "u"⟩]⟩
      [.element ⟨52, "selector", [⟨"xpath", none, selector⟩], [⟨some "p", "u"⟩]⟩ [],
        .element ⟨fieldStart, "field", [⟨"xpath", none, "@i"⟩], [⟨some "p", "u"⟩]⟩ []]]⟩, []⟩,
    ⟨#[0]⟩⟩

set_option maxRecDepth 4000 in
/-- The label of a name is removed, and the path keeps its meaning. -/
theorem stored_selector_same_up_to_literals :
    (SchemaSource.mk "s.xsd" "s.xsd" ("<s xmlns:p='u' targetNamespace='u'><unique name='U'>" ++
        "<selector xpath=\"p:a[@k='v']\"/><field xpath='@i'/></unique></s>")).parse =
        .ok (labelledUnique "p:a[@k='v']" 83) ∧
      ConstraintSet.extract (labelledUnique "p:a[@k='v']" 83).rootNode =
        .ok ⟨[], [], [⟨"U", .unique, "a[@k='v']", ["@i"], none, 1⟩]⟩ ∧
      SameUpTo (stripLabel (some "p")) "p:a[@k='v']" "a[@k='v']" := by
  have hdocument : (Source.ofText "s.xsd" ("<s xmlns:p='u' targetNamespace='u'><unique name='U'>" ++
      "<selector xpath=\"p:a[@k='v']\"/><field xpath='@i'/></unique></s>")).parse =
      .ok (labelledUnique "p:a[@k='v']" 83) := by
    rw [← String.ofList_append, Source.parse_ofList]
    with_unfolding_all rfl
  have hparse := SchemaSource.parse_eq_ok_iff (s := ⟨"s.xsd", "s.xsd", _⟩).mpr hdocument
  have hset : ConstraintSet.extract (labelledUnique "p:a[@k='v']" 83).rootNode =
      .ok ⟨[], [], [⟨"U", .unique, "a[@k='v']", ["@i"], none, 1⟩]⟩ := by
    with_unfolding_all rfl
  refine ⟨hparse, hset, ?_⟩
  obtain ⟨nodes, n, hn, selector, fields, hnodes, hdeclares, hall⟩ :=
    stored_paths_same_up_to_literals hparse hset ⟨"U", .unique, "a[@k='v']", ["@i"], none, 1⟩
      (by simp)
  -- there is one declaration, and it has one selector
  obtain ⟨unique, found, hunique, hfound, hxpath⟩ : ∃ unique found,
      (labelledUnique "p:a[@k='v']" 83).rootNode.nodesAt ConstraintKind.unique.declarations =
        .ok [unique] ∧ unique.first "xsd:selector" = .ok found ∧
      found.attr? "xpath" = some "p:a[@k='v']" :=
    ⟨_, _, by with_unfolding_all rfl, by with_unfolding_all rfl, by with_unfolding_all rfl⟩
  have hn' : n = unique := by
    rw [hunique] at hnodes
    cases hnodes
    exact List.mem_singleton.mp hn
  obtain ⟨found', hfound', hxpath'⟩ := hdeclares.selector
  have hselector : selector = "p:a[@k='v']" := by
    rw [hn', hfound] at hfound'
    cases hfound'
    rw [hxpath] at hxpath'
    exact (Option.some.inj hxpath').symm
  rcases hall with _ | ⟨hsame, -⟩
  rw [hselector] at hsame
  exact hsame

/-- The text `<r><a k='p:v' i='1'/><a k='p:v' i='1'/></r>`. -/
def labelledValues : ParsedDocument :=
  ⟨⟨⟨⟨0, "r", [], []⟩,
    [.element ⟨3, "a", [⟨"k", none, "p:v"⟩, ⟨"i", none, "1"⟩], []⟩ [],
      .element ⟨21, "a", [⟨"k", none, "p:v"⟩, ⟨"i", none, "1"⟩], []⟩ []]⟩, []⟩, ⟨#[0]⟩⟩

set_option maxRecDepth 4000 in
/-- The label is taken out of a literal, and the elements that have it in their attribute are not
selected any more. -/
theorem literal_loses_label :
    (SchemaSource.mk "s.xsd" "s.xsd" ("<s xmlns:p='u' targetNamespace='u'><unique name='U'>" ++
        "<selector xpath=\"p:a[@k='p:v']\"/><field xpath='@i'/></unique></s>")).parse =
        .ok (labelledUnique "p:a[@k='p:v']" 85) ∧
      ConstraintSet.extract (labelledUnique "p:a[@k='p:v']" 85).rootNode =
        .ok ⟨[], [], [⟨"U", .unique, "a[@k='v']", ["@i"], none, 1⟩]⟩ ∧
      (Source.ofText "doc.xml" "<r><a k='p:v' i='1'/><a k='p:v' i='1'/></r>").parse =
        .ok labelledValues ∧
      ∃ declared stored, PathExpr.parse "p:a[@k='p:v']" = .ok declared ∧
        PathExpr.parse "a[@k='v']" = .ok stored ∧
        (declared.evaluate labelledValues.rootNode).length = 2 ∧
        stored.evaluate labelledValues.rootNode = [] := by
  have hdocument : (Source.ofText "s.xsd" ("<s xmlns:p='u' targetNamespace='u'><unique name='U'>" ++
      "<selector xpath=\"p:a[@k='p:v']\"/><field xpath='@i'/></unique></s>")).parse =
      .ok (labelledUnique "p:a[@k='p:v']" 85) := by
    rw [← String.ofList_append, Source.parse_ofList]
    with_unfolding_all rfl
  refine ⟨SchemaSource.parse_eq_ok_iff (s := ⟨"s.xsd", "s.xsd", _⟩).mpr hdocument, ?_, ?_, ?_⟩
  · with_unfolding_all rfl
  · rw [Source.parse_ofList]
    with_unfolding_all rfl
  · refine ⟨⟨"p:a[@k='p:v']", [⟨false, [⟨.child, .named "a", [.attributeIs (.named "k") "p:v"]⟩]⟩]⟩,
      ⟨"a[@k='v']", [⟨false, [⟨.child, .named "a", [.attributeIs (.named "k") "v"]⟩]⟩]⟩,
      ?_, ?_, ?_, ?_⟩
    · with_unfolding_all rfl
    · with_unfolding_all rfl
    · decide
    · decide

end TransitAudit
