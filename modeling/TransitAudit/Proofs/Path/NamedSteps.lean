import TransitAudit.Proofs.Path.Descent
import TransitAudit.Proofs.Path.PredicateText

/-! Predicates that name a step. An attribute by itself asks whether its step selects anything, and
a comparison with a child goes through all children that its step selects. A comparison with an
attribute looks at the first attribute that its step selects and at none behind it. -/
namespace TransitAudit.Path

open Text

variable {t : NameTest} {v : String} {n : Node} {p : Predicate} {c : Prop}

/-- What the step `@name` selects. -/
def NameTest.attributesOf (t : NameTest) (n : Node) : List Node :=
  Step.select ⟨.attribute, t, []⟩ n

/-- What the step `name` selects. -/
def NameTest.childrenOf (t : NameTest) (n : Node) : List Node :=
  Step.select ⟨.child, t, []⟩ n

/-- The predicate leaves the node in a list just when the condition holds. -/
def Predicate.KeepsIff (p : Predicate) (n : Node) (c : Prop) : Prop :=
  ∀ ns : List Node, n ∈ p.filter ns ↔ n ∈ ns ∧ c

theorem Predicate.keepsIff_iff (hp : p.counts = false) :
    p.KeepsIff n c ↔ (p.holds n = true ↔ c) := by
  unfold KeepsIff
  simp only [p.filter_of_not_counts hp, List.mem_filter]
  constructor
  · intro h
    simpa using h [n]
  · intro h ns
    rw [h]

/-! What the predicates ask of a node -/

theorem mem_childrenOf {m : Node} :
    m ∈ t.childrenOf n ↔ m ∈ n.children ∧ t.accepts m.name = true :=
  List.mem_filter

/-- The attributes that the step selects are those whose names pass the test, in their order. -/
theorem texts_attributesOf (t : NameTest) (n : Node) : (t.attributesOf n).map Node.text =
    (n.attributes.filter fun a => t.accepts a.name).map (·.value) := by
  -- only an element has attributes
  rcases n with ⟨d, _ | ⟨e, above⟩ | ⟨a, owner, above⟩⟩
  · rfl
  · have hselect : t.attributesOf ⟨d, .element e above⟩ =
        (e.attributes.filter fun a => t.accepts a.name).map
          (fun a => ⟨d, .attribute a e above⟩) := by
      rw [NameTest.attributesOf, Step.select, List.foldl_nil, Step.candidates]
      exact List.filter_map
    rw [hselect, List.map_map]
    rfl
  · rfl

theorem holds_hasAttribute_iff :
    Predicate.holds (.hasAttribute t) n = true ↔ t.attributesOf n ≠ [] := by
  rw [ne_eq, ← List.map_eq_nil_iff, texts_attributesOf, List.map_eq_nil_iff]
  simp [Predicate.holds]

/-- The attribute that a comparison looks at is the first one that the step selects. -/
theorem value_first_attribute (t : NameTest) (n : Node) :
    (n.attributes.find? fun a => t.accepts a.name).map (·.value) =
      (t.attributesOf n).head?.map Node.text := by
  rw [← List.head?_map, texts_attributesOf, List.head?_map, List.head?_filter]

theorem any_first_attribute_iff (f : String → Bool) :
    (n.attributes.find? fun a => t.accepts a.name).any (fun a => f a.value) = true ↔
      ∃ m ∈ (t.attributesOf n).head?, f m.text = true := by
  have hvalue : (n.attributes.find? fun a => t.accepts a.name).any (fun a => f a.value) =
      ((n.attributes.find? fun a => t.accepts a.name).map (·.value)).any f := by
    rw [Option.any_map]
  rw [hvalue, value_first_attribute, Option.any_map, Option.any_eq_true]
  rfl

theorem holds_attributeIs_iff : Predicate.holds (.attributeIs t v) n = true ↔
    ∃ m ∈ (t.attributesOf n).head?, m.text = v := by
  have h := any_first_attribute_iff (t := t) (n := n) (· == v)
  simp only [beq_iff_eq] at h
  exact h

theorem holds_attributeIsNot_iff : Predicate.holds (.attributeIsNot t v) n = true ↔
    ∃ m ∈ (t.attributesOf n).head?, m.text ≠ v := by
  have h := any_first_attribute_iff (t := t) (n := n) (· != v)
  simp only [bne_iff_ne] at h
  exact h

theorem holds_childIs_iff : Predicate.holds (.childIs t v) n = true ↔
    ∃ m ∈ t.childrenOf n, m.text = v := by
  simp [Predicate.holds, mem_childrenOf, and_assoc]

/-! The first of several nodes -/

/-- All nodes have the same string value. -/
def SameText (ms : List Node) : Prop :=
  ∀ a ∈ ms, ∀ b ∈ ms, a.text = b.text

theorem sameText_cons_iff {m : Node} {ms : List Node} :
    SameText (m :: ms) ↔ ∀ a ∈ m :: ms, a.text = m.text := by
  constructor
  · intro h a ha
    exact h a ha m List.mem_cons_self
  · intro h a ha b hb
    rw [h a ha, h b hb]

/-- To ask the first node for a string value is to ask all of them, where they have the same. -/
theorem first_is_iff_exists_iff {ms : List Node} :
    (∀ v, (∃ m ∈ ms.head?, m.text = v) ↔ ∃ m ∈ ms, m.text = v) ↔ SameText ms := by
  cases ms with
  | nil => simp [SameText]
  | cons m ms =>
    rw [sameText_cons_iff]
    constructor
    · intro h a ha
      obtain ⟨b, hb, htext⟩ := (h a.text).mpr ⟨a, ha, rfl⟩
      cases hb
      exact htext.symm
    · intro h v
      constructor
      · rintro ⟨b, hb, htext⟩
        exact ⟨b, List.mem_of_mem_head? hb, htext⟩
      · rintro ⟨a, ha, rfl⟩
        exact ⟨m, rfl, (h a ha).symm⟩

theorem first_is_not_iff_exists_iff {ms : List Node} :
    (∀ v, (∃ m ∈ ms.head?, m.text ≠ v) ↔ ∃ m ∈ ms, m.text ≠ v) ↔ SameText ms := by
  cases ms with
  | nil => simp [SameText]
  | cons m ms =>
    rw [sameText_cons_iff]
    constructor
    · intro h a ha
      -- another string value would be one that the first node has not
      by_contra hne
      obtain ⟨b, hb, htext⟩ := (h m.text).mpr ⟨a, ha, hne⟩
      cases hb
      exact htext rfl
    · intro h v
      constructor
      · rintro ⟨b, hb, htext⟩
        exact ⟨b, List.mem_of_mem_head? hb, htext⟩
      · rintro ⟨a, ha, htext⟩
        exact ⟨m, rfl, h a ha ▸ htext⟩

/-! Names as they are written -/

/-- The readings of a name as a step and in predicates. A wildcard is compared with no child. -/
structure NameTest.WrittenAs (t : NameTest) (name : List Char) : Prop where
  attributeStep : readStep false ('@' :: name) = .ok ⟨.attribute, t, []⟩
  childStep : readStep false name = .ok ⟨.child, t, []⟩
  hasAttribute : readPredicate ('@' :: name) = .ok (.hasAttribute t)
  attributeIs (k : Comparison) : readPredicate ('@' :: (name ++ k.written ['='])) =
    .ok (.attributeIs t (String.ofList k.text))
  attributeIsNot (k : Comparison) : readPredicate ('@' :: (name ++ k.written ['!', '='])) =
    .ok (.attributeIsNot t (String.ofList k.text))
  childIs (k : Comparison) : t ≠ .any →
    readPredicate (name ++ k.written ['=']) = .ok (.childIs t (String.ofList k.text))

theorem readPredicate_of_attributeTail {name rest : List Char} (hname : nameTest? name = some t)
    (h : AttributeTail t rest p) : readPredicate ('@' :: (name ++ rest)) = .ok p :=
  readPredicate_eq_ok_iff.mpr
    (.inl (attributePredicate?_eq_some_iff.mpr ⟨name, rest, t, rfl, hname, h⟩))

theorem NameTest.writtenAs_of_nameTest? {name : List Char} (hname : nameTest? name = some t) :
    t.WrittenAs name where
  attributeStep := by
    have htrim : nameTest? (trim name) = some t := (trim_name hname).symm ▸ hname
    exact readStep_eq_ok_iff_layout.mpr
      (.inr (.inr (.inl ⟨[], name, t, .nil, rfl, htrim, rfl, rfl⟩)))
  childStep := by
    have htrim : nameTest? (trim name) = some t := (trim_name hname).symm ▸ hname
    have hopen : '[' ∉ name := by
      intro hmem
      have hmark : isTestChar '[' = false := isTestChar_of_mem_markChars (by decide)
      rw [isTestChar_of_nameTest? hname '[' hmem] at hmark
      cases hmark
    refine readStep_eq_ok_iff_layout.mpr (.inr (.inr (.inr
      ⟨name, [], [], t, [], ?_, hopen, htrim, .nil, .nil, rfl⟩)))
    simp
  hasAttribute := by
    have h := readPredicate_of_attributeTail hname (.present .nil)
    rwa [List.append_nil] at h
  attributeIs k := readPredicate_of_attributeTail hname (.equal k)
  attributeIsNot k := readPredicate_of_attributeTail hname (.differs k)
  childIs k ht := by
    cases t with
    | any => exact absurd rfl ht
    | named localName =>
      exact readPredicate_eq_ok_iff.mpr (.inr (.inr (.inl
        (childPredicate?_eq_some_iff.mpr ⟨name, k, localName, rfl, hname, rfl⟩))))

/-- A name in a predicate names what its step selects. An attribute by itself and a comparison with
a child agree with the step. A comparison with an attribute agrees with the first node that the step
selects, and with all of them, whatever the literal is, just when they have one string value. -/
theorem named_predicates_follow_steps {name : List Char} {t : NameTest}
    (hname : nameTest? name = some t) :
    t.WrittenAs name ∧ ∀ n : Node,
      (Predicate.hasAttribute t).KeepsIff n (t.attributesOf n ≠ []) ∧
      (∀ v, (Predicate.childIs t v).KeepsIff n (∃ m ∈ t.childrenOf n, m.text = v)) ∧
      (∀ v, (Predicate.attributeIs t v).KeepsIff n
        (∃ m ∈ (t.attributesOf n).head?, m.text = v)) ∧
      (∀ v, (Predicate.attributeIsNot t v).KeepsIff n
        (∃ m ∈ (t.attributesOf n).head?, m.text ≠ v)) ∧
      ((∀ v, (Predicate.attributeIs t v).KeepsIff n (∃ m ∈ t.attributesOf n, m.text = v)) ↔
        SameText (t.attributesOf n)) ∧
      ((∀ v, (Predicate.attributeIsNot t v).KeepsIff n (∃ m ∈ t.attributesOf n, m.text ≠ v)) ↔
        SameText (t.attributesOf n)) := by
  refine ⟨NameTest.writtenAs_of_nameTest? hname, fun n => ⟨?_, ?_, ?_, ?_, ?_, ?_⟩⟩
  · exact (Predicate.keepsIff_iff rfl).mpr holds_hasAttribute_iff
  · intro v
    exact (Predicate.keepsIff_iff rfl).mpr holds_childIs_iff
  · intro v
    exact (Predicate.keepsIff_iff rfl).mpr holds_attributeIs_iff
  · intro v
    exact (Predicate.keepsIff_iff rfl).mpr holds_attributeIsNot_iff
  · rw [← first_is_iff_exists_iff]
    exact forall_congr' fun v => by rw [Predicate.keepsIff_iff rfl, holds_attributeIs_iff]
  · rw [← first_is_not_iff_exists_iff]
    exact forall_congr' fun v => by rw [Predicate.keepsIff_iff rfl, holds_attributeIsNot_iff]

end TransitAudit.Path

namespace TransitAudit

open TransitAudit.Path

/-- The text `<r><a p='1' q='2'/></r>`. -/
def twoValues : ParsedDocument :=
  ⟨⟨⟨⟨0, "r", [], []⟩,
    [.element ⟨3, "a", [⟨"p", none, "1"⟩, ⟨"q", none, "2"⟩], []⟩ []]⟩, []⟩, ⟨#[0]⟩⟩

theorem twoValues_of_parse :
    (Source.ofText "doc.xml" "<r><a p='1' q='2'/></r>").parse = .ok twoValues := by
  rw [Source.parse_ofList]
  with_unfolding_all rfl

/-- The element with two attributes. -/
def twoValuesItem : Node :=
  ⟨twoValues, .element ⟨⟨3, "a", [⟨"p", none, "1"⟩, ⟨"q", none, "2"⟩], []⟩, []⟩
    [twoValues.tree.root]⟩

/-- The wildcard names both attributes, and comparisons with it look at the first one. -/
theorem wildcard_predicates_follow_first : nameTest? ['*'] = some .any ∧
    twoValuesItem ∈ (Predicate.hasAttribute .any).filter [twoValuesItem] ∧
    twoValuesItem ∈ (Predicate.attributeIs .any "1").filter [twoValuesItem] ∧
    twoValuesItem ∉ (Predicate.attributeIs .any "2").filter [twoValuesItem] ∧
    twoValuesItem ∉ (Predicate.attributeIsNot .any "1").filter [twoValuesItem] := by
  have hname : nameTest? ['*'] = some .any := by decide
  obtain ⟨-, h⟩ := named_predicates_follow_steps hname
  obtain ⟨hhas, -, his, hisNot, -, -⟩ := h twoValuesItem
  have hfirst : (NameTest.any.attributesOf twoValuesItem).head?.map Node.text = some "1" := rfl
  have htext {m : Node} (hm : m ∈ (NameTest.any.attributesOf twoValuesItem).head?) :
      m.text = "1" := by
    rw [Option.mem_def.mp hm] at hfirst
    exact Option.some.inj hfirst
  refine ⟨hname, ?_, ?_, ?_, ?_⟩
  · exact (hhas _).mpr ⟨List.mem_singleton_self _, List.cons_ne_nil _ _⟩
  · exact (his "1" _).mpr ⟨List.mem_singleton_self _, _, rfl, rfl⟩
  · rw [his "2" [twoValuesItem]]
    rintro ⟨-, m, hm, h⟩
    exact absurd (h.symm.trans (htext hm)) (by decide)
  · rw [hisNot "1" [twoValuesItem]]
    rintro ⟨-, m, hm, h⟩
    exact h (htext hm)

set_option maxRecDepth 2000 in
/-- The step `@*` selects an attribute with the string value 2 from the element, yet neither
comparison selects the element. -/
theorem later_attribute_not_compared :
    (Source.ofText "doc.xml" "<r><a p='1' q='2'/></r>").parse = .ok twoValues ∧
      twoValues.rootNode.select "a" = .ok [twoValuesItem] ∧
      readStep false ['@', '*'] = .ok ⟨.attribute, .any, []⟩ ∧
      (Step.select ⟨.attribute, .any, []⟩ twoValuesItem).map Node.text = ["1", "2"] ∧
      twoValues.rootNode.select "a[@*='2']" = .ok [] ∧
      twoValues.rootNode.select "a[@*!='1']" = .ok [] := by
  refine ⟨twoValues_of_parse, ?_, ?_, rfl, ?_, ?_⟩
  · rw [Node.select, PathExpr.parse_ofList]
    with_unfolding_all rfl
  · with_unfolding_all rfl
  · rw [Node.select, PathExpr.parse_ofList]
    with_unfolding_all rfl
  · rw [Node.select, PathExpr.parse_ofList]
    with_unfolding_all rfl

end TransitAudit
