import TransitAudit.Constraint.Schema
import TransitAudit.Proofs.Constraint.Stored
import TransitAudit.Proofs.Key.Repeats

/-! References to keys that have no version. The position of a version is that of the reference where
this declares one, whatever the key has at that position. So a reference whose key is not among the
keys is passed over when it has no version and some key is like it but for the value there, and when
it has one and some key has no value there; in all other cases it is reported. -/
namespace TransitAudit

/-- Whether a reference is like a key when the value at one position is left out: that of the
reference if it has one there, and that of the key if it has none. -/
def matchesWithout (index : Nat) (reference key : List FieldValue) : Bool :=
  match reference[index]? with
  | some (.present _) => CompositeKey.ofValues key == .withAbsentAt reference index
  | some .absent => CompositeKey.withAbsentAt key index == .ofValues reference
  | none => false

/-- A reference that is equal to no key is resolved by those that are like it without the value at
the position. -/
theorem KeySet.resolves_iff_matchesWithout {tuples : List (List FieldValue)}
    {reference : List FieldValue} {index : Nat} (hi : index < reference.length)
    (hnone : ∀ t ∈ tuples, CompositeKey.ofValues t ≠ .ofValues reference) :
    (ofTuples tuples (some index)).resolves reference = true ↔
      ∃ t ∈ tuples, matchesWithout index reference t = true := by
  unfold matchesWithout
  cases hv : reference[index]? with
  | none => exact absurd (List.getElem?_eq_none_iff.mp hv) (by omega)
  | some v =>
    cases v with
    | present text =>
      rw [resolves_versioned_iff hv]
      simp only [beq_iff_eq]
      constructor
      · rintro (⟨t, ht, he⟩ | h)
        · exact absurd he (hnone t ht)
        · exact h
      · intro h
        exact .inr h
    | absent =>
      -- without its version the reference is as it is
      have hself : CompositeKey.withAbsentAt reference index = .ofValues reference := by
        rw [CompositeKey.withAbsentAt_eq, absentAt_eq_self hv]
      rw [resolves_versionless_iff (by simp [hv]), hself]
      simp only [beq_iff_eq]

/-- The version of a constraint is one of its fields. -/
theorem Constraint.versionIndex?_lt {c : Constraint} {index : Nat}
    (h : c.versionIndex? = some index) : index < c.fields.length :=
  (List.findIdx?_eq_some_iff_findIdx_eq.mp h).1

theorem unresolvedReferences_sublist (known : KeySet) (refs : KeyEvaluator) (context : Node) :
    (unresolvedReferences known refs context).Sublist (refs.select context) :=
  List.filter_sublist

theorem mem_unresolvedReferences_iff {known : KeySet} {refs : KeyEvaluator} {context n : Node}
    (hn : n ∈ refs.select context) (hversionRef : n.attr? "versionRef" = none) :
    n ∈ unresolvedReferences known refs context ↔ known.resolves (refs.values n) = false := by
  rw [unresolvedReferences, List.mem_filter, hversionRef]
  simp [hn]

/-- Where the key declares no version, a reference that is equal to none of the keys is reported, if
the reference declares no version either. If it does, it is reported just when no key matches it
without the value at that position. -/
theorem checkKeyref_of_key_without_version (p : KeyrefPair) (hversion : p.key.versionIndex? = none)
    (refs keys : KeyEvaluator) (hr : KeyEvaluator.ofConstraint p.keyref = .ok refs)
    (hk : KeyEvaluator.ofConstraint p.key = .ok keys) (context : Node) :
    ∃ reported : List Node, reported.Sublist (refs.select context) ∧
      checkKeyref p.keyref p.key context = .ok (reported.map fun n =>
        danglingFinding p.keyref p.key refs (refs.values n) n.line) ∧
      ∀ n ∈ refs.select context, n.attr? "versionRef" = none →
        refs.keyAt n ∉ keys.keys context →
          (p.keyref.versionIndex? = none → n ∈ reported) ∧
          ∀ index, p.keyref.versionIndex? = some index →
            (n ∈ reported ↔ ∀ m ∈ keys.select context,
              matchesWithout index (refs.values n) (keys.values m) = false) := by
  refine ⟨_, unresolvedReferences_sublist _ _ _, checkKeyref_eq hr hk context, ?_⟩
  intro n hn hversionRef hkey
  have hnone : ∀ t ∈ (keys.select context).map keys.values,
      CompositeKey.ofValues t ≠ .ofValues (refs.values n) := by
    intro t ht he
    obtain ⟨m, hm, rfl⟩ := List.mem_map.mp ht
    exact hkey (List.mem_map.mpr ⟨m, hm, he⟩)
  -- the key says nothing about the position
  have hposition : p.versionIndex? = p.keyref.versionIndex? := by
    rw [KeyrefPair.versionIndex?, hversion]
    cases p.keyref.versionIndex? <;> rfl
  rw [mem_unresolvedReferences_iff hn hversionRef, hposition]
  constructor
  · intro hkeyref
    rw [hkeyref, Bool.eq_false_iff]
    intro hresolves
    obtain ⟨t, ht, he⟩ := KeySet.contains_exact_iff.mp hresolves
    exact hnone t ht he
  · intro index hkeyref
    have hi : index < (refs.values n).length := by
      rw [KeyEvaluator.length_values hr]
      exact Constraint.versionIndex?_lt hkeyref
    rw [hkeyref, Bool.eq_false_iff, ne_eq, KeySet.resolves_iff_matchesWithout hi hnone]
    simp

/-- A key whose second field is an order, and a reference whose second field is a version. -/
def orderSchema : SchemaSource :=
  ⟨"s", "s.xsd", "<s><key name='K'><selector xpath='k'/><field xpath='@id'/>" ++
    "<field xpath='@order'/></key><keyref name='R' refer='K'><selector xpath='f'/>" ++
    "<field xpath='@ref'/><field xpath='@version'/></keyref></s>"⟩

def orderPair : KeyrefPair :=
  ⟨⟨"R", .keyref, "f", ["@ref", "@version"], some "K", 1⟩,
    ⟨"K", .key, "k", ["@id", "@order"], none, 1⟩⟩

def orderReferences : KeyEvaluator :=
  ⟨⟨"f", [⟨false, [⟨.child, .named "f", []⟩]⟩]⟩,
    [.attributeNamed "@ref" "ref", .attributeNamed "@version" "version"]⟩

def orderKeys : KeyEvaluator :=
  ⟨⟨"k", [⟨false, [⟨.child, .named "k", []⟩]⟩]⟩,
    [.attributeNamed "@id" "id", .attributeNamed "@order" "order"]⟩

/-- The text `<r><k id='X' order='1'/><k id='Y'/>` with the elements `<f ref='X'/>`,
`<f ref='Y' version='2'/>` and `<f ref='X' version='2'/>` behind it. -/
def orderedItems : ParsedDocument :=
  ⟨⟨⟨⟨0, "r", [], []⟩,
    [.element ⟨3, "k", [⟨"id", none, "X"⟩, ⟨"order", none, "1"⟩], []⟩ [],
      .element ⟨24, "k", [⟨"id", none, "Y"⟩], []⟩ [],
      .element ⟨35, "f", [⟨"ref", none, "X"⟩], []⟩ [],
      .element ⟨47, "f", [⟨"ref", none, "Y"⟩, ⟨"version", none, "2"⟩], []⟩ [],
      .element ⟨71, "f", [⟨"ref", none, "X"⟩, ⟨"version", none, "2"⟩], []⟩ []]⟩, []⟩, ⟨#[0]⟩⟩

set_option maxRecDepth 4000 in
theorem orderedItems_of_parse :
    (Source.ofText "doc.xml" ("<r><k id='X' order='1'/><k id='Y'/><f ref='X'/>" ++
      "<f ref='Y' version='2'/><f ref='X' version='2'/></r>")).parse = .ok orderedItems := by
  rw [← String.ofList_append, Source.parse_ofList]
  with_unfolding_all rfl

def orderSchemaTree : ParsedDocument :=
  ⟨⟨⟨⟨0, "s", [], []⟩,
    [.element ⟨3, "key", [⟨"name", none, "K"⟩], []⟩
      [.element ⟨17, "selector", [⟨"xpath", none, "k"⟩], []⟩ [],
        .element ⟨38, "field", [⟨"xpath", none, "@id"⟩], []⟩ [],
        .element ⟨58, "field", [⟨"xpath", none, "@order"⟩], []⟩ []],
      .element ⟨87, "keyref", [⟨"name", none, "R"⟩, ⟨"refer", none, "K"⟩], []⟩
      [.element ⟨114, "selector", [⟨"xpath", none, "f"⟩], []⟩ [],
        .element ⟨135, "field", [⟨"xpath", none, "@ref"⟩], []⟩ [],
        .element ⟨156, "field", [⟨"xpath", none, "@version"⟩], []⟩ []]]⟩, []⟩, ⟨#[0]⟩⟩

set_option maxRecDepth 4000 in
theorem orderSchema_pairs : ∃ set, orderSchema.constraints = .ok set ∧
    set.keyrefPairs = .ok [orderPair] := by
  have hsource : (Source.ofText "s" orderSchema.text).parse = .ok orderSchemaTree := by
    rw [orderSchema, ← String.ofList_append, ← String.ofList_append, Source.parse_ofList]
    with_unfolding_all rfl
  have htree : orderSchema.parse = .ok orderSchemaTree := SchemaSource.parse_eq_ok_iff.mpr hsource
  refine ⟨⟨[orderPair.key], [orderPair.keyref], []⟩, ?_, ?_⟩
  · exact bind_eq_ok_iff.mpr ⟨_, htree, by with_unfolding_all rfl⟩
  · with_unfolding_all rfl

theorem orderReferences_of_constraint :
    KeyEvaluator.ofConstraint orderPair.keyref = .ok orderReferences := by
  with_unfolding_all rfl

theorem orderKeys_of_constraint : KeyEvaluator.ofConstraint orderPair.key = .ok orderKeys := by
  with_unfolding_all rfl

/-- Three references that are equal to none of the two keys: one without a version and one with a
version are like a key without the order, and only the last one is reported. -/
theorem checkKeyref_of_order_key :
    orderPair.key.versionIndex? = none ∧ orderPair.keyref.versionIndex? = some 1 ∧
      orderKeys.keys orderedItems.rootNode = [⟨"X;1"⟩, ⟨"Y;_notfound_"⟩] ∧
      orderReferences.keys orderedItems.rootNode = [⟨"X;_notfound_"⟩, ⟨"Y;2"⟩, ⟨"X;2"⟩] ∧
      ∃ reported : List Node,
        checkKeyref orderPair.keyref orderPair.key orderedItems.rootNode =
          .ok (reported.map fun n => danglingFinding orderPair.keyref orderPair.key orderReferences
            (orderReferences.values n) n.line) ∧
        ∀ n ∈ orderReferences.select orderedItems.rootNode,
          (n ∈ reported ↔ orderReferences.keyAt n = ⟨"X;2"⟩) := by
  have hkey : orderPair.key.versionIndex? = none := by with_unfolding_all rfl
  have hkeyref : orderPair.keyref.versionIndex? = some 1 := by with_unfolding_all rfl
  obtain ⟨reported, -, hcheck, hreported⟩ := checkKeyref_of_key_without_version orderPair hkey
    orderReferences orderKeys orderReferences_of_constraint orderKeys_of_constraint
    orderedItems.rootNode
  refine ⟨hkey, hkeyref, by with_unfolding_all rfl, by with_unfolding_all rfl, reported, hcheck, ?_⟩
  have hall : ∀ n ∈ orderReferences.select orderedItems.rootNode,
      n.attr? "versionRef" = none ∧
        orderReferences.keyAt n ∉ orderKeys.keys orderedItems.rootNode ∧
        ((∀ m ∈ orderKeys.select orderedItems.rootNode,
          matchesWithout 1 (orderReferences.values n) (orderKeys.values m) = false) ↔
            orderReferences.keyAt n = ⟨"X;2"⟩) := by
    decide
  intro n hn
  obtain ⟨hversionRef, hequal, hmatches⟩ := hall n hn
  rw [((hreported n hn hversionRef hequal).2 1 hkeyref), hmatches]

/-- The schema pairs a reference that has a version with a key that has none. Two references whose
keys are not among the keys are not reported. -/
theorem unequal_references_pass :
    (∃ set, orderSchema.constraints = .ok set ∧ set.keyrefPairs = .ok [orderPair]) ∧
      orderPair.key.versionIndex? = none ∧
      (Source.ofText "doc.xml" ("<r><k id='X' order='1'/><k id='Y'/><f ref='X'/>" ++
        "<f ref='Y' version='2'/><f ref='X' version='2'/></r>")).parse = .ok orderedItems ∧
      KeyEvaluator.ofConstraint orderPair.keyref = .ok orderReferences ∧
      KeyEvaluator.ofConstraint orderPair.key = .ok orderKeys ∧
      (orderReferences.select orderedItems.rootNode).length = 3 ∧
      (∀ n ∈ orderReferences.select orderedItems.rootNode, n.attr? "versionRef" = none ∧
        ∀ m ∈ orderKeys.select orderedItems.rootNode,
          orderReferences.keyAt n ≠ orderKeys.keyAt m) ∧
      (checkKeyref orderPair.keyref orderPair.key orderedItems.rootNode).map List.length =
        .ok 1 := by
  refine ⟨orderSchema_pairs, by with_unfolding_all rfl, orderedItems_of_parse,
    orderReferences_of_constraint, orderKeys_of_constraint, ?_, ?_, ?_⟩
  · with_unfolding_all rfl
  · decide
  · with_unfolding_all rfl

end TransitAudit
