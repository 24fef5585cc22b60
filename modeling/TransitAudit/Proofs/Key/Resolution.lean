import TransitAudit.Constraint.Set
import TransitAudit.Key.Check
import TransitAudit.Proofs.Document.Reading
import TransitAudit.Proofs.Failure

/-! References and keys. A reference is reported just when the set of keys does not resolve it, and
the set resolves every reference whose tuple agrees with that of some key, where the version of
either may be missing. -/
namespace TransitAudit

/-! Tuples with a value taken as absent -/

/-- The tuple without its value at one position. -/
def absentAt (values : List FieldValue) (index : Nat) : List FieldValue :=
  values.mapIdx fun i v => if i = index then .absent else v

theorem CompositeKey.withAbsentAt_eq (values : List FieldValue) (index : Nat) :
    withAbsentAt values index = ofValues (absentAt values index) :=
  rfl

theorem getElem?_absentAt (values : List FieldValue) (index i : Nat) :
    (absentAt values index)[i]? =
      if i = index then values[i]?.map fun _ => .absent else values[i]? := by
  rw [absentAt, List.getElem?_mapIdx]
  split <;> simp

theorem getElem?_absentAt_of_ne {values : List FieldValue} {index i : Nat} (hi : i ≠ index) :
    (absentAt values index)[i]? = values[i]? := by
  rw [getElem?_absentAt, if_neg hi]

/-- Tuples that are equal but at one position are equal without it. -/
theorem absentAt_congr {v w : List FieldValue} {index : Nat} (hl : v.length = w.length)
    (h : ∀ i, i ≠ index → v[i]? = w[i]?) : absentAt v index = absentAt w index := by
  apply List.ext_getElem?
  intro i
  rw [getElem?_absentAt, getElem?_absentAt]
  split
  · by_cases hi : i < v.length
    · rw [List.getElem?_eq_getElem hi, List.getElem?_eq_getElem (hl ▸ hi)]
      rfl
    · rw [List.getElem?_eq_none (by omega), List.getElem?_eq_none (by omega)]
  · rename_i hi
    exact h i hi

theorem absentAt_eq_self {values : List FieldValue} {index : Nat}
    (h : values[index]? = some .absent) : absentAt values index = values := by
  apply List.ext_getElem?
  intro i
  by_cases hi : i = index
  · rw [getElem?_absentAt, if_pos hi, hi, h]
    rfl
  · exact getElem?_absentAt_of_ne hi

/-! Agreement of a reference with a key -/

/-- The values at each position are equal, or the position is that of the version and one side has
none. -/
def TuplesAgree (version : Option Nat) (reference key : List FieldValue) : Prop :=
  ∀ i r k, reference[i]? = some r → key[i]? = some k →
    r = k ∨ version = some i ∧ (r = .absent ∨ k = .absent)

theorem TuplesAgree.getElem?_eq {version : Option Nat} {reference key : List FieldValue}
    (ha : TuplesAgree version reference key) (hl : reference.length = key.length) {i : Nat}
    (hi : version ≠ some i) : reference[i]? = key[i]? := by
  by_cases hr : i < reference.length
  · have hk : i < key.length := hl ▸ hr
    rw [List.getElem?_eq_getElem hr, List.getElem?_eq_getElem hk]
    rcases ha i _ _ (List.getElem?_eq_getElem hr) (List.getElem?_eq_getElem hk) with h | ⟨h, -⟩
    · rw [h]
    · exact absurd h hi
  · rw [List.getElem?_eq_none (by omega), List.getElem?_eq_none (by omega)]

/-! The set of keys -/

namespace KeySet

theorem contains_exact_iff {tuples : List (List FieldValue)} {version : Option Nat}
    {k : CompositeKey} :
    (ofTuples tuples version).exact.contains k = true ↔
      ∃ t ∈ tuples, CompositeKey.ofValues t = k := by
  simp only [ofTuples, List.contains_iff_mem, List.mem_eraseDups, List.mem_map]

theorem contains_versionless_iff {tuples : List (List FieldValue)} {index : Nat}
    {k : CompositeKey} :
    (ofTuples tuples (some index)).versionless.contains k = true ↔
      ∃ t ∈ tuples, CompositeKey.withAbsentAt t index = k := by
  simp only [ofTuples, List.contains_iff_mem, List.mem_eraseDups, List.mem_map]

/-- A reference with a version finds itself or, recorded without a version, the rest of itself. -/
theorem resolves_versioned_iff {tuples : List (List FieldValue)} {index : Nat}
    {reference : List FieldValue} {text : String} (hr : reference[index]? = some (.present text)) :
    (ofTuples tuples (some index)).resolves reference = true ↔
      (∃ t ∈ tuples, CompositeKey.ofValues t = .ofValues reference) ∨
        ∃ t ∈ tuples, CompositeKey.ofValues t = .withAbsentAt reference index := by
  have hv : (ofTuples tuples (some index)).versionIndex = some index := rfl
  unfold resolves
  rw [hv]
  dsimp only
  rw [hr]
  dsimp only
  rw [Bool.or_eq_true, contains_exact_iff, contains_exact_iff]

/-- A reference without a version is compared with the keys as they are without theirs. -/
theorem resolves_versionless_iff {tuples : List (List FieldValue)} {index : Nat}
    {reference : List FieldValue} (hr : ∀ text, reference[index]? ≠ some (.present text)) :
    (ofTuples tuples (some index)).resolves reference = true ↔
      ∃ t ∈ tuples, CompositeKey.withAbsentAt t index = .withAbsentAt reference index := by
  have hv : (ofTuples tuples (some index)).versionIndex = some index := rfl
  unfold resolves
  rw [hv]
  dsimp only
  split
  · rename_i text h
    exact absurd h (hr text)
  · exact contains_versionless_iff

/-- A reference that agrees with some tuple is resolved. -/
theorem resolves_of_agree {tuples : List (List FieldValue)} {version : Option Nat}
    {reference key : List FieldValue} (hk : key ∈ tuples) (hl : reference.length = key.length)
    (ha : TuplesAgree version reference key) :
    (ofTuples tuples version).resolves reference = true := by
  cases version with
  | none =>
    have he : reference = key := List.ext_getElem? fun i => ha.getElem?_eq hl (by simp)
    exact contains_exact_iff.mpr ⟨key, hk, by rw [he]⟩
  | some index =>
    have hother (i : Nat) (hi : i ≠ index) : key[i]? = reference[i]? :=
      (ha.getElem?_eq hl (by simpa using hi.symm)).symm
    -- without versions both read the same, whatever these are
    have hrest : absentAt key index = absentAt reference index := absentAt_congr hl.symm hother
    by_cases hv : ∃ text, reference[index]? = some (.present text)
    · obtain ⟨text, hr⟩ := hv
      have hin : index < key.length := hl ▸ (List.getElem?_eq_some_iff.mp hr).1
      have hkey := List.getElem?_eq_getElem hin
      rw [resolves_versioned_iff hr]
      rcases ha index _ _ hr hkey with he | ⟨-, he | he⟩
      · left
        have he : key = reference := by
          apply List.ext_getElem?
          intro i
          by_cases hi : i = index
          · rw [hi, hr, hkey, he]
          · exact hother i hi
        exact ⟨key, hk, by rw [he]⟩
      · exact absurd he (by simp)
      · -- a key without a version is recorded as the reference reads without its own
        right
        have hself : absentAt key index = key := absentAt_eq_self (by rw [hkey, he])
        exact ⟨key, hk, by rw [CompositeKey.withAbsentAt_eq, ← hrest, hself]⟩
    · rw [resolves_versionless_iff (not_exists.mp hv)]
      exact ⟨key, hk, by rw [CompositeKey.withAbsentAt_eq, CompositeKey.withAbsentAt_eq, hrest]⟩

end KeySet

/-! Constraints with their paths read -/

theorem KeyEvaluator.length_values {c : Constraint} {k : KeyEvaluator}
    (hk : KeyEvaluator.ofConstraint c = .ok k) (n : Node) :
    (k.values n).length = c.fields.length := by
  obtain ⟨selector, -, hk⟩ := bind_eq_ok_iff.mp hk
  obtain ⟨fields, hf, hk⟩ := bind_eq_ok_iff.mp hk
  cases hk
  rw [values, List.length_map]
  exact length_eq_of_mapM hf

theorem KeySet.build_eq {key : Constraint} {k : KeyEvaluator}
    (hk : KeyEvaluator.ofConstraint key = .ok k) (context : Node) (version : Option Nat) :
    KeySet.build key context version =
      .ok (KeySet.ofTuples ((k.select context).map k.values) version) := by
  rw [KeySet.build, hk]
  rfl

/-- What is found by a key constraint has a key that its references are resolved against. -/
theorem ConstraintSet.fields_length_eq_of_keyOf {s : ConstraintSet} {keyref : Constraint}
    {p : KeyrefPair} (hp : s.keyOf keyref = .ok p) :
    p.keyref = keyref ∧ p.keyref.fields.length = p.key.fields.length := by
  unfold ConstraintSet.keyOf at hp
  dsimp only at hp
  split at hp
  · split at hp
    · rename_i hl
      cases hp
      exact ⟨rfl, hl.symm⟩
    · cases hp
  · cases hp
  · cases hp

/-- Pairs come in the order of the references. -/
theorem ConstraintSet.keyrefs_of_keyrefPairs {s : ConstraintSet} {pairs : List KeyrefPair}
    (hs : s.keyrefPairs = .ok pairs) : pairs.map KeyrefPair.keyref = s.keyrefs := by
  have hp := mapM_eq_ok_iff.mp hs
  clear hs
  generalize s.keyrefs = keyrefs at hp
  induction hp with
  | nil => rfl
  | cons hof _ ih => rw [List.map_cons, ih, (fields_length_eq_of_keyOf hof).1]

/-- The position at which a missing version is made up for: that of the reference, or else that of
the key. -/
def KeyrefPair.versionIndex? (p : KeyrefPair) : Option Nat :=
  p.keyref.versionIndex? <|> p.key.versionIndex?

/-- The selected references that a check reports. -/
def unresolvedReferences (known : KeySet) (refs : KeyEvaluator) (context : Node) : List Node :=
  (refs.select context).filter fun n =>
    (n.attr? "versionRef").isNone && !known.resolves (refs.values n)

theorem checkKeyref_eq {p : KeyrefPair} {refs keys : KeyEvaluator}
    (hr : KeyEvaluator.ofConstraint p.keyref = .ok refs)
    (hk : KeyEvaluator.ofConstraint p.key = .ok keys) (context : Node) :
    checkKeyref p.keyref p.key context =
      .ok ((unresolvedReferences (KeySet.ofTuples ((keys.select context).map keys.values)
        p.versionIndex?) refs context).map fun n =>
          danglingFinding p.keyref p.key refs (refs.values n) n.line) := by
  rw [checkKeyref, hr]
  change (if (refs.select context).isEmpty = true then _ else _) = _
  split
  · -- without references the keys are not looked up
    rename_i he
    rw [unresolvedReferences, List.isEmpty_iff.mp he]
    rfl
  · change KeySet.build p.key context p.versionIndex? >>= _ = _
    rw [KeySet.build_eq hk]
    generalize KeySet.ofTuples _ p.versionIndex? = known
    change Except.ok _ = _
    rw [unresolvedReferences, ← List.filterMap_eq_map, List.filterMap_filter]
    congr 2
    funext n
    -- an element with `versionRef` is passed over before its tuple is looked up
    cases n.attr? "versionRef" with
    | some value => rfl
    | none =>
      dsimp only [Option.isSome_none, Option.isNone_none, Bool.true_and]
      cases KeySet.resolves _ (refs.values n) <;> rfl

/-- The references reported are, in the order of their selection, those without `versionRef` that
the keys do not resolve; among them is none that agrees with a key. -/
theorem checkKeyref_reports_unresolved (s : ConstraintSet) (pairs : List KeyrefPair)
    (hs : s.keyrefPairs = .ok pairs) (p : KeyrefPair) (hp : p ∈ pairs) (refs keys : KeyEvaluator)
    (hr : KeyEvaluator.ofConstraint p.keyref = .ok refs)
    (hk : KeyEvaluator.ofConstraint p.key = .ok keys) (context : Node) :
    ∃ known, KeySet.build p.key context p.versionIndex? = .ok known ∧
      checkKeyref p.keyref p.key context =
        .ok ((unresolvedReferences known refs context).map fun n =>
          danglingFinding p.keyref p.key refs (refs.values n) n.line) ∧
      ∀ n ∈ refs.select context, ∀ k ∈ keys.select context,
        TuplesAgree p.versionIndex? (refs.values n) (keys.values k) →
          n ∉ unresolvedReferences known refs context := by
  refine ⟨_, KeySet.build_eq hk context _, checkKeyref_eq hr hk context, ?_⟩
  intro n hn k hsel ha hin
  -- pairs are made of constraints with as many fields, and a tuple has a value for each field
  have hl : (refs.values n).length = (keys.values k).length := by
    obtain ⟨keyref, -, hof⟩ := exists_of_mem_mapM hs hp
    rw [KeyEvaluator.length_values hr, KeyEvaluator.length_values hk]
    exact (ConstraintSet.fields_length_eq_of_keyOf hof).2
  have hres := KeySet.resolves_of_agree (List.mem_map_of_mem hsel) hl ha
  have hun := (List.mem_filter.mp hin).2
  rw [hres] at hun
  simp at hun

def versionedKey : Constraint :=
  ⟨"K", .key, "k", ["@id", "@version"], none, 1⟩

def versionedKeyref : Constraint :=
  ⟨"R", .keyref, "f", ["@ref", "@version"], some "K", 1⟩

/-- The text `<r><k id='X' version='1'/><f ref='X'/><f ref='Y' version='1'/></r>`. -/
def versionedReferences : ParsedDocument :=
  ⟨⟨⟨⟨0, "r", [], []⟩,
    [.element ⟨3, "k", [⟨"id", none, "X"⟩, ⟨"version", none, "1"⟩], []⟩ [],
      .element ⟨26, "f", [⟨"ref", none, "X"⟩], []⟩ [],
      .element ⟨38, "f", [⟨"ref", none, "Y"⟩, ⟨"version", none, "1"⟩], []⟩ []]⟩, []⟩, ⟨#[0]⟩⟩

theorem checkKeyref_reports_unresolved_versioned :
    ConstraintSet.keyrefPairs ⟨[versionedKey], [versionedKeyref], []⟩ =
        .ok [⟨versionedKeyref, versionedKey⟩] ∧
      (Source.ofText "doc.xml"
        "<r><k id='X' version='1'/><f ref='X'/><f ref='Y' version='1'/></r>").parse =
        .ok versionedReferences ∧
      (checkKeyref versionedKeyref versionedKey versionedReferences.rootNode).map List.length =
        .ok 1 ∧
      ∃ known refs, KeyEvaluator.ofConstraint versionedKeyref = .ok refs ∧
        KeySet.build versionedKey versionedReferences.rootNode (some 1) = .ok known ∧
        checkKeyref versionedKeyref versionedKey versionedReferences.rootNode =
          .ok ((unresolvedReferences known refs versionedReferences.rootNode).map fun n =>
            danglingFinding versionedKeyref versionedKey refs (refs.values n) n.line) := by
  have hs : ConstraintSet.keyrefPairs ⟨[versionedKey], [versionedKeyref], []⟩ =
      .ok [⟨versionedKeyref, versionedKey⟩] := by with_unfolding_all rfl
  have hr : KeyEvaluator.ofConstraint versionedKeyref =
      .ok ⟨⟨"f", [⟨false, [⟨.child, .named "f", []⟩]⟩]⟩,
        [.attributeNamed "@ref" "ref", .attributeNamed "@version" "version"]⟩ := by
    with_unfolding_all rfl
  have hk : KeyEvaluator.ofConstraint versionedKey =
      .ok ⟨⟨"k", [⟨false, [⟨.child, .named "k", []⟩]⟩]⟩,
        [.attributeNamed "@id" "id", .attributeNamed "@version" "version"]⟩ := by
    with_unfolding_all rfl
  have hi : KeyrefPair.versionIndex? ⟨versionedKeyref, versionedKey⟩ = some 1 := by
    with_unfolding_all rfl
  obtain ⟨known, hbuild, hcheck, -⟩ := checkKeyref_reports_unresolved _ _ hs
    ⟨versionedKeyref, versionedKey⟩ List.mem_cons_self _ _ hr hk versionedReferences.rootNode
  rw [hi] at hbuild
  refine ⟨hs, ?_, by with_unfolding_all rfl, known, _, hr, hbuild, hcheck⟩
  rw [Source.parse_ofList]
  with_unfolding_all rfl

end TransitAudit
