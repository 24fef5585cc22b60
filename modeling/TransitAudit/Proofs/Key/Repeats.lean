import Mathlib.Data.Finset.Card
import TransitAudit.Proofs.Key.Identity

/-! Which elements a unique constraint reports. Along the selection each element whose key an earlier
one has is reported once, so the findings and the different keys make up the number of elements. -/
namespace TransitAudit

section Positions

variable {α β : Type} [DecidableEq β] {f : α → β} {xs : List α}

/-- The positions of the members whose value under a function is that of an earlier one. -/
def repeatPositions (f : α → β) (xs : List α) : List Nat :=
  (xs.zipIdx.filter fun a => f a.1 ∈ (xs.take a.2).map f).map Prod.snd

theorem repeatPositions_ascending (f : α → β) (xs : List α) :
    (repeatPositions f xs).Pairwise (· < ·) := by
  have hall : (xs.zipIdx.map Prod.snd).Pairwise (· < ·) := by
    rw [List.zipIdx_map_snd]
    exact List.pairwise_lt_range'
  exact hall.sublist (List.filter_sublist.map _)

theorem mem_repeatPositions_iff {i : Nat} :
    i ∈ repeatPositions f xs ↔ ∃ j < i, ∃ v, (xs.map f)[j]? = some v ∧ (xs.map f)[i]? = some v := by
  simp only [repeatPositions, List.mem_map, List.mem_filter, List.mem_zipIdx_iff_getElem?,
    decide_eq_true_eq, Prod.exists, List.getElem?_map, Option.map_eq_some_iff]
  constructor
  · rintro ⟨x, i, ⟨hx, y, hy, hyx⟩, rfl⟩
    obtain ⟨j, hj, hyj⟩ := List.mem_take_iff_getElem.mp hy
    exact ⟨j, by omega, f x, ⟨y, by rw [← hyj, List.getElem?_eq_getElem], hyx⟩, x, hx, rfl⟩
  · rintro ⟨j, hj, v, ⟨y, hy, rfl⟩, x, hx, hxy⟩
    have hi := (List.getElem?_eq_some_iff.mp hx).1
    obtain ⟨hjl, hyj⟩ := List.getElem?_eq_some_iff.mp hy
    exact ⟨x, i, ⟨hx, y, List.mem_take_iff_getElem.mpr ⟨j, by omega, hyj⟩, hxy.symm⟩, rfl⟩

/-- What repeats are the members at these positions. -/
theorem forall₂_repeats (f : α → β) (xs : List α) :
    List.Forall₂ (fun i x => xs[i]? = some x) (repeatPositions f xs) (repeats f xs) := by
  rw [repeatPositions, repeats, List.forall₂_map_left_iff, List.forall₂_map_right_iff,
    List.forall₂_same]
  intro a ha
  exact List.mem_zipIdx_iff_getElem?.mp (List.mem_of_mem_filter ha)

/-- One more member is one more repeat if its value has occurred. -/
theorem repeats_concat (f : α → β) (xs : List α) (x : α) :
    repeats f (xs ++ [x]) = repeats f xs ++ if f x ∈ xs.map f then [x] else [] := by
  have hbefore : (xs.zipIdx.filter fun a => f a.1 ∈ ((xs ++ [x]).take a.2).map f) =
      xs.zipIdx.filter fun a => f a.1 ∈ (xs.take a.2).map f := by
    apply List.filter_congr
    intro a ha
    have hi := (List.getElem?_eq_some_iff.mp (List.mem_zipIdx_iff_getElem?.mp ha)).1
    rw [List.take_append_of_le_length (by omega)]
  rw [repeats, List.zipIdx_append, List.filter_append, hbefore, List.map_append]
  congr 1
  -- the new member stands behind all others
  rw [List.zipIdx_singleton, Nat.zero_add, List.filter_singleton, List.take_left]
  by_cases hx : f x ∈ xs.map f
  · rw [decide_eq_true hx, if_pos hx]
    rfl
  · rw [decide_eq_false hx, if_neg hx]
    rfl

/-- Every member repeats a value or brings a new one. -/
theorem length_repeats_add_card (f : α → β) (xs : List α) :
    (repeats f xs).length + (xs.map f).toFinset.card = xs.length := by
  induction xs using List.reverseRecOn with
  | nil => rfl
  | append_singleton xs x ih =>
    have hset : ((xs ++ [x]).map f).toFinset = insert (f x) (xs.map f).toFinset := by
      ext v
      simp
    rw [repeats_concat, List.length_append, List.length_append, hset]
    by_cases hx : f x ∈ xs.map f
    · rw [if_pos hx, Finset.insert_eq_self.mpr (List.mem_toFinset.mpr hx)]
      simp only [List.length_singleton]
      omega
    · rw [if_neg hx, Finset.card_insert_of_notMem fun h => hx (List.mem_toFinset.mp h)]
      simp only [List.length_nil, List.length_singleton]
      omega

theorem repeats_eq_nil_iff : repeats f xs = [] ↔ (xs.map f).Nodup := by
  have hcount := length_repeats_add_card f xs
  rw [← List.length_eq_zero_iff, ← Multiset.coe_nodup, ← Multiset.toFinset_card_eq_card_iff_nodup]
  change _ ↔ (xs.map f).toFinset.card = (xs.map f).length
  rw [List.length_map]
  omega

end Positions

/-! Findings -/

/-- A finding that names a constraint, a key that has occurred, and the line of the element. -/
structure Finding.TellsRepeat (c : Constraint) (key : CompositeKey) (line : UInt32) (f : Finding) :
    Prop where
  kind : f.kind = .consistency
  message : f.message = "Duplicate reference violates unique constraint " ++
    s!"\"{c.name}\" (key: {key.text})"
  line : f.line = some line
  extra : f.extra = some [("constraint", .string c.name), ("key", .string key.text)]

theorem duplicateFinding_tellsRepeat (c : Constraint) (key : CompositeKey) (line : UInt32) :
    (duplicateFinding c key line).TellsRepeat c key line := by
  have hname : ¬ "key" = "constraint" ∧ ¬ "key" < "constraint" := by decide
  refine ⟨rfl, rfl, rfl, ?_⟩
  change some (Json.Members.insert "key" (.string key.text) [("constraint", .string c.name)]) = _
  rw [Json.Members.insert, if_neg hname.1, if_neg hname.2, Json.Members.insert]

/-- The keys of the selected elements, in the order of the selection. -/
def KeyEvaluator.keys (k : KeyEvaluator) (context : Node) : List CompositeKey :=
  (k.select context).map k.keyAt

/-- One finding for each position at which a key stands that stands at an earlier one, along the
selection; there are as many as there are elements beyond the different keys, and none just when no
key repeats. -/
theorem checkUnique_reports_repeats (c : Constraint) (k : KeyEvaluator)
    (hk : KeyEvaluator.ofConstraint c = .ok k) (context : Node) :
    ∃ (findings : List Finding) (positions : List Nat), checkUnique c context = .ok findings ∧
      positions.Pairwise (· < ·) ∧
      (∀ i, i ∈ positions ↔
        ∃ j < i, ∃ key, (k.keys context)[j]? = some key ∧ (k.keys context)[i]? = some key) ∧
      List.Forall₂ (fun i f => ∃ n, (k.select context)[i]? = some n ∧
        Finding.TellsRepeat c (k.keyAt n) n.line f) positions findings ∧
      findings.length + (k.keys context).toFinset.card = (k.select context).length ∧
      (findings = [] ↔ (k.keys context).Nodup) := by
  refine ⟨_, repeatPositions k.keyAt (k.select context), checkUnique_eq hk context,
    repeatPositions_ascending _ _, fun i => mem_repeatPositions_iff, ?_, ?_, ?_⟩
  · rw [List.forall₂_map_right_iff]
    apply (forall₂_repeats k.keyAt (k.select context)).imp
    intro i n hn
    exact ⟨n, hn, duplicateFinding_tellsRepeat c _ _⟩
  · rw [List.length_map]
    exact length_repeats_add_card k.keyAt (k.select context)
  · rw [List.map_eq_nil_iff]
    exact repeats_eq_nil_iff

def itemUnique : Constraint :=
  ⟨"U", .unique, "a", ["@i"], none, 1⟩

def itemEvaluator : KeyEvaluator :=
  ⟨⟨"a", [⟨false, [⟨.child, .named "a", []⟩]⟩]⟩, [.attributeNamed "@i" "i"]⟩

/-- The text `<r><a i='1'/><a i='2'/><a i='1'/><a i='2'/><a i='1'/></r>`. -/
def interleavedItems : ParsedDocument :=
  ⟨⟨⟨⟨0, "r", [], []⟩,
    [.element ⟨3, "a", [⟨"i", none, "1"⟩], []⟩ [], .element ⟨13, "a", [⟨"i", none, "2"⟩], []⟩ [],
      .element ⟨23, "a", [⟨"i", none, "1"⟩], []⟩ [], .element ⟨33, "a", [⟨"i", none, "2"⟩], []⟩ [],
      .element ⟨43, "a", [⟨"i", none, "1"⟩], []⟩ []]⟩, []⟩, ⟨#[0]⟩⟩

/-- Two keys in turns: both of them repeat, and the first one does so twice. -/
theorem checkUnique_reports_repeats_interleaved :
    (Source.ofText "doc.xml" "<r><a i='1'/><a i='2'/><a i='1'/><a i='2'/><a i='1'/></r>").parse =
        .ok interleavedItems ∧
      KeyEvaluator.ofConstraint itemUnique = .ok itemEvaluator ∧
      itemEvaluator.keys interleavedItems.rootNode = [⟨"1"⟩, ⟨"2"⟩, ⟨"1"⟩, ⟨"2"⟩, ⟨"1"⟩] ∧
      ∃ (findings : List Finding) (positions : List Nat),
        checkUnique itemUnique interleavedItems.rootNode = .ok findings ∧
        findings.length = 3 ∧ findings ≠ [] ∧ positions.Pairwise (· < ·) ∧
        (∀ i, i ∈ positions ↔ i = 2 ∨ i = 3 ∨ i = 4) ∧
        List.Forall₂ (fun i f => ∃ n, (itemEvaluator.select interleavedItems.rootNode)[i]? = some n ∧
          Finding.TellsRepeat itemUnique (itemEvaluator.keyAt n) n.line f) positions findings := by
  have hk : KeyEvaluator.ofConstraint itemUnique = .ok itemEvaluator := by with_unfolding_all rfl
  have hkeys : itemEvaluator.keys interleavedItems.rootNode =
      [⟨"1"⟩, ⟨"2"⟩, ⟨"1"⟩, ⟨"2"⟩, ⟨"1"⟩] := by
    with_unfolding_all rfl
  have hselect : (itemEvaluator.select interleavedItems.rootNode).length = 5 := by
    with_unfolding_all rfl
  obtain ⟨findings, positions, hcheck, hascending, hpositions, htells, hcount, hnone⟩ :=
    checkUnique_reports_repeats itemUnique itemEvaluator hk interleavedItems.rootNode
  rw [hkeys] at hpositions hcount hnone
  rw [hselect] at hcount
  have hcard : ([⟨"1"⟩, ⟨"2"⟩, ⟨"1"⟩, ⟨"2"⟩, ⟨"1"⟩] : List CompositeKey).toFinset.card = 2 := by
    decide
  refine ⟨?_, hk, hkeys, findings, positions, hcheck, by omega, ?_, hascending, ?_, htells⟩
  · rw [Source.parse_ofList]
    with_unfolding_all rfl
  · intro h
    exact absurd (hnone.mp h) (by decide)
  · intro i
    rw [hpositions]
    constructor
    · rintro ⟨j, hj, key, hkj, hki⟩
      have hi : i < 5 := (List.getElem?_eq_some_iff.mp hki).1
      by_contra hother
      -- only the second element is left, and it does not have the key of the first
      obtain ⟨rfl, rfl⟩ : i = 1 ∧ j = 0 := by omega
      rw [← hki] at hkj
      exact absurd hkj (by decide)
    · rintro (rfl | rfl | rfl)
      · exact ⟨0, by omega, _, rfl, rfl⟩
      · exact ⟨1, by omega, _, rfl, rfl⟩
      · exact ⟨0, by omega, _, rfl, rfl⟩

end TransitAudit
