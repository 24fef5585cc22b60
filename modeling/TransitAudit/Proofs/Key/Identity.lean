import TransitAudit.Proofs.Key.Resolution

/-! What a composite key tells of its tuple. The text of a key is cut at every delimiter, those
inside values among them: tuples share a key just when the same pieces come out. Where the
delimiter stays at one position and no value spells the mark for absence, a key stands for one
tuple. -/
namespace TransitAudit

/-! Pieces of a key -/

theorem splitOn_intercalate_eq_flatMap {sep : Char} {parts : List (List Char)} (hne : parts ≠ []) :
    ([sep].intercalate parts).splitOn sep = parts.flatMap (List.splitOn sep) := by
  induction parts with
  | nil => exact absurd rfl hne
  | cons part parts ih =>
    cases parts with
    | nil => simp
    | cons next parts =>
      rw [List.intercalate_cons_cons, List.append_assoc, List.singleton_append,
        List.splitOn_append_cons_self, ih (List.cons_ne_nil _ _)]
      rfl

theorem splitOn_injective {sep : Char} {xs ys : List Char}
    (h : xs.splitOn sep = ys.splitOn sep) : xs = ys := by
  have hx : [sep].intercalate (xs.splitOn sep) = xs := List.intercalate_splitOn sep
  rw [← hx, h, List.intercalate_splitOn]

/-- What a value adds to the pieces of a key. -/
def FieldValue.pieces (v : FieldValue) : List (List Char) :=
  v.keyPart.toList.splitOn ';'

theorem FieldValue.pieces_eq_singleton {v : FieldValue} (hv : ';' ∉ v.keyPart.toList) :
    v.pieces = [v.keyPart.toList] :=
  List.splitOn_eq_singleton hv

theorem FieldValue.keyPart_eq_of_pieces {v w : FieldValue} (h : v.pieces = w.pieces) :
    v.keyPart = w.keyPart :=
  String.toList_inj.mp (splitOn_injective h)

theorem CompositeKey.splitOn_ofValues {values : List FieldValue} (hne : values ≠ []) :
    (ofValues values).text.toList.splitOn ';' = values.flatMap FieldValue.pieces := by
  have htext : (ofValues values).text.toList =
      [';'].intercalate (values.map fun v => v.keyPart.toList) := by
    rw [ofValues, ofParts, Text.joined, String.toList_intercalate, List.map_map]
    rfl
  rw [htext, splitOn_intercalate_eq_flatMap (by simpa using hne), List.flatMap_map]
  rfl

/-- Tuples of one length share a key just when their values fall into the same pieces. -/
theorem CompositeKey.ofValues_eq_iff {v w : List FieldValue} (hl : v.length = w.length) :
    ofValues v = ofValues w ↔ v.flatMap FieldValue.pieces = w.flatMap FieldValue.pieces := by
  by_cases hv : v = []
  · have hw : w = [] := List.length_eq_zero_iff.mp (by rw [← hl, hv, List.length_nil])
    rw [hv, hw]
    simp
  · have hw : w ≠ [] := fun h => hv (List.length_eq_zero_iff.mp (by rw [hl, h, List.length_nil]))
    rw [← splitOn_ofValues hv, ← splitOn_ofValues hw]
    constructor
    · intro h
      rw [h]
    · intro h
      exact congrArg CompositeKey.mk (String.toList_inj.mp (splitOn_injective h))

/-! Values that keep within their pieces -/

/-- Values without the delimiter are read back from the front, one piece each. -/
theorem keyParts_eq_of_pieces_append {v w : List FieldValue} {r s : List (List Char)}
    (hl : v.length = w.length) (hv : ∀ x ∈ v, ';' ∉ x.keyPart.toList)
    (hw : ∀ x ∈ w, ';' ∉ x.keyPart.toList)
    (h : v.flatMap FieldValue.pieces ++ r = w.flatMap FieldValue.pieces ++ s) :
    v.map FieldValue.keyPart = w.map FieldValue.keyPart ∧ r = s := by
  induction v generalizing w with
  | nil =>
    obtain rfl : w = [] := List.length_eq_zero_iff.mp hl.symm
    exact ⟨rfl, h⟩
  | cons x v ih =>
    cases w with
    | nil => simp at hl
    | cons y w =>
      rw [List.flatMap_cons, List.flatMap_cons,
        FieldValue.pieces_eq_singleton (hv x List.mem_cons_self),
        FieldValue.pieces_eq_singleton (hw y List.mem_cons_self)] at h
      obtain ⟨hxy, h⟩ := List.cons.inj h
      obtain ⟨hm, hr⟩ := ih (by simpa using hl) (fun z hz => hv z (List.mem_cons_of_mem _ hz))
        (fun z hz => hw z (List.mem_cons_of_mem _ hz)) h
      exact ⟨by rw [List.map_cons, List.map_cons, String.toList_inj.mp hxy, hm], hr⟩

theorem length_flatMap_pieces {v : List FieldValue} (hv : ∀ x ∈ v, ';' ∉ x.keyPart.toList) :
    (v.flatMap FieldValue.pieces).length = v.length := by
  induction v with
  | nil => rfl
  | cons x v ih =>
    rw [List.flatMap_cons, FieldValue.pieces_eq_singleton (hv x List.mem_cons_self),
      List.singleton_append, List.length_cons, List.length_cons,
      ih fun z hz => hv z (List.mem_cons_of_mem _ hz)]

/-- The delimiter may occur at one position: the values before it are read back from the front,
those after it from the end, and what is between them is its own. -/
theorem keyParts_eq_of_pieces {v w : List FieldValue} {p : Nat} (hl : v.length = w.length)
    (hv : ∀ i x, i ≠ p → v[i]? = some x → ';' ∉ x.keyPart.toList)
    (hw : ∀ i x, i ≠ p → w[i]? = some x → ';' ∉ x.keyPart.toList)
    (h : v.flatMap FieldValue.pieces = w.flatMap FieldValue.pieces) :
    v.map FieldValue.keyPart = w.map FieldValue.keyPart := by
  -- the values in front of the position, the value there if any, and the values behind it
  have hfront {u : List FieldValue} (hu : ∀ i x, i ≠ p → u[i]? = some x → ';' ∉ x.keyPart.toList) :
      ∀ x ∈ u.take p, ';' ∉ x.keyPart.toList := by
    intro x hx
    obtain ⟨i, hi, hx⟩ := List.mem_take_iff_getElem.mp hx
    exact hu i x (by omega) (by rw [← hx, List.getElem?_eq_getElem])
  have hbehind {u : List FieldValue} (hu : ∀ i x, i ≠ p → u[i]? = some x → ';' ∉ x.keyPart.toList) :
      ∀ x ∈ u.drop (p + 1), ';' ∉ x.keyPart.toList := by
    intro x hx
    obtain ⟨i, hx⟩ := List.mem_iff_getElem?.mp hx
    rw [List.getElem?_drop] at hx
    exact hu _ x (by omega) hx
  by_cases hp : p < v.length
  · have hp' : p < w.length := hl ▸ hp
    have hcut {u : List FieldValue} (hpu : p < u.length) : u = u.take p ++ u[p] :: u.drop (p + 1) := by
      simp
    rw [hcut hp, hcut hp', List.flatMap_append, List.flatMap_append, List.flatMap_cons,
      List.flatMap_cons] at h
    obtain ⟨hfst, h⟩ := keyParts_eq_of_pieces_append (by simp [hl]) (hfront hv) (hfront hw) h
    have hlen : ((v.drop (p + 1)).flatMap FieldValue.pieces).length =
        ((w.drop (p + 1)).flatMap FieldValue.pieces).length := by
      rw [length_flatMap_pieces (hbehind hv), length_flatMap_pieces (hbehind hw), List.length_drop,
        List.length_drop, hl]
    -- behind the position there is one piece for each value, so the rest is that of the value at it
    obtain ⟨hmid, h⟩ := List.append_inj' h hlen
    have hlast := (keyParts_eq_of_pieces_append (r := []) (s := []) (by simp [hl]) (hbehind hv)
      (hbehind hw) (by rw [h])).1
    rw [hcut hp, hcut hp', List.map_append, List.map_append, List.map_cons, List.map_cons, hfst,
      hlast, FieldValue.keyPart_eq_of_pieces hmid]
  · have hall := hfront hv
    have hall' := hfront hw
    rw [List.take_of_length_le (by omega)] at hall hall'
    exact (keyParts_eq_of_pieces_append (r := []) (s := []) hl hall hall' (by rw [h])).1

/-! Tuples that keys tell apart -/

/-- The delimiter occurs at one position only, and nowhere is one tuple without a value where the
other has the text that marks this. -/
structure Separable (p : Nat) (v w : List FieldValue) : Prop where
  length_eq : v.length = w.length
  delimiter_left : ∀ i text, i ≠ p → v[i]? = some (.present text) → ';' ∉ text.toList
  delimiter_right : ∀ i text, i ≠ p → w[i]? = some (.present text) → ';' ∉ text.toList
  mark_left : ∀ i : Nat, v[i]? = some (.present FieldValue.absentMark) → w[i]? ≠ some .absent
  mark_right : ∀ i : Nat, w[i]? = some (.present FieldValue.absentMark) → v[i]? ≠ some .absent

theorem FieldValue.delimiter_notMem_keyPart {v : List FieldValue} {p : Nat}
    (hv : ∀ i text, i ≠ p → v[i]? = some (.present text) → ';' ∉ text.toList) :
    ∀ i x, i ≠ p → v[i]? = some x → ';' ∉ x.keyPart.toList := by
  intro i x hi hx
  cases x with
  | present text => exact hv i text hi hx
  | absent => decide

/-- Values written alike differ only where one is absent and the other its mark. -/
theorem FieldValue.eq_or_mark {x y : FieldValue} (h : x.keyPart = y.keyPart) :
    x = y ∨ x = .absent ∧ y = .present absentMark ∨ x = .present absentMark ∧ y = .absent := by
  cases x with
  | present s =>
    cases y with
    | present t => exact .inl (congrArg _ h)
    | absent => exact .inr (.inr ⟨congrArg _ h, rfl⟩)
  | absent =>
    cases y with
    | present t => exact .inr (.inl ⟨rfl, congrArg _ h.symm⟩)
    | absent => exact .inl rfl

theorem Separable.eq_of_key_eq {p : Nat} {v w : List FieldValue} (hs : Separable p v w)
    (h : CompositeKey.ofValues v = CompositeKey.ofValues w) : v = w := by
  have hparts := keyParts_eq_of_pieces hs.length_eq
    (FieldValue.delimiter_notMem_keyPart hs.delimiter_left)
    (FieldValue.delimiter_notMem_keyPart hs.delimiter_right)
    ((CompositeKey.ofValues_eq_iff hs.length_eq).mp h)
  apply List.ext_getElem hs.length_eq
  intro i hv hw
  have hi : v[i].keyPart = w[i].keyPart := by
    have := congrArg (·[i]?) hparts
    simpa [List.getElem?_eq_getElem hv, List.getElem?_eq_getElem hw] using this
  have hv' := List.getElem?_eq_getElem hv
  have hw' := List.getElem?_eq_getElem hw
  rcases FieldValue.eq_or_mark hi with he | ⟨hx, hy⟩ | ⟨hx, hy⟩
  · exact he
  · rw [hx] at hv'
    rw [hy] at hw'
    exact absurd hv' (hs.mark_right i hw')
  · rw [hx] at hv'
    rw [hy] at hw'
    exact absurd hw' (hs.mark_left i hv')

/-! Elements whose key has occurred -/

/-- The members whose value under a function is that of an earlier one. -/
def repeats {α β : Type} [DecidableEq β] (f : α → β) (xs : List α) : List α :=
  (xs.zipIdx.filter fun a => f a.1 ∈ (xs.take a.2).map f).map Prod.fst

theorem repeats_congr {α β γ : Type} [DecidableEq β] [DecidableEq γ] {f : α → β} {g : α → γ}
    {xs : List α} (h : ∀ x ∈ xs, ∀ y ∈ xs, f x = f y ↔ g x = g y) : repeats f xs = repeats g xs := by
  unfold repeats
  congr 1
  apply List.filter_congr
  intro ⟨x, i⟩ hx
  have hin : x ∈ xs := List.fst_mem_of_mem_zipIdx hx
  rw [decide_eq_decide, List.mem_map, List.mem_map]
  constructor
  · rintro ⟨y, hy, he⟩
    exact ⟨y, hy, (h y (List.mem_of_mem_take hy) x hin).mp he⟩
  · rintro ⟨y, hy, he⟩
    exact ⟨y, hy, (h y (List.mem_of_mem_take hy) x hin).mpr he⟩

/-- What has been seen are the keys of the elements before. -/
theorem duplicatesAfter_eq (k : KeyEvaluator) (seen : List CompositeKey) (before ns : List Node)
    (hseen : ∀ key, key ∈ seen ↔ key ∈ before.map k.keyAt) :
    duplicatesAfter k seen ns = ((ns.zipIdx before.length).filter fun a =>
      k.keyAt a.1 ∈ ((before ++ ns).take a.2).map k.keyAt).map fun a => (a.1, k.keyAt a.1) := by
  induction ns generalizing before seen with
  | nil => rfl
  | cons n ns ih =>
    -- the head joins the elements before, and their number is its position
    have happ : before ++ n :: ns = (before ++ [n]) ++ ns := List.append_cons ..
    have hlen : before.length + 1 = (before ++ [n]).length := by simp
    rw [duplicatesAfter, List.zipIdx_cons, List.filter_cons, List.take_left, hlen, happ]
    by_cases hn : k.keyAt n ∈ before.map k.keyAt
    · -- a key that was seen is reported and need not be recorded again
      have hnext : ∀ key, key ∈ seen ↔ key ∈ (before ++ [n]).map k.keyAt := by
        intro key
        rw [hseen, List.map_append, List.mem_append, List.map_singleton, List.mem_singleton]
        constructor
        · exact .inl
        · rintro (h | rfl)
          · exact h
          · exact hn
      rw [if_pos (List.contains_iff_mem.mpr ((hseen _).mpr hn)), if_pos (by simpa using hn),
        List.map_cons, ih _ _ hnext]
    · have hnext : ∀ key, key ∈ k.keyAt n :: seen ↔ key ∈ (before ++ [n]).map k.keyAt := by
        intro key
        rw [List.mem_cons, hseen, List.map_append, List.mem_append, List.map_singleton,
          List.mem_singleton, or_comm]
      rw [if_neg fun h => hn ((hseen _).mp (List.contains_iff_mem.mp h)), if_neg (by simpa using hn),
        ih _ _ hnext]

theorem checkUnique_eq {c : Constraint} {k : KeyEvaluator} (hk : KeyEvaluator.ofConstraint c = .ok k)
    (context : Node) :
    checkUnique c context = .ok ((repeats k.keyAt (k.select context)).map fun n =>
      duplicateFinding c (k.keyAt n) n.line) := by
  have hdup := duplicatesAfter_eq k [] [] (k.select context) (by simp)
  rw [checkUnique, hk]
  change Except.ok _ = _
  rw [hdup, repeats, List.map_map, List.map_map, List.nil_append]
  rfl

/-! References and the tuples they find -/

theorem getElem?_absentAt_present {values : List FieldValue} {index i : Nat} {text : String}
    (h : (absentAt values index)[i]? = some (.present text)) :
    i ≠ index ∧ values[i]? = some (.present text) := by
  rw [getElem?_absentAt] at h
  split at h
  · cases hv : values[i]? <;> simp [hv] at h
  · rename_i hi
    exact ⟨hi, h⟩

/-- A value may be taken as absent where the other tuple does not have the mark. -/
theorem Separable.absentAt_left {p : Nat} {v w : List FieldValue} (hs : Separable p v w)
    {index : Nat} (hw : w[index]? ≠ some (.present FieldValue.absentMark)) :
    Separable p (absentAt v index) w := by
  refine ⟨by rw [absentAt, List.length_mapIdx, hs.length_eq], ?_, hs.delimiter_right, ?_, ?_⟩
  · intro i text hi h
    exact hs.delimiter_left i text hi (getElem?_absentAt_present h).2
  · intro i h
    exact hs.mark_left i (getElem?_absentAt_present h).2
  · intro i h
    have hi : i ≠ index := by
      rintro rfl
      exact hw h
    rw [getElem?_absentAt_of_ne hi]
    exact hs.mark_right i h

theorem Separable.absentAt_both {p : Nat} {v w : List FieldValue} (hs : Separable p v w) (index : Nat) :
    Separable p (absentAt v index) (absentAt w index) := by
  refine ⟨by simp [absentAt, hs.length_eq], ?_, ?_, ?_, ?_⟩
  · intro i text hi h
    exact hs.delimiter_left i text hi (getElem?_absentAt_present h).2
  · intro i text hi h
    exact hs.delimiter_right i text hi (getElem?_absentAt_present h).2
  · intro i h
    obtain ⟨hi, h⟩ := getElem?_absentAt_present h
    rw [getElem?_absentAt_of_ne hi]
    exact hs.mark_left i h
  · intro i h
    obtain ⟨hi, h⟩ := getElem?_absentAt_present h
    rw [getElem?_absentAt_of_ne hi]
    exact hs.mark_right i h

/-- A reference that is resolved agrees with some tuple, where keys tell its tuple from theirs. -/
theorem KeySet.agree_of_resolves {p : Nat} {tuples : List (List FieldValue)} {version : Option Nat}
    {reference : List FieldValue} (hs : ∀ t ∈ tuples, Separable p reference t)
    (hmark : ∀ t ∈ tuples, ∀ i, version = some i → t[i]? ≠ some (.present FieldValue.absentMark))
    (h : (ofTuples tuples version).resolves reference = true) :
    ∃ t ∈ tuples, TuplesAgree version reference t := by
  have hexact (hc : ∃ t ∈ tuples, CompositeKey.ofValues t = .ofValues reference) :
      ∃ t ∈ tuples, TuplesAgree version reference t := by
    obtain ⟨t, ht, he⟩ := hc
    obtain rfl := (hs t ht).eq_of_key_eq he.symm
    refine ⟨reference, ht, ?_⟩
    intro i r k hr hk
    exact .inl (Option.some.inj (hr.symm.trans hk))
  cases version with
  | none => exact hexact (contains_exact_iff.mp h)
  | some index =>
    -- tuples that are equal but for the version agree if one version is missing
    have hagree {t : List FieldValue} (hrest : ∀ i, i ≠ index → reference[i]? = t[i]?)
        (hversion : ∀ r k, reference[index]? = some r → t[index]? = some k → r = .absent ∨ k = .absent) :
        TuplesAgree (some index) reference t := by
      intro i r k hr hk
      by_cases hi : i = index
      · rw [hi] at hr hk
        exact .inr ⟨by rw [hi], hversion r k hr hk⟩
      · exact .inl (Option.some.inj (by rw [← hr, ← hk, hrest i hi]))
    by_cases hv : ∃ text, reference[index]? = some (.present text)
    · obtain ⟨text, hr⟩ := hv
      rcases (resolves_versioned_iff hr).mp h with ⟨t, ht, he⟩ | ⟨t, ht, he⟩
      · exact hexact ⟨t, ht, he⟩
      · -- the key was recorded as it is, so it is its own version that is missing
        have he := ((hs t ht).absentAt_left (hmark t ht index rfl)).eq_of_key_eq he.symm
        refine ⟨t, ht, hagree ?_ ?_⟩
        · intro i hi
          rw [← he, getElem?_absentAt_of_ne hi]
        · intro r k _ hk
          rw [← he, getElem?_absentAt, if_pos rfl, hr] at hk
          exact .inr (Option.some.inj hk).symm
    · have hr := not_exists.mp hv
      obtain ⟨t, ht, he⟩ := (resolves_versionless_iff hr).mp h
      have he := ((hs t ht).absentAt_both index).eq_of_key_eq he.symm
      refine ⟨t, ht, hagree ?_ ?_⟩
      · intro i hi
        rw [← getElem?_absentAt_of_ne hi, he, getElem?_absentAt_of_ne hi]
      · intro r k hrv _
        cases r with
        | present text => exact absurd hrv (hr text)
        | absent => exact .inl rfl

/-- Keys are shared by the tuples that fall into the same pieces. Tuples that are told apart share
none, and so the checks on keys decide by the tuples themselves. -/
theorem keys_identify_separable_tuples :
    (∀ v w : List FieldValue, v.length = w.length →
      (CompositeKey.ofValues v = CompositeKey.ofValues w ↔
        v.flatMap FieldValue.pieces = w.flatMap FieldValue.pieces)) ∧
    (∀ p v w, Separable p v w → CompositeKey.ofValues v = CompositeKey.ofValues w → v = w) ∧
    (∀ p c k context, KeyEvaluator.ofConstraint c = .ok k →
      (∀ n ∈ k.select context, ∀ m ∈ k.select context, Separable p (k.values n) (k.values m)) →
      checkUnique c context = .ok ((repeats k.values (k.select context)).map fun n =>
        duplicateFinding c (k.keyAt n) n.line)) ∧
    ∀ p tuples version reference, (∀ t ∈ tuples, Separable p reference t) →
      (∀ t ∈ tuples, ∀ i, version = some i → t[i]? ≠ some (.present FieldValue.absentMark)) →
      ((KeySet.ofTuples tuples version).resolves reference = true ↔
        ∃ t ∈ tuples, TuplesAgree version reference t) := by
  refine ⟨fun v w => CompositeKey.ofValues_eq_iff, fun p v w => Separable.eq_of_key_eq, ?_, ?_⟩
  · intro p c k context hk hs
    have hsame : repeats k.keyAt (k.select context) = repeats k.values (k.select context) := by
      apply repeats_congr
      intro n hn m hm
      constructor
      · intro h
        exact (hs n hn m hm).eq_of_key_eq h
      · intro h
        exact congrArg CompositeKey.ofValues h
    rw [checkUnique_eq hk, hsame]
  · intro p tuples version reference hs hmark
    constructor
    · intro h
      exact KeySet.agree_of_resolves hs hmark h
    · rintro ⟨t, ht, ha⟩
      exact KeySet.resolves_of_agree ht (hs t ht).length_eq ha

def pairUnique : Constraint :=
  ⟨"U", .unique, "a", ["@p", "@q"], none, 1⟩

def pairEvaluator : KeyEvaluator :=
  ⟨⟨"a", [⟨false, [⟨.child, .named "a", []⟩]⟩]⟩,
    [.attributeNamed "@p" "p", .attributeNamed "@q" "q"]⟩

/-- The text `<r><a p='x;y'/><a p='x;y' q='1'/><a p='x;y'/></r>`. -/
def repeatedPair : ParsedDocument :=
  ⟨⟨⟨⟨0, "r", [], []⟩,
    [.element ⟨3, "a", [⟨"p", none, "x;y"⟩], []⟩ [],
      .element ⟨15, "a", [⟨"p", none, "x;y"⟩, ⟨"q", none, "1"⟩], []⟩ [],
      .element ⟨33, "a", [⟨"p", none, "x;y"⟩], []⟩ []]⟩, []⟩, ⟨#[0]⟩⟩

theorem keys_identify_tuples_around_delimiter :
    (Source.ofText "doc.xml" "<r><a p='x;y'/><a p='x;y' q='1'/><a p='x;y'/></r>").parse =
        .ok repeatedPair ∧
      (pairEvaluator.select repeatedPair.rootNode).map pairEvaluator.values =
        [[.present "x;y", .absent], [.present "x;y", .present "1"], [.present "x;y", .absent]] ∧
      checkUnique pairUnique repeatedPair.rootNode =
        .ok ((repeats pairEvaluator.values (pairEvaluator.select repeatedPair.rootNode)).map
          fun n => duplicateFinding pairUnique (pairEvaluator.keyAt n) n.line) ∧
      (CompositeKey.ofValues [.present "x;y", .absent] ≠
        CompositeKey.ofValues [.present "x;y", .present "1"]) ∧
      (KeySet.ofTuples [[.present "x;y", .present "1"]] (some 1)).resolves
        [.present "x;y", .absent] = true := by
  have hvalues : (pairEvaluator.select repeatedPair.rootNode).map pairEvaluator.values =
      [[.present "x;y", .absent], [.present "x;y", .present "1"], [.present "x;y", .absent]] := by
    with_unfolding_all rfl
  have hs : ∀ q ∈ [.absent, .present "1"], ∀ r ∈ [.absent, .present "1"],
      Separable 0 [.present "x;y", q] [.present "x;y", r] := by
    have hdelimiter : ∀ q ∈ [FieldValue.absent, .present "1"], ∀ i text, i ≠ 0 →
        [.present "x;y", q][i]? = some (.present text) → ';' ∉ text.toList := by
      intro q hq i text hi h
      rcases i with _ | _ | i
      · exact absurd rfl hi
      · obtain rfl : q = .present text := Option.some.inj h
        obtain rfl : text = "1" := by simpa using hq
        decide
      · cases h
    have hmark : ∀ q ∈ [FieldValue.absent, .present "1"], ∀ i : Nat,
        [.present "x;y", q][i]? ≠ some (.present FieldValue.absentMark) := by
      intro q hq i h
      have hin := List.mem_of_getElem? h
      rcases List.mem_pair.mp hq with rfl | rfl
      · exact absurd hin (by decide)
      · exact absurd hin (by decide)
    intro q hq r hr
    exact ⟨rfl, hdelimiter q hq, hdelimiter r hr, fun i h => absurd h (hmark q hq i),
      fun i h => absurd h (hmark r hr i)⟩
  have hpair : ∀ v ∈ (pairEvaluator.select repeatedPair.rootNode).map pairEvaluator.values,
      ∃ q ∈ [.absent, .present "1"], v = [.present "x;y", q] := by
    rw [hvalues]
    decide
  have h := keys_identify_separable_tuples
  refine ⟨?_, hvalues, ?_, ?_, ?_⟩
  · rw [Source.parse_ofList]
    with_unfolding_all rfl
  · apply h.2.2.1 0 pairUnique pairEvaluator _ (by with_unfolding_all rfl)
    intro n hn m hm
    obtain ⟨q, hq, hnq⟩ := hpair _ (List.mem_map_of_mem hn)
    obtain ⟨r, hr, hmr⟩ := hpair _ (List.mem_map_of_mem hm)
    rw [hnq, hmr]
    exact hs q hq r hr
  · intro he
    have hv := h.2.1 0 _ _ (hs _ (by simp) _ (by simp)) he
    simp at hv
  · refine (h.2.2.2 0 _ _ _ ?_ ?_).mpr ⟨_, List.mem_singleton.mpr rfl, ?_⟩
    · intro t ht
      rw [List.mem_singleton.mp ht]
      exact hs _ (by simp) _ (by simp)
    · intro t ht i hi
      cases hi
      rw [List.mem_singleton.mp ht]
      decide
    · intro i r k hr hk
      rcases i with _ | _ | i
      · exact .inl (Option.some.inj (hr.symm.trans hk))
      · exact .inr ⟨rfl, .inl (Option.some.inj hr).symm⟩
      · cases hr

/-- The text `<r><a p='x;y' q='z'/><a p='x' q='y;z'/></r>`. -/
def shiftedPair : ParsedDocument :=
  ⟨⟨⟨⟨0, "r", [], []⟩,
    [.element ⟨3, "a", [⟨"p", none, "x;y"⟩, ⟨"q", none, "z"⟩], []⟩ [],
      .element ⟨21, "a", [⟨"p", none, "x"⟩, ⟨"q", none, "y;z"⟩], []⟩ []]⟩, []⟩, ⟨#[0]⟩⟩

/-- Values with the delimiter, and the text that marks absence, are written as they are: different
tuples share a key, an element is reported without one like it, and a reference is resolved. -/
theorem different_tuples_share_key :
    CompositeKey.ofValues [.present "x;y", .present "z"] =
        CompositeKey.ofValues [.present "x", .present "y;z"] ∧
      [FieldValue.present "x;y", .present "z"] ≠ [.present "x", .present "y;z"] ∧
      CompositeKey.ofValues [.present FieldValue.absentMark] = CompositeKey.ofValues [.absent] ∧
      (Source.ofText "doc.xml" "<r><a p='x;y' q='z'/><a p='x' q='y;z'/></r>").parse =
        .ok shiftedPair ∧
      (pairEvaluator.select shiftedPair.rootNode).map pairEvaluator.values =
        [[.present "x;y", .present "z"], [.present "x", .present "y;z"]] ∧
      (checkUnique pairUnique shiftedPair.rootNode).map List.length = .ok 1 ∧
      (KeySet.ofTuples [[.present "x;y", .present "z"]] none).resolves
        [.present "x", .present "y;z"] = true := by
  refine ⟨by decide, by decide, by decide, ?_, ?_, ?_, by decide⟩
  · rw [Source.parse_ofList]
    with_unfolding_all rfl
  · with_unfolding_all rfl
  · with_unfolding_all rfl

end TransitAudit
