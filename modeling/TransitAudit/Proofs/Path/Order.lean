import Mathlib.Data.List.Nodup
import Mathlib.Data.String.Basic
import TransitAudit.Path.Evaluate

/-! Document order. Sorting by keys and merging neighbours with equal keys keeps one node for each
key that occurs. Where nodes with equal keys are equal no node is lost. -/
namespace TransitAudit.Path

/-- An element comes before its attributes, and these in the order of their names. -/
def nameLe : Option String → Option String → Prop
  | none, _ => True
  | some _, none => False
  | some x, some y => x ≤ y

theorem nameLe_trans {a b c : Option String} (hab : nameLe a b) (hbc : nameLe b c) :
    nameLe a c := by
  rcases a with _ | x <;> rcases b with _ | y <;> rcases c with _ | z <;>
    simp only [nameLe] at hab hbc ⊢
  exact le_trans hab hbc

theorem nameLe_total (a b : Option String) : nameLe a b ∨ nameLe b a := by
  rcases a with _ | x <;> rcases b with _ | y <;> simp only [nameLe, true_or, or_true]
  exact le_total x y

theorem nameLe_antisymm {a b : Option String} (hab : nameLe a b) (hba : nameLe b a) : a = b := by
  rcases a with _ | x <;> rcases b with _ | y <;> simp only [nameLe] at hab hba ⊢
  rw [le_antisymm hab hba]

theorem keyLe_iff (k l : Nat × Option String) :
    keyLe k l = true ↔ k.1 < l.1 ∨ k.1 = l.1 ∧ nameLe k.2 l.2 := by
  obtain ⟨s, a⟩ := k
  obtain ⟨t, b⟩ := l
  rcases a with _ | x <;> rcases b with _ | y <;>
    simp only [keyLe, nameLe, Bool.or_eq_true, Bool.and_eq_true, decide_eq_true_eq, beq_iff_eq,
      Bool.not_eq_true', decide_eq_false_iff_not, not_lt, and_true, Bool.false_eq_true]

theorem keyLe_trans (k l m : Nat × Option String) (hkl : keyLe k l = true)
    (hlm : keyLe l m = true) : keyLe k m = true := by
  rw [keyLe_iff] at hkl hlm ⊢
  rcases hkl with hkl | ⟨hkl, hn⟩
  · exact Or.inl (by omega)
  · rcases hlm with hlm | ⟨hlm, hn'⟩
    · exact Or.inl (by omega)
    · exact Or.inr ⟨by omega, nameLe_trans hn hn'⟩

theorem keyLe_total (k l : Nat × Option String) : (keyLe k l || keyLe l k) = true := by
  rw [Bool.or_eq_true, keyLe_iff, keyLe_iff]
  rcases Nat.lt_trichotomy k.1 l.1 with h | h | h
  · exact Or.inl (Or.inl h)
  · rcases nameLe_total k.2 l.2 with hn | hn
    · exact Or.inl (Or.inr ⟨h, hn⟩)
    · exact Or.inr (Or.inr ⟨h.symm, hn⟩)
  · exact Or.inr (Or.inl h)

theorem keyLe_antisymm {k l : Nat × Option String} (hkl : keyLe k l = true)
    (hlk : keyLe l k = true) : k = l := by
  rw [keyLe_iff] at hkl hlk
  rcases hkl with hkl | ⟨hkl, hn⟩
  · omega
  · rcases hlk with hlk | ⟨-, hn'⟩
    · omega
    · exact Prod.ext hkl (nameLe_antisymm hn hn')

/-! Merging neighbours -/

theorem mergeNeighbours_subset (ns : List Node) : mergeNeighbours ns ⊆ ns := by
  induction ns with
  | nil => simp [mergeNeighbours]
  | cons n ns ih =>
    intro k hk
    rw [mergeNeighbours] at hk
    -- nothing is left behind the head, or the head of the rest gives way to it, or both stay
    split at hk
    · rw [List.mem_singleton] at hk
      exact hk ▸ List.mem_cons_self
    · rename_i m ms hms
      have hin : ∀ x ∈ m :: ms, x ∈ ns := fun x hx => ih (hms ▸ hx)
      split at hk
      · rcases List.mem_cons.mp hk with rfl | hk
        · exact List.mem_cons_self
        · exact List.mem_cons_of_mem _ (hin k (List.mem_cons_of_mem _ hk))
      · rcases List.mem_cons.mp hk with rfl | hk
        · exact List.mem_cons_self
        · exact List.mem_cons_of_mem _ (hin k hk)

/-- Every key that occurs is kept. -/
theorem exists_mem_mergeNeighbours {n : Node} {ns : List Node} (hn : n ∈ ns) :
    ∃ m ∈ mergeNeighbours ns, orderKey m = orderKey n := by
  induction ns with
  | nil => simp at hn
  | cons k ns ih =>
    rw [mergeNeighbours]
    split
    · rename_i hnil
      rcases List.mem_cons.mp hn with rfl | hn
      · exact ⟨n, List.mem_cons_self, rfl⟩
      · -- a rest that merges to nothing has no nodes
        obtain ⟨m, hm, -⟩ := ih hn
        simp [hnil] at hm
    · rename_i l ls hls
      split
      · rename_i hkl
        rcases List.mem_cons.mp hn with rfl | hn
        · exact ⟨n, List.mem_cons_self, rfl⟩
        · obtain ⟨m, hm, he⟩ := ih hn
          rw [hls] at hm
          -- the head of the merged rest gives way to a node with the same key
          rcases List.mem_cons.mp hm with rfl | hm
          · exact ⟨k, List.mem_cons_self, hkl.trans he⟩
          · exact ⟨m, List.mem_cons_of_mem _ hm, he⟩
      · rcases List.mem_cons.mp hn with rfl | hn
        · exact ⟨n, List.mem_cons_self, rfl⟩
        · obtain ⟨m, hm, he⟩ := ih hn
          rw [hls] at hm
          exact ⟨m, List.mem_cons_of_mem _ hm, he⟩

/-- Once sorted, nodes that are left have different keys, in ascending order. -/
theorem mergeNeighbours_ascending {ns : List Node}
    (hs : ns.Pairwise fun a b => keyLe (orderKey a) (orderKey b) = true) :
    (mergeNeighbours ns).Pairwise fun a b =>
      keyLe (orderKey a) (orderKey b) = true ∧ orderKey a ≠ orderKey b := by
  induction ns with
  | nil => simp [mergeNeighbours]
  | cons n ns ih =>
    obtain ⟨hn, hs⟩ := List.pairwise_cons.mp hs
    have hms := ih hs
    rw [mergeNeighbours]
    split
    · exact List.pairwise_singleton _ _
    · rename_i m ms heq
      rw [heq] at hms
      obtain ⟨hm, hms'⟩ := List.pairwise_cons.mp hms
      have hin : ∀ x ∈ m :: ms, x ∈ ns := fun x hx => mergeNeighbours_subset ns (heq ▸ hx)
      split
      · rename_i hnm
        refine List.pairwise_cons.mpr ⟨?_, hms'⟩
        intro x hx
        -- the head has the key of the node it takes the place of
        rw [hnm]
        exact hm x hx
      · rename_i hnm
        refine List.pairwise_cons.mpr ⟨?_, hms⟩
        intro x hx
        refine ⟨hn x (hin x hx), ?_⟩
        rcases List.mem_cons.mp hx with rfl | hx
        · exact hnm
        · intro hnx
          -- `n` would stand both before and after `m`
          have hmn : keyLe (orderKey m) (orderKey n) = true := hnx ▸ (hm x hx).1
          exact hnm (keyLe_antisymm (hn m (hin m List.mem_cons_self)) hmn)

/-! Sorting and merging -/

theorem normalize_subset (ns : List Node) : normalize ns ⊆ ns := by
  intro n hn
  exact List.mem_mergeSort.mp (mergeNeighbours_subset _ hn)

theorem exists_mem_normalize {n : Node} {ns : List Node} (hn : n ∈ ns) :
    ∃ m ∈ normalize ns, orderKey m = orderKey n :=
  exists_mem_mergeNeighbours (List.mem_mergeSort.mpr hn)

theorem normalize_ascending (ns : List Node) :
    (normalize ns).Pairwise fun a b =>
      keyLe (orderKey a) (orderKey b) = true ∧ orderKey a ≠ orderKey b := by
  apply mergeNeighbours_ascending
  exact List.pairwise_mergeSort (fun a b c => keyLe_trans (orderKey a) (orderKey b) (orderKey c))
    (fun a b => keyLe_total (orderKey a) (orderKey b)) ns

/-- No two nodes that are kept share a key. -/
theorem eq_of_mem_normalize {n m : Node} {ns : List Node} (hn : n ∈ normalize ns)
    (hm : m ∈ normalize ns) (hk : orderKey n = orderKey m) : n = m := by
  have hd : ((normalize ns).map orderKey).Nodup :=
    List.pairwise_map.mpr ((normalize_ascending ns).imp fun h => h.2)
  exact List.inj_on_of_nodup_map hd hn hm hk

/-- Where the nodes of a list can be told apart by their keys, none of them is dropped. -/
theorem mem_normalize_iff {ns : List Node}
    (hk : ∀ n ∈ ns, ∀ m ∈ ns, orderKey n = orderKey m → n = m) {n : Node} :
    n ∈ normalize ns ↔ n ∈ ns := by
  constructor
  · exact fun h => normalize_subset ns h
  · intro hn
    obtain ⟨m, hm, he⟩ := exists_mem_normalize hn
    rw [← hk m (normalize_subset ns hm) n hn he]
    exact hm

theorem normalize_pair {n m : Node} (hs : m.start < n.start) : normalize [n, m] = [m, n] := by
  have hle : keyLe (orderKey n) (orderKey m) = false := by
    rw [Bool.eq_false_iff, ne_eq, keyLe_iff]
    intro h
    rcases h with h | ⟨h, -⟩
    · exact absurd (show n.start < m.start from h) (by omega)
    · exact absurd (show n.start = m.start from h) (by omega)
  have hne : orderKey m ≠ orderKey n := by
    intro he
    exact absurd (show m.start = n.start from congrArg Prod.fst he) (by omega)
  simp [normalize, List.mergeSort, mergeNeighbours, hle, hne]

theorem mergeNeighbours_of_keys_ne {ns : List Node}
    (h : ns.Pairwise fun a b => orderKey a ≠ orderKey b) : mergeNeighbours ns = ns := by
  induction ns with
  | nil => rfl
  | cons n ns ih =>
    obtain ⟨hn, hns⟩ := List.pairwise_cons.mp h
    rw [mergeNeighbours, ih hns]
    cases ns with
    | nil => rfl
    | cons m ms => exact if_neg (hn m List.mem_cons_self)

/-- Nodes that start one after another stay as they are. -/
theorem normalize_of_starts {ns : List Node} (h : ns.Pairwise fun a b => a.start < b.start) :
    normalize ns = ns := by
  have hle : ns.Pairwise fun a b => keyLe (orderKey a) (orderKey b) = true :=
    h.imp fun hab => (keyLe_iff _ _).mpr (.inl hab)
  rw [normalize, List.mergeSort_of_pairwise hle]
  apply mergeNeighbours_of_keys_ne
  exact h.imp fun hab hk => Nat.ne_of_lt hab (congrArg Prod.fst hk)

/-! Steps keep the order -/

theorem Predicate.filter_sublist (p : Predicate) (ns : List Node) : (p.filter ns).Sublist ns := by
  cases p with
  | position number =>
    rw [Predicate.filter]
    cases h : ns[number - 1]? with
    | none => exact List.nil_sublist _
    | some n => exact List.singleton_sublist.mpr (List.mem_of_getElem? h)
  | last =>
    rw [Predicate.filter]
    cases h : ns.getLast? with
    | none => exact List.nil_sublist _
    | some n => exact List.singleton_sublist.mpr (List.mem_of_getLast? h)
  | _ => exact List.filter_sublist

theorem Step.select_sublist (s : Step) (n : Node) : (s.select n).Sublist (s.candidates n) := by
  have hfold (ps : List Predicate) (ns : List Node) :
      (ps.foldl (fun ns p => p.filter ns) ns).Sublist ns := by
    induction ps generalizing ns with
    | nil => exact List.Sublist.refl _
    | cons p ps ih => exact (ih _).trans (p.filter_sublist ns)
  exact hfold s.predicates _

theorem Step.selectAll_subset (s : Step) (ns : List Node) :
    s.selectAll ns ⊆ ns.flatMap s.select := by
  intro m hm
  unfold Step.selectAll at hm
  split at hm
  · exact normalize_subset _ hm
  · exact hm

/-- The last step of a path starts from what the steps before it select. -/
theorem LocationPath.select_concat (absolute : Bool) (ss : List Step) (s : Step) (n : Node) :
    LocationPath.select ⟨absolute, ss ++ [s]⟩ n =
      s.selectAll (LocationPath.select ⟨absolute, ss⟩ n) := by
  rw [LocationPath.select, List.foldl_append]
  rfl

/-- One alternative alone is not sorted again. -/
theorem evaluate_singleton (source : String) (p : LocationPath) (n : Node) :
    (PathExpr.mk source [p]).evaluate n = p.select n := by
  rw [PathExpr.evaluate, List.flatMap_singleton]
  exact if_neg (by simp)

end TransitAudit.Path
