import Mathlib.Data.List.Sort
import TransitAudit.Document.Navigate
import TransitAudit.Proofs.Document.Nodes
import TransitAudit.Proofs.Path.Order

/-! Paths that go inward only. What such a path selects comes in document order wherever the
elements of the document start in that order. Elements that an entity brings in start where the
entity is declared, and among several of them sorting follows those places. -/
namespace TransitAudit

open TransitAudit.Path

/-- The elements start one after another in document order. -/
def ParsedDocument.StartsAscending (d : ParsedDocument) : Prop :=
  d.elements.Pairwise fun a b => a.start < b.start

/-- The nodes start in the order in which they stand in the document. -/
def ParsedDocument.StartAsTheyStand (d : ParsedDocument) (ns : List Node) : Prop :=
  ∃ ms : List Node, ms.Perm ns ∧ ms.Sublist d.elements ∧ ms.Pairwise fun a b => a.start < b.start

def Path.Step.Inward (s : Step) : Prop :=
  s.axis = .self ∨ s.axis = .child ∨ s.axis = .descendant

/-! Elements that have been sorted -/

/-- Keys of elements differ in nothing but the start. -/
theorem ParsedDocument.starts_normalize {d : ParsedDocument} {ns : List Node}
    (hns : ns ⊆ d.elements) : (Path.normalize ns).Pairwise fun a b => a.start < b.start := by
  have hin : Path.normalize ns ⊆ d.elements := fun n hn => hns (normalize_subset ns hn)
  apply (normalize_ascending ns).imp_of_mem
  rintro a b ha hb ⟨hle, hne⟩
  obtain ⟨e, above, rfl, -⟩ := ParsedDocument.mem_elements_iff.mp (hin ha)
  obtain ⟨e', above', rfl, -⟩ := ParsedDocument.mem_elements_iff.mp (hin hb)
  rcases (keyLe_iff _ _).mp hle with h | ⟨h, -⟩
  · exact h
  · -- neither has a name, so equal starts would be equal keys
    exact absurd (Prod.ext h rfl) hne

theorem eq_of_perm_of_starts {ns ms : List Node} (h : ns.Perm ms)
    (hns : ns.Pairwise fun a b => a.start < b.start)
    (hms : ms.Pairwise fun a b => a.start < b.start) : ns = ms := by
  apply h.eq_of_pairwise _ hns hms
  intro a b _ _ hab hba
  omega

theorem ParsedDocument.StartsAscending.startAsTheyStand {d : ParsedDocument}
    (hd : d.StartsAscending) {ns : List Node} (hns : ns ⊆ d.elements) (hdup : ns.Nodup) :
    d.StartAsTheyStand ns := by
  obtain ⟨ms, hperm, hsub⟩ := List.subperm_of_subset hdup hns
  exact ⟨ms, hperm, hsub, List.Pairwise.sublist hsub hd⟩

/-- Sorting leaves elements in document order just when they start in that order. -/
theorem ParsedDocument.normalize_sublist_iff {d : ParsedDocument} {ns : List Node}
    (hns : ns ⊆ d.elements) :
    (Path.normalize ns).Sublist d.elements ↔ d.StartAsTheyStand (Path.normalize ns) := by
  have hstarts := starts_normalize hns
  constructor
  · intro h
    exact ⟨_, .refl _, h, hstarts⟩
  · rintro ⟨ms, hperm, hsub, hasc⟩
    rw [← eq_of_perm_of_starts hperm hasc hstarts]
    exact hsub

theorem ParsedDocument.StartsAscending.normalize_sublist {d : ParsedDocument}
    (hd : d.StartsAscending) {ns : List Node} (hns : ns ⊆ d.elements) :
    (Path.normalize ns).Sublist d.elements := by
  apply (normalize_sublist_iff hns).mpr
  apply hd.startAsTheyStand
  · exact fun n hn => hns (normalize_subset ns hn)
  · apply (starts_normalize hns).imp
    intro a b hab he
    rw [he] at hab
    omega

/-! Steps that go inward -/

namespace Path.Step.Inward

variable {d : ParsedDocument} {s : Step}

theorem select_sublist (hs : s.Inward) {n : Node} (hn : n ∈ d.elements) :
    (s.select n).Sublist d.elements := by
  apply (s.select_sublist n).trans
  have hdesc := ParsedDocument.descendants_sublist_elements hn
  unfold Step.candidates
  rcases hs with h | h | h <;> rw [h]
  · exact List.singleton_sublist.mpr hn
  · exact List.filter_sublist.trans (n.children_sublist_descendants.trans hdesc)
  · exact List.filter_sublist.trans hdesc

theorem flatMap_subset (hs : s.Inward) {ns : List Node} (hns : ns ⊆ d.elements) :
    ns.flatMap s.select ⊆ d.elements := by
  intro m hm
  obtain ⟨n, hn, hm⟩ := List.mem_flatMap.mp hm
  exact (hs.select_sublist (hns hn)).subset hm

/-- A step from one node, or none, keeps the order of the document in any case. -/
theorem selectAll_sublist_of_le_one (hs : s.Inward) {ns : List Node} (hns : ns ⊆ d.elements)
    (hl : ns.length ≤ 1) : (s.selectAll ns).Sublist d.elements := by
  rw [Step.selectAll, if_neg (by omega)]
  match ns, hns, hl with
  | [], _, _ => exact List.nil_sublist _
  | [n], hns, _ =>
    rw [List.flatMap_singleton]
    exact hs.select_sublist (hns List.mem_cons_self)

/-- A step from several nodes does so just when what it finds starts in the order in which it
stands. -/
theorem selectAll_sublist_iff (hs : s.Inward) {ns : List Node} (hns : ns ⊆ d.elements) :
    (s.selectAll ns).Sublist d.elements ↔
      ns.length ≤ 1 ∨ d.StartAsTheyStand (s.selectAll ns) := by
  by_cases hl : ns.length ≤ 1
  · exact iff_of_true (hs.selectAll_sublist_of_le_one hns hl) (.inl hl)
  · rw [Step.selectAll, if_pos (by omega), or_iff_right hl]
    exact ParsedDocument.normalize_sublist_iff (hs.flatMap_subset hns)

theorem selectAll_sublist (hd : d.StartsAscending) (hs : s.Inward) {ns : List Node}
    (hns : ns ⊆ d.elements) : (s.selectAll ns).Sublist d.elements := by
  by_cases hl : ns.length ≤ 1
  · exact hs.selectAll_sublist_of_le_one hns hl
  · rw [Step.selectAll, if_pos (by omega)]
    exact hd.normalize_sublist (hs.flatMap_subset hns)

end Path.Step.Inward

/-! Runs of such steps -/

theorem Path.foldl_selectAll_subset {d : ParsedDocument} {ss : List Step}
    (hss : ∀ s ∈ ss, s.Inward) {ns : List Node} (hns : ns ⊆ d.elements) :
    ss.foldl (fun ns s => s.selectAll ns) ns ⊆ d.elements := by
  induction ss generalizing ns with
  | nil => exact hns
  | cons s ss ih =>
    have hs := hss s List.mem_cons_self
    apply ih fun t ht => hss t (List.mem_cons_of_mem _ ht)
    exact fun m hm => hs.flatMap_subset hns (s.selectAll_subset ns hm)

theorem Path.foldl_selectAll_sublist {d : ParsedDocument} (hd : d.StartsAscending)
    {ss : List Step} (hss : ∀ s ∈ ss, s.Inward) {ns : List Node} (hns : ns.Sublist d.elements) :
    (ss.foldl (fun ns s => s.selectAll ns) ns).Sublist d.elements := by
  induction ss generalizing ns with
  | nil => exact hns
  | cons s ss ih =>
    have hs := hss s List.mem_cons_self
    apply ih fun t ht => hss t (List.mem_cons_of_mem _ ht)
    exact hs.selectAll_sublist hd hns.subset

/-! Paths from the root element -/

theorem Path.select_subset {d : ParsedDocument} {ss : List Step} (hss : ∀ t ∈ ss, t.Inward) :
    LocationPath.select ⟨false, ss⟩ d.rootNode ⊆ d.elements :=
  foldl_selectAll_subset hss (List.singleton_sublist.mpr d.rootNode_mem_elements).subset

/-- What a path selects comes in document order just when its last step starts from one node, or
finds nodes that start in the order in which they stand. -/
theorem Path.select_concat_sublist_iff {d : ParsedDocument} {ss : List Step} {s : Step}
    (hss : ∀ t ∈ ss ++ [s], t.Inward) :
    (LocationPath.select ⟨false, ss ++ [s]⟩ d.rootNode).Sublist d.elements ↔
      (LocationPath.select ⟨false, ss⟩ d.rootNode).length ≤ 1 ∨
        d.StartAsTheyStand (LocationPath.select ⟨false, ss ++ [s]⟩ d.rootNode) := by
  have hparents : LocationPath.select ⟨false, ss⟩ d.rootNode ⊆ d.elements :=
    select_subset fun t ht => hss t (List.mem_append_left _ ht)
  have hlast : s.Inward := hss s (List.mem_append_right _ (List.mem_singleton_self s))
  rw [LocationPath.select_concat]
  exact hlast.selectAll_sublist_iff hparents

theorem Path.select_sublist {d : ParsedDocument} (hd : d.StartsAscending) {ss : List Step}
    (hss : ∀ t ∈ ss, t.Inward) :
    (LocationPath.select ⟨false, ss⟩ d.rootNode).Sublist d.elements :=
  foldl_selectAll_sublist hd hss (List.singleton_sublist.mpr d.rootNode_mem_elements)

end TransitAudit
