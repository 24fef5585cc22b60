import TransitAudit.Proofs.Path.Inward
import TransitAudit.Proofs.Path.Reach
import TransitAudit.Proofs.Xml.Tags

/-! Distinct nodes in ascending order. Sorting and merging makes any list so; a step from a single
node, which is not sorted, leads to distinct nodes that ascend already, since an axis follows the
document and predicates only leave nodes out. -/
namespace TransitAudit

open TransitAudit.Path

/-- No node occurs twice, and none starts before one that stands in front of it. -/
def Path.InOrder (ns : List Node) : Prop :=
  ns.Nodup ∧ ns.Pairwise fun a b => a.start ≤ b.start

namespace Path.InOrder

variable {ns ms : List Node}

theorem nil : InOrder [] :=
  ⟨List.nodup_nil, .nil⟩

theorem singleton (n : Node) : InOrder [n] :=
  ⟨List.nodup_singleton n, List.pairwise_singleton _ n⟩

theorem sublist (hns : InOrder ns) (h : ms.Sublist ns) : InOrder ms :=
  ⟨hns.1.sublist h, hns.2.sublist h⟩

theorem normalize (ns : List Node) : InOrder (Path.normalize ns) := by
  constructor
  · apply (normalize_ascending ns).imp
    rintro a b ⟨-, hne⟩ rfl
    exact hne rfl
  · apply (normalize_ascending ns).imp
    rintro a b ⟨hle, -⟩
    rcases (keyLe_iff _ _).mp hle with h | ⟨h, -⟩
    · exact Nat.le_of_lt h
    · exact Nat.le_of_eq h

end Path.InOrder

namespace ParsedDocument

/-- No attribute occurs twice at an element. -/
def AttributesDistinct (d : ParsedDocument) : Prop :=
  ∀ n ∈ d.elements, n.attributes.Nodup

variable {d : ParsedDocument} {n : Node}

theorem attributesDistinct_of_parse {s : Source} (h : s.parse = .ok d) : d.AttributesDistinct := by
  intro n hn
  obtain ⟨e, above, rfl, -⟩ := mem_elements_iff.mp hn
  have htag := Source.tag_wellFormed_of_parse h hn
  apply htag.attributes_distinct.imp
  rintro a b hab rfl
  exact hab ⟨rfl, rfl⟩

theorem StartsAscending.inOrder (hd : d.StartsAscending) : InOrder d.elements := by
  constructor
  · apply hd.imp
    rintro a b hab rfl
    exact Nat.lt_irrefl _ hab
  · exact hd.imp Nat.le_of_lt

theorem StartsAscending.inOrder_descendants (hd : d.StartsAscending) (hn : d.Holds n) :
    InOrder n.descendants := by
  cases hn with
  | document => exact hd.inOrder
  | element hn => exact hd.inOrder.sublist (descendants_sublist_elements hn)
  | attributeOf hn ha =>
    obtain ⟨e, above, rfl, -⟩ := mem_elements_iff.mp hn
    obtain ⟨a, -, rfl⟩ := List.mem_map.mp ha
    exact .nil

theorem AttributesDistinct.inOrder_attributeNodes (hd : d.AttributesDistinct) (hn : d.Holds n) :
    InOrder n.attributeNodes := by
  cases hn with
  | document => exact .nil
  | element hn =>
    obtain ⟨e, above, rfl, -⟩ := mem_elements_iff.mp hn
    constructor
    · apply List.Nodup.map _ (hd _ hn)
      intro a b hab
      simpa using hab
    · -- all of them start where their element does
      rw [Node.attributeNodes, List.pairwise_map]
      exact List.pairwise_of_forall fun a b => Nat.le_refl _
  | attributeOf hn ha =>
    obtain ⟨e, above, rfl, -⟩ := mem_elements_iff.mp hn
    obtain ⟨a, -, rfl⟩ := List.mem_map.mp ha
    exact .nil

end ParsedDocument

/-! Steps and paths -/

section Steps

variable {d : ParsedDocument} {n : Node} {ns : List Node} {s : Step} {ss : List Step}

theorem inOrder_candidates (hd : d.StartsAscending) (ha : d.AttributesDistinct) (hn : d.Holds n)
    (s : Step) : InOrder (s.candidates n) := by
  unfold Step.candidates
  -- by the axis; only descendants and attributes can be more than the children of one element
  split
  · exact .singleton n
  · cases hp : n.parent? with
    | none => exact .nil
    | some p => exact .singleton p
  · have hchildren := n.children_sublist_descendants
    exact (hd.inOrder_descendants hn).sublist (List.filter_sublist.trans hchildren)
  · exact (hd.inOrder_descendants hn).sublist List.filter_sublist
  · exact (ha.inOrder_attributeNodes hn).sublist List.filter_sublist

theorem inOrder_selectAll (hd : d.StartsAscending) (ha : d.AttributesDistinct)
    (hns : ∀ n ∈ ns, d.Holds n) (s : Step) : InOrder (s.selectAll ns) := by
  unfold Step.selectAll
  split
  · exact .normalize _
  · -- nothing is sorted, but there is at most one node to start from
    rename_i hlen
    match ns, hns, hlen with
    | [], _, _ => exact .nil
    | [n], hns, _ =>
      have hcandidates := inOrder_candidates hd ha (hns n List.mem_cons_self) s
      rw [List.flatMap_singleton]
      exact hcandidates.sublist (s.select_sublist n)
    | _ :: _ :: _, _, hlen => simp at hlen

/-- A run of steps keeps the order, be its results sorted on the way or not. -/
theorem inOrder_foldl_selectAll (hd : d.StartsAscending) (ha : d.AttributesDistinct)
    (hns : ∀ n ∈ ns, d.Holds n) (hord : InOrder ns) :
    InOrder (ss.foldl (fun ns s => s.selectAll ns) ns) := by
  induction ss generalizing ns with
  | nil => exact hord
  | cons s ss ih =>
    have hstep := inOrder_selectAll hd ha hns s
    exact ih (ParsedDocument.Holds.selectAll hns) hstep

theorem inOrder_select (hd : d.StartsAscending) (ha : d.AttributesDistinct) (hn : d.Holds n)
    (p : LocationPath) : InOrder (p.select n) := by
  apply inOrder_foldl_selectAll hd ha
  · intro m hm
    rw [List.mem_singleton] at hm
    exact hm ▸ hn.start p.absolute
  · exact .singleton _

end Steps

/-- In a parsed document whose elements start one after another, evaluation from any of its nodes
gives distinct nodes, and these start one after another, attributes where their elements do. -/
theorem evaluate_distinct_in_order (s : Source) (d : ParsedDocument) (hs : s.parse = .ok d)
    (hd : d.StartsAscending) (e : PathExpr) (n : Node) (hn : d.Holds n) :
    (e.evaluate n).Nodup ∧ (e.evaluate n).Pairwise fun a b => a.start ≤ b.start := by
  have ha := ParsedDocument.attributesDistinct_of_parse hs
  unfold PathExpr.evaluate
  split
  · exact InOrder.normalize _
  · -- at most one alternative, which is in order by itself
    rename_i hlen
    match hp : e.alternatives with
    | [] => exact InOrder.nil
    | [p] =>
      rw [List.flatMap_singleton]
      exact inOrder_select hd ha hn p
    | _ :: _ :: _ => simp [hp] at hlen

/-- The text `<a p='1' q='2'><b/></a>`, whose root element has two attributes. -/
def twoAttributes : ParsedDocument :=
  ⟨⟨⟨⟨0, "a", [⟨"p", none, "1"⟩, ⟨"q", none, "2"⟩], []⟩, [.element ⟨15, "b", [], []⟩ []]⟩, []⟩,
    ⟨#[0]⟩⟩

/-- The attributes of the root element, which are not sorted. -/
theorem evaluate_distinct_in_order_at_root :
    (Source.ofText "doc.xml" "<a p='1' q='2'><b/></a>").parse = .ok twoAttributes ∧
      twoAttributes.StartsAscending ∧ twoAttributes.Holds twoAttributes.rootNode ∧
      ∃ e, PathExpr.parse "@*" = .ok e ∧ (e.evaluate twoAttributes.rootNode).length = 2 ∧
        (e.evaluate twoAttributes.rootNode).Nodup ∧
        (e.evaluate twoAttributes.rootNode).Pairwise fun a b => a.start ≤ b.start := by
  have hparse : (Source.ofText "doc.xml" "<a p='1' q='2'><b/></a>").parse = .ok twoAttributes := by
    rw [Source.parse_ofList]
    with_unfolding_all rfl
  have he : twoAttributes.elements = [twoAttributes.rootNode,
      ⟨twoAttributes, .element ⟨⟨15, "b", [], []⟩, []⟩ [twoAttributes.tree.root]⟩] := rfl
  have hd : twoAttributes.StartsAscending := by
    rw [ParsedDocument.StartsAscending, he]
    decide
  have hn := ParsedDocument.Holds.element twoAttributes.rootNode_mem_elements
  have hpath : PathExpr.parse "@*" = .ok ⟨"@*", [⟨false, [⟨.attribute, .any, []⟩]⟩]⟩ := by
    rw [PathExpr.parse_ofList]
    with_unfolding_all rfl
  refine ⟨hparse, hd, hn, _, hpath, rfl, ?_⟩
  exact evaluate_distinct_in_order _ _ hparse hd _ _ hn

end TransitAudit
