import TransitAudit.Proofs.Document.Nodes
import TransitAudit.Proofs.Document.Reading
import TransitAudit.Proofs.Path.Order

/-! Evaluation against reachability. An expression reaches a node by a chain of nodes, each
selected by one step from the node before. What evaluation returns is always reached. That it
returns all that is reached comes down to the keys that nodes are sorted and merged by: the
document node must not share the place of an element, nor two attributes of an element a name. -/
namespace TransitAudit

namespace Path

/-- A chain of nodes along steps. -/
inductive Leads : List Step → Node → Node → Prop
  | here (n : Node) : Leads [] n n
  | step {s : Step} {ss : List Step} {n m k : Node} :
      m ∈ s.select n → Leads ss m k → Leads (s :: ss) n k

def LocationPath.Reaches (p : LocationPath) (n m : Node) : Prop :=
  Leads p.steps (if p.absolute then n.top else n) m

end Path

/-- Some alternative leads from the context node, or from the document, to the other node. -/
def PathExpr.Reaches (e : PathExpr) (n m : Node) : Prop :=
  ∃ p ∈ e.alternatives, p.Reaches n m

namespace ParsedDocument

/-- No two elements start at the same offset. -/
def StartsDistinct (d : ParsedDocument) : Prop :=
  (d.elements.map Node.start).Nodup

/-- Beyond distinct starts, what it takes for the keys of nodes to be distinct. -/
structure KeysDistinct (d : ParsedDocument) : Prop where
  start_ne_zero : ∀ n ∈ d.elements, n.start ≠ 0
  attribute_eq : ∀ n ∈ d.elements, ∀ a ∈ n.attributes, ∀ b ∈ n.attributes, a.name = b.name → a = b

end ParsedDocument

open TransitAudit.Path

/-! Keys -/

@[simp] theorem orderKey_document (d : ParsedDocument) : orderKey ⟨d, .document⟩ = (0, none) :=
  rfl

@[simp] theorem orderKey_element (d : ParsedDocument) (e : Xml.Element)
    (above : List Xml.Element) : orderKey ⟨d, .element e above⟩ = (e.start, none) :=
  rfl

@[simp] theorem orderKey_attribute (d : ParsedDocument) (a : Xml.Attribute) (e : Xml.Element)
    (above : List Xml.Element) : orderKey ⟨d, .attribute a e above⟩ = (e.start, some a.name) :=
  rfl

/-- Under these conditions a key belongs to one node of the document. -/
theorem eq_of_orderKey_eq {d : ParsedDocument} (hd : d.StartsDistinct) (hk : d.KeysDistinct)
    {n m : Node} (hn : d.Holds n) (hm : d.Holds m) (he : orderKey n = orderKey m) : n = m := by
  -- a name tells attributes from the others, a start other than zero elements from the document
  cases hn with
  | document =>
    cases hm with
    | document => rfl
    | element hm =>
      obtain ⟨e, above, rfl, -⟩ := ParsedDocument.mem_elements_iff.mp hm
      have hz : 0 = e.start := by simpa [ParsedDocument.documentNode] using he
      exact absurd hz.symm (hk.start_ne_zero _ hm)
    | attributeOf hm hb =>
      obtain ⟨e, above, rfl, -⟩ := ParsedDocument.mem_elements_iff.mp hm
      obtain ⟨b, -, rfl⟩ := List.mem_map.mp hb
      simp [ParsedDocument.documentNode] at he
  | element hn =>
    obtain ⟨e, above, rfl, -⟩ := ParsedDocument.mem_elements_iff.mp hn
    cases hm with
    | document =>
      have hz : e.start = 0 := by simpa [ParsedDocument.documentNode] using he
      exact absurd hz (hk.start_ne_zero _ hn)
    | element hm =>
      obtain ⟨e', above', rfl, -⟩ := ParsedDocument.mem_elements_iff.mp hm
      exact List.inj_on_of_nodup_map hd hn hm (congrArg Prod.fst he)
    | attributeOf hm hb =>
      obtain ⟨e', above', rfl, -⟩ := ParsedDocument.mem_elements_iff.mp hm
      obtain ⟨b, -, rfl⟩ := List.mem_map.mp hb
      simp at he
  | attributeOf hn ha =>
    obtain ⟨e, above, rfl, -⟩ := ParsedDocument.mem_elements_iff.mp hn
    obtain ⟨a, hae, rfl⟩ := List.mem_map.mp ha
    cases hm with
    | document => simp [ParsedDocument.documentNode] at he
    | element hm =>
      obtain ⟨e', above', rfl, -⟩ := ParsedDocument.mem_elements_iff.mp hm
      simp at he
    | attributeOf hm hb =>
      obtain ⟨e', above', rfl, -⟩ := ParsedDocument.mem_elements_iff.mp hm
      obtain ⟨b, hbe, rfl⟩ := List.mem_map.mp hb
      obtain ⟨hs, hname⟩ : e.start = e'.start ∧ a.name = b.name := by simpa using he
      -- equal starts make the owners equal, and then equal names the attributes
      have ho := List.inj_on_of_nodup_map hd hn hm hs
      obtain ⟨rfl, rfl⟩ : e = e' ∧ above = above' := by simpa using ho
      rw [hk.attribute_eq _ hn a hae b hbe hname]

/-! Steps stay inside the document -/

theorem ParsedDocument.Holds.select {d : ParsedDocument} {n m : Node} (hn : d.Holds n) {s : Step}
    (hm : m ∈ s.select n) : d.Holds m := by
  have hc := (s.select_sublist n).subset hm
  unfold Step.candidates at hc
  split at hc
  · rw [List.mem_singleton] at hc
    exact hc ▸ hn
  · rw [Option.mem_toList] at hc
    exact hn.parent hc
  · exact hn.descendant (n.children_sublist_descendants.subset (List.mem_of_mem_filter hc))
  · exact hn.descendant (List.mem_of_mem_filter hc)
  · exact hn.attributeNode (List.mem_of_mem_filter hc)

/-! Runs of steps -/

/-- What a run of steps finds is reached from one of the nodes it begins with. -/
theorem leads_of_mem_foldl {ss : List Step} {ns : List Node} {m : Node}
    (hm : m ∈ ss.foldl (fun ns s => s.selectAll ns) ns) : ∃ n ∈ ns, Leads ss n m := by
  induction ss generalizing ns with
  | nil => exact ⟨m, hm, .here m⟩
  | cons s ss ih =>
    -- back from the end: first the node that the first step found, then where it was found from
    obtain ⟨k, hk, hl⟩ := ih hm
    obtain ⟨n, hn, hkn⟩ := List.mem_flatMap.mp (s.selectAll_subset ns hk)
    exact ⟨n, hn, .step hkn hl⟩

theorem PathExpr.reaches_of_mem_evaluate {e : PathExpr} {n m : Node} (hm : m ∈ e.evaluate n) :
    e.Reaches n m := by
  have hin : m ∈ e.alternatives.flatMap (·.select n) := by
    unfold PathExpr.evaluate at hm
    split at hm
    · exact normalize_subset _ hm
    · exact hm
  obtain ⟨p, hp, hmp⟩ := List.mem_flatMap.mp hin
  obtain ⟨k, hk, hl⟩ := leads_of_mem_foldl hmp
  rw [List.mem_singleton] at hk
  rw [hk] at hl
  exact ⟨p, hp, hl⟩

/-- Sorting and merging drops none of the given nodes of a document. -/
def ParsedDocument.NoneDropped (d : ParsedDocument) : Prop :=
  ∀ ns : List Node, (∀ n ∈ ns, d.Holds n) → ∀ n ∈ ns, n ∈ Path.normalize ns

theorem ParsedDocument.KeysDistinct.noneDropped {d : ParsedDocument} (hd : d.StartsDistinct)
    (hk : d.KeysDistinct) : d.NoneDropped := by
  intro ns hns n hn
  refine (mem_normalize_iff ?_).mpr hn
  intro a ha b hb he
  exact eq_of_orderKey_eq hd hk (hns a ha) (hns b hb) he

theorem ParsedDocument.NoneDropped.mem_selectAll {d : ParsedDocument} (hd : d.NoneDropped)
    {s : Step} {ns : List Node} (hns : ∀ n ∈ ns, d.Holds n) {n m : Node} (hn : n ∈ ns)
    (hm : m ∈ s.select n) : m ∈ s.selectAll ns := by
  have hin : m ∈ ns.flatMap s.select := List.mem_flatMap.mpr ⟨n, hn, hm⟩
  unfold Step.selectAll
  split
  · refine hd _ ?_ m hin
    intro k hk
    obtain ⟨a, ha, hka⟩ := List.mem_flatMap.mp hk
    exact (hns a ha).select hka
  · exact hin

theorem ParsedDocument.Holds.selectAll {d : ParsedDocument} {ns : List Node}
    (hns : ∀ n ∈ ns, d.Holds n) {s : Step} : ∀ m ∈ s.selectAll ns, d.Holds m := by
  intro m hm
  obtain ⟨n, hn, hmn⟩ := List.mem_flatMap.mp (s.selectAll_subset ns hm)
  exact (hns n hn).select hmn

theorem ParsedDocument.Holds.foldl_selectAll {d : ParsedDocument} {ss : List Step} {ns : List Node}
    (hns : ∀ n ∈ ns, d.Holds n) : ∀ m ∈ ss.foldl (fun ns s => s.selectAll ns) ns, d.Holds m := by
  induction ss generalizing ns with
  | nil => exact hns
  | cons s ss ih => exact ih (Holds.selectAll hns)

theorem ParsedDocument.NoneDropped.mem_foldl {d : ParsedDocument} (hd : d.NoneDropped)
    {ss : List Step} {ns : List Node} (hns : ∀ n ∈ ns, d.Holds n) {n m : Node} (hn : n ∈ ns)
    (hl : Leads ss n m) : m ∈ ss.foldl (fun ns s => s.selectAll ns) ns := by
  -- along the chain its current node is among those found
  induction hl generalizing ns with
  | here n => exact hn
  | step hm _ ih => exact ih (Holds.selectAll hns) (hd.mem_selectAll hns hn hm)

theorem ParsedDocument.Holds.start {d : ParsedDocument} {n : Node} (hn : d.Holds n)
    (absolute : Bool) : d.Holds (if absolute then n.top else n) := by
  cases absolute with
  | false => exact hn
  | true =>
    rw [if_pos rfl, hn.top]
    exact .document

/-- Where nothing is dropped, all that an expression reaches is found. -/
theorem ParsedDocument.NoneDropped.mem_evaluate {d : ParsedDocument} (hd : d.NoneDropped)
    {e : PathExpr} {n m : Node} (hn : d.Holds n) (hr : e.Reaches n m) : m ∈ e.evaluate n := by
  obtain ⟨p, hp, hl⟩ := hr
  have hbegin (p : LocationPath) :
      ∀ k ∈ [if p.absolute then n.top else n], d.Holds k := by
    intro k hk
    rw [List.mem_singleton] at hk
    exact hk ▸ hn.start p.absolute
  have hin : m ∈ e.alternatives.flatMap (·.select n) :=
    List.mem_flatMap.mpr ⟨p, hp, hd.mem_foldl (hbegin p) (List.mem_singleton.mpr rfl) hl⟩
  unfold PathExpr.evaluate
  split
  · refine hd _ ?_ m hin
    intro k hk
    obtain ⟨q, -, hkq⟩ := List.mem_flatMap.mp hk
    exact Holds.foldl_selectAll (hbegin q) k hkq
  · exact hin

/-! What it takes for nothing to be dropped -/

/-- If the document can be kept beside each of its elements, and the attributes of each element
beside one another, then their keys differ. -/
theorem keysDistinct_of_kept {d : ParsedDocument}
    (hdoc : ∀ n ∈ d.elements, ∃ ns, n ∈ Path.normalize ns ∧ d.documentNode ∈ Path.normalize ns)
    (hattr : ∀ n ∈ d.elements, ∃ ns, ∀ a ∈ n.attributeNodes, a ∈ Path.normalize ns) :
    d.KeysDistinct := by
  constructor
  · intro n hn hz
    obtain ⟨ns, hin, hdin⟩ := hdoc n hn
    obtain ⟨e, above, rfl, -⟩ := ParsedDocument.mem_elements_iff.mp hn
    have hk : orderKey ⟨d, .element e above⟩ = orderKey d.documentNode := congrArg (·, none) hz
    have heq := eq_of_mem_normalize hin hdin hk
    simp [ParsedDocument.documentNode] at heq
  · intro n hn a ha b hb hname
    obtain ⟨ns, hin⟩ := hattr n hn
    obtain ⟨e, above, rfl, -⟩ := ParsedDocument.mem_elements_iff.mp hn
    have hka := hin _ (List.mem_map.mpr ⟨a, ha, rfl⟩)
    have hkb := hin _ (List.mem_map.mpr ⟨b, hb, rfl⟩)
    have heq := eq_of_mem_normalize hka hkb (by simp [hname])
    simpa using heq

theorem ParsedDocument.NoneDropped.keysDistinct {d : ParsedDocument} (hd : d.NoneDropped) :
    d.KeysDistinct := by
  refine keysDistinct_of_kept ?_ ?_
  · intro n hn
    have hns : ∀ k ∈ [n, d.documentNode], d.Holds k := by
      intro k hk
      rcases List.mem_pair.mp hk with rfl | rfl
      · exact .element hn
      · exact .document
    exact ⟨_, hd _ hns n (by simp), hd _ hns d.documentNode (by simp)⟩
  · -- the attributes of one element by themselves
    intro n hn
    exact ⟨_, hd n.attributeNodes fun a ha => .attributeOf hn ha⟩

theorem PathExpr.evaluate_of_alternatives {e : PathExpr} (he : 1 < e.alternatives.length)
    (n : Node) : e.evaluate n = Path.normalize (e.alternatives.flatMap (·.select n)) :=
  if_pos he

/-- Evaluation finds what accepted expressions reach from the nodes of a document. -/
def ParsedDocument.EvaluationComplete (d : ParsedDocument) : Prop :=
  ∀ text e, PathExpr.parse text = .ok e →
    ∀ n, d.Holds n → ∀ m, m ∈ e.evaluate n ↔ e.Reaches n m

theorem ParsedDocument.EvaluationComplete.keysDistinct {d : ParsedDocument}
    (hd : d.EvaluationComplete) : d.KeysDistinct := by
  refine keysDistinct_of_kept ?_ ?_
  · intro n hn
    -- the element itself and the document
    have hp : PathExpr.parse ". | /" =
        .ok ⟨". | /", [⟨false, [⟨.self, .any, []⟩]⟩, ⟨true, []⟩]⟩ := by
      rw [PathExpr.parse_ofList]
      with_unfolding_all rfl
    have hfound := hd _ _ hp n (.element hn)
    rw [PathExpr.evaluate_of_alternatives (by decide)] at hfound
    refine ⟨_, (hfound n).mpr ?_, (hfound d.documentNode).mpr ?_⟩
    · exact ⟨_, List.mem_cons_self, .step (List.mem_singleton.mpr rfl) (.here n)⟩
    · refine ⟨⟨true, []⟩, by simp, ?_⟩
      have htop := Holds.top (.element hn)
      rw [← htop]
      exact .here n.top
  · -- two alternatives, so that the attributes are sorted
    intro n hn
    have hp : PathExpr.parse "@* | @*" =
        .ok ⟨"@* | @*", [⟨false, [⟨.attribute, .any, []⟩]⟩, ⟨false, [⟨.attribute, .any, []⟩]⟩]⟩ := by
      rw [PathExpr.parse_ofList]
      with_unfolding_all rfl
    have hfound := hd _ _ hp n (.element hn)
    rw [PathExpr.evaluate_of_alternatives (by decide)] at hfound
    refine ⟨_, fun a ha => (hfound a).mpr ?_⟩
    have hsel : a ∈ Step.select ⟨.attribute, .any, []⟩ n := by
      simpa [Step.select, Step.candidates, NameTest.accepts] using ha
    exact ⟨_, List.mem_cons_self, .step hsel (.here a)⟩

/-- In a document whose elements start at different offsets, evaluation finds exactly what is
reached, and sorting drops no node, just when the keys of its nodes are distinct. -/
theorem evaluation_complete_iff_keysDistinct (d : ParsedDocument) (hd : d.StartsDistinct) :
    (d.EvaluationComplete ↔ d.KeysDistinct) ∧ (d.NoneDropped ↔ d.KeysDistinct) := by
  refine ⟨⟨fun h => h.keysDistinct, fun hk => ?_⟩, fun h => h.keysDistinct,
    fun hk => hk.noneDropped hd⟩
  intro text e _ n hn m
  exact ⟨PathExpr.reaches_of_mem_evaluate, fun hr => (hk.noneDropped hd).mem_evaluate hn hr⟩

/-- The text `<?xml version='1.0'?><a p='1'><b/></a>`, whose root element starts behind the
declaration. -/
def rootBehindDeclaration : ParsedDocument :=
  ⟨⟨⟨⟨21, "a", [⟨"p", none, "1"⟩], []⟩, [.element ⟨30, "b", [], []⟩ []]⟩, []⟩, ⟨#[0]⟩⟩

theorem evaluation_complete_behind_declaration :
    (Source.ofText "doc.xml" "<?xml version='1.0'?><a p='1'><b/></a>").parse =
        .ok rootBehindDeclaration ∧
      rootBehindDeclaration.StartsDistinct ∧ rootBehindDeclaration.EvaluationComplete ∧
      rootBehindDeclaration.NoneDropped := by
  have he : rootBehindDeclaration.elements = [rootBehindDeclaration.rootNode,
      ⟨rootBehindDeclaration, .element ⟨⟨30, "b", [], []⟩, []⟩
        [rootBehindDeclaration.tree.root]⟩] := rfl
  have hd : rootBehindDeclaration.StartsDistinct := by
    rw [ParsedDocument.StartsDistinct, he]
    decide
  have hk : rootBehindDeclaration.KeysDistinct := by
    constructor
    · rw [he]
      decide
    · intro n hn a ha b hb _
      rw [he] at hn
      rcases List.mem_pair.mp hn with rfl | rfl
      · exact (List.mem_singleton.mp ha).trans (List.mem_singleton.mp hb).symm
      · exact absurd ha List.not_mem_nil
  have h := evaluation_complete_iff_keysDistinct rootBehindDeclaration hd
  refine ⟨?_, hd, h.1.mpr hk, h.2.mpr hk⟩
  rw [Source.parse_ofList]
  with_unfolding_all rfl

/-- The text `<a><b/></a>`, whose root element starts where the document does. -/
def rootAtStart : ParsedDocument :=
  ⟨⟨⟨⟨0, "a", [], []⟩, [.element ⟨3, "b", [], []⟩ []]⟩, []⟩, ⟨#[0]⟩⟩

/-- The root element is reached as the parent of its child, but the document, which is reached as
the parent of the root element, takes its place. -/
theorem root_dropped_beside_document :
    (Source.ofText "doc.xml" "<a><b/></a>").parse = .ok rootAtStart ∧
      rootAtStart.StartsDistinct ∧ rootAtStart.Holds rootAtStart.rootNode ∧
      ∃ e, PathExpr.parse "//*/.." = .ok e ∧ e.Reaches rootAtStart.rootNode rootAtStart.rootNode ∧
        rootAtStart.rootNode ∉ e.evaluate rootAtStart.rootNode := by
  have he : rootAtStart.elements = [rootAtStart.rootNode,
      ⟨rootAtStart, .element ⟨⟨3, "b", [], []⟩, []⟩ [rootAtStart.tree.root]⟩] := rfl
  refine ⟨?_, ?_, .element rootAtStart.rootNode_mem_elements,
    ⟨"//*/..", [⟨true, [⟨.descendant, .any, []⟩, ⟨.parent, .any, []⟩]⟩]⟩, ?_, ?_, ?_⟩
  · rw [Source.parse_ofList]
    with_unfolding_all rfl
  · rw [ParsedDocument.StartsDistinct, he]
    decide
  · rw [PathExpr.parse_ofList]
    with_unfolding_all rfl
  · refine ⟨_, List.mem_singleton.mpr rfl,
      .step (m := ⟨rootAtStart, .element ⟨⟨3, "b", [], []⟩, []⟩ [rootAtStart.tree.root]⟩) ?_
        (.step (List.mem_singleton.mpr rfl) (.here _))⟩
    exact List.mem_cons_of_mem _ List.mem_cons_self
  · intro hr
    change _ ∈ Path.normalize [rootAtStart.documentNode, rootAtStart.rootNode] ++ [] at hr
    rw [List.append_nil, Path.normalize, List.mergeSort_of_pairwise (by decide)] at hr
    change _ ∈ [rootAtStart.documentNode] at hr
    have hplace := congrArg Node.place (List.mem_singleton.mp hr)
    exact Place.noConfusion hplace

end TransitAudit
