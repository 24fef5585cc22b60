import TransitAudit.Proofs.Document.Nodes
import TransitAudit.Proofs.Document.Reading
import TransitAudit.Proofs.Path.Order
import TransitAudit.Proofs.Path.StepText

/-! Steps behind two slashes. Such a step looks at all elements inside a node as one list, and its
predicates count positions in that list. Filters do not notice: with them the step selects what
child steps select from the node and from every element inside it. Positions do, unless all elements
that the step names have one parent. -/
namespace TransitAudit

open Xml

/-! What is inside a node, parent by parent -/

mutual

/-- The elements inside some content are those at its top and the children of those inside it. -/
theorem placesIn_perm_children (d : ParsedDocument) (above : List Element) :
    ∀ cs : List Content, ((placesIn above cs).map (Node.mk d)).Perm
      ((cs.filterMap Element.ofContent?).map (fun e => ⟨d, .element e above⟩) ++
        ((placesIn above cs).map (Node.mk d)).flatMap Node.children)
  | [] => by simp [placesIn]
  | c :: cs => by
    have hc := placesOf_perm_children d above c
    have hcs := placesIn_perm_children d above cs
    rw [placesIn, List.map_append, List.flatMap_append]
    have htop : ((c :: cs).filterMap Element.ofContent?).map
          (fun e => (⟨d, .element e above⟩ : Node)) =
        (Element.ofContent? c).toList.map (fun e => ⟨d, .element e above⟩) ++
          (cs.filterMap Element.ofContent?).map (fun e => ⟨d, .element e above⟩) := by
      cases h : Element.ofContent? c <;> simp [h]
    rw [htop]
    -- the tops of the two parts come together, and so do their children
    refine (hc.append hcs).trans ?_
    rw [List.append_assoc, List.append_assoc]
    exact (List.perm_append_comm_assoc _ _ _).append_left _

theorem placesOf_perm_children (d : ParsedDocument) (above : List Element) :
    ∀ c : Content, ((placesOf above c).map (Node.mk d)).Perm
      ((Element.ofContent? c).toList.map (fun e => ⟨d, .element e above⟩) ++
        ((placesOf above c).map (Node.mk d)).flatMap Node.children)
  | .text _ => by simp [placesOf, Element.ofContent?]
  | .element tag content => by
    have hin := placesIn_perm_children d (⟨tag, content⟩ :: above) content
    rw [placesOf, List.map_cons, List.flatMap_cons]
    exact hin.cons _

end

theorem Node.descendants_perm_children (n : Node) :
    n.descendants.Perm ((n :: n.descendants).flatMap Node.children) := by
  rcases n with ⟨d, _ | ⟨e, above⟩ | ⟨a, owner, above⟩⟩
  · exact placesIn_perm_children d [] d.tree.content
  · have h := placesIn_perm_children d (e :: above) e.content
    have htop : (e.content.filterMap Element.ofContent?).map
          (fun c => (⟨d, .element c (e :: above)⟩ : Node)) =
        Node.children ⟨d, .element e above⟩ := rfl
    rw [htop] at h
    exact h
  · exact .refl _

theorem Node.descendants_sublist_of_mem {n m : Node} (hm : m ∈ n :: n.descendants) :
    m.descendants.Sublist n.descendants := by
  rcases List.mem_cons.mp hm with rfl | hm
  · exact .refl _
  · -- the places below a place stand in one piece among the others
    have hinside (d : ParsedDocument) (base : List Element) (cs : List Content)
        (hm : m ∈ (placesIn base cs).map (Node.mk d)) :
        m.descendants.Sublist ((placesIn base cs).map (Node.mk d)) := by
      obtain ⟨p, hp, rfl⟩ := List.mem_map.mp hm
      obtain ⟨e, above, rfl⟩ := exists_element_of_mem_placesIn _ _ hp
      exact (placesIn_below base cs hp).map _
    rcases n with ⟨d, _ | ⟨e, above⟩ | ⟨a, owner, above⟩⟩
    · exact hinside d [] d.tree.content hm
    · exact hinside d (e :: above) e.content hm
    · exact absurd hm List.not_mem_nil

namespace Path

/-! Predicates -/

/-- Whether a predicate counts positions. -/
def Predicate.counts : Predicate → Bool
  | .position _ => true
  | .last => true
  | _ => false

theorem Predicate.filter_of_not_counts {p : Predicate} (hp : p.counts = false) (ns : List Node) :
    p.filter ns = ns.filter p.holds := by
  cases p <;> first | rfl | simp [counts] at hp

theorem foldl_filter_of_not_counts {ps : List Predicate} (hps : ∀ p ∈ ps, p.counts = false)
    (ns : List Node) :
    ps.foldl (fun ns p => p.filter ns) ns = ns.filter fun n => ps.all (·.holds n) := by
  induction ps generalizing ns with
  | nil => simp
  | cons p ps ih =>
    rw [List.foldl_cons, ih fun q hq => hps q (List.mem_cons_of_mem _ hq),
      p.filter_of_not_counts (hps p List.mem_cons_self), List.filter_filter]
    simp [Bool.and_comm]

/-! Steps to children and steps behind two slashes -/

/-- The child step with the same test and predicates. -/
def Step.toChild (s : Step) : Step :=
  { s with axis := .child }

/-- What the child step with the same test and predicates selects from the node and from each
element inside it. -/
def Step.selectInside (s : Step) (n : Node) : List Node :=
  (n :: n.descendants).flatMap s.toChild.select

/-- The node and the elements inside it that have a child with a name that passes the test. -/
def NameTest.parentsInside (t : NameTest) (n : Node) : List Node :=
  (n :: n.descendants).filter fun m => m.children.any fun c => t.accepts c.name

variable {t : NameTest} {ps : List Predicate} {n m : Node}

theorem candidates_perm (t : NameTest) (ps : List Predicate) (n : Node) :
    (Step.candidates ⟨.descendant, t, ps⟩ n).Perm
      ((n :: n.descendants).flatMap (Step.candidates ⟨.child, t, ps⟩)) := by
  have h := n.descendants_perm_children.filter fun m => t.accepts m.name
  rw [List.filter_flatMap] at h
  exact h

/-- Filters may be applied to all elements together or to the children of each. -/
theorem select_perm_of_not_counts (hps : ∀ p ∈ ps, p.counts = false) (n : Node) :
    (Step.select ⟨.descendant, t, ps⟩ n).Perm (Step.selectInside ⟨.descendant, t, ps⟩ n) := by
  -- filters one after another are one filter, on either axis
  have hselect (axis : Axis) : Step.select ⟨axis, t, ps⟩ = fun m =>
      (Step.candidates ⟨axis, t, ps⟩ m).filter fun m => ps.all (·.holds m) :=
    funext fun m => foldl_filter_of_not_counts hps _
  have h := (candidates_perm t ps n).filter fun m => ps.all (·.holds m)
  rw [List.filter_flatMap] at h
  rw [Step.selectInside, Step.toChild, hselect, hselect]
  exact h

/-! One parent -/

theorem select_child_eq_nil (hm : m.children.any (fun c => t.accepts c.name) = false) :
    Step.select ⟨.child, t, ps⟩ m = [] := by
  have hnone : Step.candidates ⟨.child, t, ps⟩ m = [] := by
    rw [List.any_eq_false] at hm
    exact List.filter_eq_nil_iff.mpr hm
  have hsub := Step.select_sublist ⟨.child, t, ps⟩ m
  rw [hnone] at hsub
  exact List.sublist_nil.mp hsub

theorem flatMap_filter_of_eq_nil {α β : Type} {f : α → List β} {p : α → Bool}
    (h : ∀ a, p a = false → f a = []) (as : List α) : (as.filter p).flatMap f = as.flatMap f := by
  induction as with
  | nil => rfl
  | cons a as ih =>
    cases hp : p a with
    | true => simp [hp, ih]
    | false => simp [hp, ih, h a hp]

/-- Only the parents of elements that are named contribute anything. -/
theorem flatMap_parentsInside (t : NameTest) (ps : List Predicate) (n : Node) :
    (t.parentsInside n).flatMap (Step.select ⟨.child, t, ps⟩) =
      Step.selectInside ⟨.descendant, t, ps⟩ n :=
  flatMap_filter_of_eq_nil (fun _ hm => select_child_eq_nil hm) _

theorem candidates_perm_parentsInside (t : NameTest) (ps : List Predicate) (n : Node) :
    (Step.candidates ⟨.descendant, t, ps⟩ n).Perm
      ((t.parentsInside n).flatMap (Step.candidates ⟨.child, t, ps⟩)) := by
  have hall := flatMap_parentsInside t [] n
  change List.flatMap (Step.candidates ⟨.child, t, ps⟩) _ =
    List.flatMap (Step.candidates ⟨.child, t, ps⟩) _ at hall
  rw [hall]
  exact candidates_perm t ps n

/-- With a single parent, its children are all the elements with the name. -/
theorem candidates_eq_of_parentsInside (ps : List Predicate) (hn : t.parentsInside n = [m]) :
    Step.candidates ⟨.descendant, t, ps⟩ n = Step.candidates ⟨.child, t, ps⟩ m := by
  have hm : m ∈ n :: n.descendants := by
    have hin : m ∈ t.parentsInside n := hn ▸ List.mem_singleton.mpr rfl
    exact List.mem_of_mem_filter hin
  have hsub : (Step.candidates ⟨.child, t, ps⟩ m).Sublist
      (Step.candidates ⟨.descendant, t, ps⟩ n) :=
    (m.children_sublist_descendants.trans (Node.descendants_sublist_of_mem hm)).filter _
  have hperm := candidates_perm_parentsInside t ps n
  rw [hn, List.flatMap_singleton] at hperm
  exact (hsub.eq_of_length hperm.length_eq.symm).symm

theorem select_perm_of_parentsInside (hn : (t.parentsInside n).length ≤ 1)
    (ps : List Predicate) :
    (Step.select ⟨.descendant, t, ps⟩ n).Perm (Step.selectInside ⟨.descendant, t, ps⟩ n) := by
  rw [← flatMap_parentsInside t ps n]
  -- no parent, or one whose children are all the candidates
  match hp : t.parentsInside n with
  | [] =>
    have hperm := candidates_perm_parentsInside t ps n
    rw [hp] at hperm
    have hsub := Step.select_sublist ⟨.descendant, t, ps⟩ n
    rw [hperm.eq_nil] at hsub
    rw [List.sublist_nil.mp hsub]
    exact .refl _
  | [m] =>
    rw [List.flatMap_singleton, Step.select, candidates_eq_of_parentsInside ps hp]
    exact .refl _
  | _ :: _ :: _ => simp [hp] at hn

/-- The first element of each parent is selected by the child steps. -/
theorem length_selectInside_first (t : NameTest) (n : Node) :
    (Step.selectInside ⟨.descendant, t, [.position 1]⟩ n).length = (t.parentsInside n).length := by
  rw [← flatMap_parentsInside, List.length_flatMap]
  have hone : ∀ m ∈ t.parentsInside n,
      (Step.select ⟨.child, t, [.position 1]⟩ m).length = 1 := by
    intro m hm
    obtain ⟨c, hc, hname⟩ := List.any_eq_true.mp (List.mem_filter.mp hm).2
    have hin : c ∈ m.children.filter fun c => t.accepts c.name := List.mem_filter.mpr ⟨hc, hname⟩
    change (Predicate.filter (.position 1) (m.children.filter fun c => t.accepts c.name)).length = 1
    cases hl : m.children.filter (fun c => t.accepts c.name) with
    | nil => simp [hl] at hin
    | cons a as => rfl
  rw [List.map_congr_left hone]
  simp

theorem length_select_first_le (t : NameTest) (n : Node) :
    (Step.select ⟨.descendant, t, [.position 1]⟩ n).length ≤ 1 := by
  change (Predicate.filter (.position 1) (Step.candidates ⟨.descendant, t, [.position 1]⟩ n)).length ≤ 1
  rw [Predicate.filter]
  exact Option.length_toList_le

theorem select_perm_iff_parentsInside (t : NameTest) (n : Node) :
    (∀ ps, (Step.select ⟨.descendant, t, ps⟩ n).Perm
      (Step.selectInside ⟨.descendant, t, ps⟩ n)) ↔ (t.parentsInside n).length ≤ 1 := by
  constructor
  · intro h
    rw [← length_selectInside_first, ← (h [.position 1]).length_eq]
    exact length_select_first_le t n
  · intro h ps
    exact select_perm_of_parentsInside h ps

/-! Reading such steps -/

/-- Behind two slashes only a name with its predicates is read, and behind one slash the same text
is read as a child step. -/
theorem readStep_false_of_readStep_true {raw : List Char} {s : Step}
    (h : readStep true raw = .ok s) :
    s = ⟨.descendant, s.test, s.predicates⟩ ∧ readStep false raw = .ok s.toChild := by
  rcases readStep_eq_ok_iff.mp h with
    ⟨-, hfalse, -⟩ | ⟨-, hfalse, -⟩ | ⟨-, -, -, -, hfalse, -⟩ | ⟨test, ps, htest, hps, rfl⟩
  · cases hfalse
  · cases hfalse
  · cases hfalse
  · refine ⟨rfl, readStep_eq_ok_iff.mpr ?_⟩
    exact .inr (.inr (.inr ⟨test, ps, htest, hps, rfl⟩))

/-- What is read behind two slashes selects what the child step selects from the node and all
elements inside it, as long as no predicate counts positions. With any predicates it does so
exactly if all elements that its name test accepts have one parent. -/
theorem descendant_step_selects_children (raw : List Char) (s : Step)
    (hs : readStep true raw = .ok s) (n : Node) :
    readStep false raw = .ok s.toChild ∧
      ((∀ p ∈ s.predicates, p.counts = false) →
        (s.select n).Perm ((n :: n.descendants).flatMap s.toChild.select)) ∧
      ((∀ ps, (Step.select { s with predicates := ps } n).Perm
          ((n :: n.descendants).flatMap (Step.select { s.toChild with predicates := ps }))) ↔
        (s.test.parentsInside n).length ≤ 1) := by
  obtain ⟨hform, hchild⟩ := readStep_false_of_readStep_true hs
  refine ⟨hchild, ?_, ?_⟩
  · intro hps
    have h := select_perm_of_not_counts (t := s.test) hps n
    rw [← hform] at h
    exact h
  · have h := select_perm_iff_parentsInside s.test n
    rw [hform]
    exact h

end Path

open TransitAudit.Path

/-- The text `<r><x><t i='1'/></x><y><t i='2'/></y></r>`, where two elements have different
parents. -/
def twoParents : ParsedDocument :=
  ⟨⟨⟨⟨0, "r", [], []⟩,
    [.element ⟨3, "x", [], []⟩ [.element ⟨6, "t", [⟨"i", none, "1"⟩], []⟩ []],
      .element ⟨20, "y", [], []⟩ [.element ⟨23, "t", [⟨"i", none, "2"⟩], []⟩ []]]⟩, []⟩, ⟨#[0]⟩⟩

theorem twoParents_of_parse :
    (Source.ofText "doc.xml" "<r><x><t i='1'/></x><y><t i='2'/></y></r>").parse =
      .ok twoParents := by
  rw [Source.parse_ofList]
  with_unfolding_all rfl

/-- With a filter the elements of both parents are selected. -/
theorem descendant_step_selects_filtered_children :
    (Step.select ⟨.descendant, .named "t", [.hasAttribute (.named "i")]⟩
      twoParents.rootNode).Perm
        ((twoParents.rootNode :: twoParents.rootNode.descendants).flatMap
          (Step.select ⟨.child, .named "t", [.hasAttribute (.named "i")]⟩)) := by
  have hread : readStep true "t[@i]".toList =
      .ok ⟨.descendant, .named "t", [.hasAttribute (.named "i")]⟩ := by
    with_unfolding_all rfl
  have h := descendant_step_selects_children _ _ hread twoParents.rootNode
  exact h.2.1 (by simp [Predicate.counts])

/-- The first element of the second parent is the first one there, but not the first inside the
root element. -/
theorem second_first_child_missed :
    (Source.ofText "doc.xml" "<r><x><t i='1'/></x><y><t i='2'/></y></r>").parse =
        .ok twoParents ∧ twoParents.Holds twoParents.rootNode ∧
      ∃ s, readStep true "t[1]".toList = .ok s ∧
        ∃ m ∈ (twoParents.rootNode :: twoParents.rootNode.descendants).flatMap s.toChild.select,
          m ∉ s.select twoParents.rootNode ∧
          ∃ e, PathExpr.parse ".//t[1]" = .ok e ∧ m ∉ e.evaluate twoParents.rootNode := by
  have hfirst : Step.select ⟨.descendant, .named "t", [.position 1]⟩ twoParents.rootNode =
      [⟨twoParents, .element ⟨⟨6, "t", [⟨"i", none, "1"⟩], []⟩, []⟩
        [⟨⟨3, "x", [], []⟩, [.element ⟨6, "t", [⟨"i", none, "1"⟩], []⟩ []]⟩,
          twoParents.tree.root]⟩] := rfl
  have hother (m : Node) (hm : m.start = 23) :
      m ∉ Step.select ⟨.descendant, .named "t", [.position 1]⟩ twoParents.rootNode := by
    rw [hfirst, List.mem_singleton]
    rintro rfl
    exact absurd hm (by decide)
  refine ⟨twoParents_of_parse, .element twoParents.rootNode_mem_elements,
    ⟨.descendant, .named "t", [.position 1]⟩, ?_, ?_⟩
  · with_unfolding_all rfl
  · refine ⟨⟨twoParents, .element ⟨⟨23, "t", [⟨"i", none, "2"⟩], []⟩, []⟩
      [⟨⟨20, "y", [], []⟩, [.element ⟨23, "t", [⟨"i", none, "2"⟩], []⟩ []]⟩,
        twoParents.tree.root]⟩, ?_, hother _ rfl,
      ⟨".//t[1]", [⟨false, [⟨.self, .any, []⟩, ⟨.descendant, .named "t", [.position 1]⟩]⟩]⟩, ?_, ?_⟩
    · exact List.mem_cons_of_mem _ List.mem_cons_self
    · rw [PathExpr.parse_ofList]
      with_unfolding_all rfl
    · exact hother _ rfl

end TransitAudit
