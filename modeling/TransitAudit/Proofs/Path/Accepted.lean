import TransitAudit.Proofs.Path.Grammar
import TransitAudit.Proofs.Path.Reach

/-! What is accepted as a path expression. The steps `.`, `..` and those to attributes are bare, a
relative path does not begin with two slashes, and positions count from 1. A step to attributes
need not be the last one; a path that goes on inward from there selects nothing at all. -/
namespace TransitAudit

open TransitAudit.Path Text

/-! Paths that go on from attributes -/

namespace Path

section Attributes

variable {s : Step} {ns : List Node}

/-- Whether the step goes inward from an element: to children, to descendants or to attributes. -/
def Step.Enters (s : Step) : Prop :=
  s.axis ≠ .self ∧ s.axis ≠ .parent

/-- Behind a step to attributes, and perhaps dots, comes a step that goes inward. -/
def LocationPath.EntersAttribute (path : LocationPath) : Prop :=
  ∃ before a dots s after, path.steps = before ++ a :: (dots ++ s :: after) ∧
    a.axis = .attribute ∧ (∀ dot ∈ dots, dot.axis = .self) ∧ s.Enters

theorem Step.selectAll_nil (s : Step) : s.selectAll [] = [] :=
  rfl

theorem foldl_selectAll_nil (ss : List Step) :
    ss.foldl (fun ns s => s.selectAll ns) [] = [] := by
  induction ss with
  | nil => rfl
  | cons s ss ih => rw [List.foldl_cons, Step.selectAll_nil, ih]

theorem Step.mem_selectAll {m : Node} (h : m ∈ s.selectAll ns) :
    ∃ n ∈ ns, m ∈ s.candidates n := by
  obtain ⟨n, hn, hm⟩ := List.mem_flatMap.mp (s.selectAll_subset ns h)
  exact ⟨n, hn, (s.select_sublist n).subset hm⟩

theorem isAttribute_of_mem_attributeNodes {n m : Node} (h : m ∈ n.attributeNodes) :
    m.isAttribute = true := by
  unfold Node.attributeNodes at h
  split at h
  · obtain ⟨a, -, rfl⟩ := List.mem_map.mp h
    rfl
  · cases h

/-- A step to attributes finds nothing else. -/
theorem Step.forall_isAttribute_selectAll (hs : s.axis = .attribute) (ns : List Node) :
    ∀ m ∈ s.selectAll ns, m.isAttribute = true := by
  intro m hm
  obtain ⟨n, -, hm⟩ := mem_selectAll hm
  rw [Step.candidates, hs] at hm
  exact isAttribute_of_mem_attributeNodes (List.mem_of_mem_filter hm)

theorem forall_isAttribute_dots {dots : List Step} (hdots : ∀ dot ∈ dots, dot.axis = .self)
    (hns : ∀ n ∈ ns, n.isAttribute = true) :
    ∀ m ∈ dots.foldl (fun ns s => s.selectAll ns) ns, m.isAttribute = true := by
  induction dots generalizing ns with
  | nil => exact hns
  | cons dot dots ih =>
    obtain ⟨hdot, hdots⟩ := List.forall_mem_cons.mp hdots
    apply ih hdots
    intro m hm
    obtain ⟨n, hn, hm⟩ := Step.mem_selectAll hm
    rw [Step.candidates, hdot] at hm
    obtain rfl := List.mem_singleton.mp hm
    exact hns m hn

/-- Nothing is inside an attribute. -/
theorem Step.candidates_of_isAttribute (hs : s.Enters) {n : Node} (hn : n.isAttribute = true) :
    s.candidates n = [] := by
  obtain ⟨d, _ | _ | _⟩ := n
  · cases hn
  · cases hn
  · unfold Step.candidates
    cases haxis : s.axis
    · rfl
    · rfl
    · exact absurd haxis hs.1
    · exact absurd haxis hs.2
    · rfl

theorem Step.selectAll_of_isAttribute (hs : s.Enters) (hns : ∀ n ∈ ns, n.isAttribute = true) :
    s.selectAll ns = [] := by
  rw [List.eq_nil_iff_forall_not_mem]
  intro m hm
  obtain ⟨n, hn, hm⟩ := mem_selectAll hm
  rw [candidates_of_isAttribute hs (hns n hn)] at hm
  cases hm

theorem LocationPath.EntersAttribute.select_eq_nil {path : LocationPath}
    (h : path.EntersAttribute) (n : Node) : path.select n = [] := by
  obtain ⟨before, a, dots, s, after, hsteps, ha, hdots, hs⟩ := h
  rw [LocationPath.select, hsteps, List.foldl_append, List.foldl_cons, List.foldl_append,
    List.foldl_cons]
  rw [Step.selectAll_of_isAttribute hs
    (forall_isAttribute_dots hdots (Step.forall_isAttribute_selectAll ha _))]
  exact foldl_selectAll_nil after

end Attributes

/-! What is accepted -/

/-- Without a name there are no predicates, and positions count from 1. -/
structure Step.Proper (s : Step) : Prop where
  bare : s.axis = .self ∨ s.axis = .parent ∨ s.axis = .attribute → s.predicates = []
  positions : ∀ number, .position number ∈ s.predicates → 1 ≤ number

structure LocationPath.Proper (path : LocationPath) : Prop where
  steps : ∀ s ∈ path.steps, s.Proper
  /-- Two slashes do not begin a relative path. -/
  first : ∀ s rest, path.absolute = false → path.steps = s :: rest → s.axis ≠ .descendant
  /-- Only the root has no steps. -/
  root : path.steps = [] → path.absolute = true

theorem PredicateForm.one_le_position {cs : List Char} {number : Nat}
    (h : PredicateForm cs (.position number)) : 1 ≤ number := by
  cases h with
  | attr _ hrest => cases hrest
  | position _ _ hpos _ => exact hpos

theorem StepForm.proper {descendant : Bool} {raw : List Char} {s : Step}
    (h : StepForm descendant raw s) : s.Proper := by
  cases h with
  | self _ | parent _ | attr _ _ => exact ⟨fun _ => rfl, by simp⟩
  | named _ _ hgroups _ =>
    constructor
    · intro haxis
      cases descendant <;> simp at haxis
    · intro number hmem
      obtain ⟨g, -, hg⟩ := exists_of_mem_forall₂ hgroups.flip hmem
      exact hg.inner.one_le_position

theorem StepForm.axis_eq_descendant_iff {descendant : Bool} {raw : List Char} {s : Step}
    (h : StepForm descendant raw s) : s.axis = .descendant ↔ descendant = true := by
  cases h with
  | self _ | parent _ | attr _ _ => simp
  | named _ _ _ _ => cases descendant <;> simp

theorem StepsForm.proper {parts : List (Part Bool)} {steps : List Step}
    (h : StepsForm parts steps) : ∀ s ∈ steps, s.Proper := by
  intro s hs
  obtain ⟨part, -, hpart⟩ := exists_of_mem_forall₂ h.flip hs
  exact StepForm.proper hpart

theorem PathForm.proper {cs : List Char} {path : LocationPath} (h : PathForm cs path) :
    path.Proper := by
  cases h with
  | root _ => exact ⟨by simp, by simp, fun _ => rfl⟩
  | absolute _ _ hsteps => exact ⟨hsteps.proper, by simp, fun _ => rfl⟩
  | relative hsteps =>
    have hproper := hsteps.proper
    rcases hsteps with _ | ⟨hfirst, -⟩
    refine ⟨hproper, ?_, by simp⟩
    rintro s rest - hcons
    obtain ⟨rfl, -⟩ := List.cons.inj hcons
    rw [ne_eq, hfirst.axis_eq_descendant_iff]
    exact Bool.false_ne_true

end Path

theorem PathExpr.parse_eq_ok_iff_form {text : String} {e : PathExpr} :
    PathExpr.parse text = .ok e ↔
      e.source = text ∧ ExpressionForm text.toList e.alternatives := by
  rw [PathExpr.parse_eq_ok_iff, readAlternatives_eq_ok_iff_form]

theorem PathExpr.exists_of_parse_eq_error {text : String} {error : NodeError}
    (h : PathExpr.parse text = .error error) :
    ∃ reason, error = .invalidPath text reason := by
  unfold PathExpr.parse at h
  split at h
  · cases h
  · cases h
    exact ⟨_, rfl⟩

/-- A text is accepted just when it has the form of an expression, and rejected with the text
itself. Its paths are proper; if one of them goes on inward from attributes, it selects nothing. -/
theorem accepted_expressions_have_form (text : String) :
    (∀ e, PathExpr.parse text = .ok e ↔
      e.source = text ∧ ExpressionForm text.toList e.alternatives) ∧
    (∀ e, PathExpr.parse text = .ok e → ∀ path ∈ e.alternatives,
      path.Proper ∧ (path.EntersAttribute → ∀ n, path.select n = [])) ∧
    ∀ error, PathExpr.parse text = .error error → ∃ reason, error = .invalidPath text reason := by
  refine ⟨fun e => PathExpr.parse_eq_ok_iff_form, ?_, fun _ => PathExpr.exists_of_parse_eq_error⟩
  intro e he path hpath
  obtain ⟨-, part, parts, -, hforms⟩ := PathExpr.parse_eq_ok_iff_form.mp he
  obtain ⟨part, -, hform⟩ := exists_of_mem_forall₂ hforms.flip hpath
  exact ⟨PathForm.proper hform, fun h n => h.select_eq_nil n⟩

/-- A step to attributes that is not the last one is accepted. -/
theorem attribute_step_before_child : ∃ e, PathExpr.parse "@a/b" = .ok e ∧
    ∃ path ∈ e.alternatives, ∃ before s after, path.steps = before ++ s :: after ∧
      s.axis = .attribute ∧ after ≠ [] := by
  refine ⟨⟨"@a/b", [⟨false, [⟨.attribute, .named "a", []⟩, ⟨.child, .named "b", []⟩]⟩]⟩, ?_, _,
    List.mem_singleton_self _, [], _, _, rfl, rfl, by simp⟩
  rw [PathExpr.parse_ofList]
  decide +kernel

end TransitAudit
