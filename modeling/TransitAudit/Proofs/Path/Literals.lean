import TransitAudit.Path.Syntax

/-! The literals of a path expression, and the expression with others in their place. -/
namespace TransitAudit.Path

/-- A predicate with another literal. -/
def Predicate.mapLiteral (f : String → String) : Predicate → Predicate
  | .attributeIs t v => .attributeIs t (f v)
  | .attributeIsNot t v => .attributeIsNot t (f v)
  | .childIs t v => .childIs t (f v)
  | .nameContains part => .nameContains (f part)
  | p => p

def Predicate.literals : Predicate → List String
  | .attributeIs _ v => [v]
  | .attributeIsNot _ v => [v]
  | .childIs _ v => [v]
  | .nameContains part => [part]
  | _ => []

def Step.mapLiterals (f : String → String) (s : Step) : Step :=
  { s with predicates := s.predicates.map (·.mapLiteral f) }

def Step.literals (s : Step) : List String :=
  s.predicates.flatMap (·.literals)

def LocationPath.mapLiterals (f : String → String) (p : LocationPath) : LocationPath :=
  { p with steps := p.steps.map (·.mapLiterals f) }

def LocationPath.literals (p : LocationPath) : List String :=
  p.steps.flatMap (·.literals)

/-- A predicate without what its literal holds. -/
def Predicate.outline (p : Predicate) : Predicate :=
  p.mapLiteral fun _ => ""

def Step.outline (s : Step) : Step :=
  s.mapLiterals fun _ => ""

def LocationPath.outline (p : LocationPath) : LocationPath :=
  p.mapLiterals fun _ => ""

variable {f : String → String}

theorem Predicate.mapLiteral_eq_self_iff (p : Predicate) :
    p.mapLiteral f = p ↔ ∀ v ∈ p.literals, f v = v := by
  cases p <;> simp [mapLiteral, literals]

/-- A list stays as it is if the literals of all its members do. -/
theorem map_eq_self_iff_literals {α : Type} {g : α → α} {literals : α → List String}
    (hg : ∀ a, g a = a ↔ ∀ v ∈ literals a, f v = v) (as : List α) :
    as.map g = as ↔ ∀ v ∈ as.flatMap literals, f v = v := by
  have hid : as.map g = as ↔ as.map g = as.map id := by rw [List.map_id]
  rw [hid, List.map_inj_left]
  simp only [id, hg, List.mem_flatMap]
  constructor
  · rintro h v ⟨a, ha, hv⟩
    exact h a ha v hv
  · intro h a ha v hv
    exact h v ⟨a, ha, hv⟩

theorem Step.mapLiterals_eq_self_iff (s : Step) :
    s.mapLiterals f = s ↔ ∀ v ∈ s.literals, f v = v := by
  rw [literals, ← map_eq_self_iff_literals Predicate.mapLiteral_eq_self_iff]
  constructor
  · exact congrArg Step.predicates
  · intro h
    rw [mapLiterals, h]

theorem LocationPath.mapLiterals_eq_self_iff (p : LocationPath) :
    p.mapLiterals f = p ↔ ∀ v ∈ p.literals, f v = v := by
  rw [literals, ← map_eq_self_iff_literals Step.mapLiterals_eq_self_iff]
  constructor
  · exact congrArg LocationPath.steps
  · intro h
    rw [mapLiterals, h]

end TransitAudit.Path

namespace TransitAudit

def PathExpr.literals (e : PathExpr) : List String :=
  e.alternatives.flatMap (·.literals)

end TransitAudit
