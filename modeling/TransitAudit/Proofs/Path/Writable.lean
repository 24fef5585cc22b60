import TransitAudit.Path.Print
import TransitAudit.Proofs.Path.Literals
import TransitAudit.Proofs.Path.PredicateText

/-! What a text can say. Every part that is read from a text can be written: names are plain, some
kind of quote is missing in each literal, positions are machine words, and a step without a name
stands behind at most one slash. -/
namespace TransitAudit.Path

open Text

/-- A test whose name can be written. -/
def NameTest.Writable : NameTest → Prop
  | .any => True
  | .named name => isPlainName name.toList = true

/-- A text that quotes of one kind can enclose. -/
def Quotable (text : String) : Prop :=
  ∃ q, isQuote q = true ∧ q ∉ text.toList

inductive Predicate.Writable : Predicate → Prop
  | hasAttribute {t : NameTest} (ht : t.Writable) : Writable (.hasAttribute t)
  | attributeIs {t : NameTest} {v : String} (ht : t.Writable) (hv : Quotable v) :
    Writable (.attributeIs t v)
  | attributeIsNot {t : NameTest} {v : String} (ht : t.Writable) (hv : Quotable v) :
    Writable (.attributeIsNot t v)
  | childIs {name v : String} (hname : (NameTest.named name).Writable) (hv : Quotable v) :
    Writable (.childIs (.named name) v)
  | nameContains {part : String} (hpart : Quotable part) : Writable (.nameContains part)
  | position {number : Nat} (hpos : 0 < number) (hlimit : number < positionLimit) :
    Writable (.position number)
  | last : Writable .last

inductive Step.Writable : Step → Prop
  | self : Writable ⟨.self, .any, []⟩
  | parent : Writable ⟨.parent, .any, []⟩
  | attr {t : NameTest} (ht : t.Writable) : Writable ⟨.attribute, t, []⟩
  | named {t : NameTest} {ps : List Predicate} (descendant : Bool) (ht : t.Writable)
    (hps : ∀ p ∈ ps, p.Writable) :
    Writable ⟨if descendant then .descendant else .child, t, ps⟩

/-- Whether two slashes lead to the step. -/
def Step.descends (s : Step) : Bool :=
  s.axis = .descendant

structure LocationPath.Writable (p : LocationPath) : Prop where
  steps : ∀ s ∈ p.steps, s.Writable
  /-- A relative path begins with a step that no slash leads to. -/
  first : p.absolute = false → ∃ s rest, p.steps = s :: rest ∧ s.descends = false

section Reading

variable {cs raw : List Char} {t : NameTest} {p : Predicate} {s : Step} {descendant : Bool}
  {path : LocationPath} {paths : List LocationPath}

theorem NameTest.writable_of_localTest? (h : localTest? cs = some t) : t.Writable := by
  rcases localTest?_eq_some_iff.mp h with ⟨-, rfl⟩ | ⟨hplain, rfl⟩
  · trivial
  · rw [Writable, String.toList_ofList]
    exact hplain

theorem NameTest.writable_of_nameTest? (h : nameTest? cs = some t) : t.Writable := by
  rcases nameTest?_eq_some_iff.mp h with h | ⟨label, name, -, -, h⟩
  · exact writable_of_localTest? h
  · exact writable_of_localTest? h

theorem quotable_ofList {text : List Char} {q : Char} (hq : isQuote q = true) (hmem : q ∉ text) :
    Quotable (String.ofList text) := by
  refine ⟨q, hq, ?_⟩
  rw [String.toList_ofList]
  exact hmem

theorem Comparison.quotable (k : Comparison) : Quotable (String.ofList k.text) :=
  quotable_ofList k.isQuote_quote k.quote_not_mem

theorem AttributeTail.writable (ht : t.Writable) (h : AttributeTail t cs p) : p.Writable := by
  cases h with
  | present _ => exact .hasAttribute ht
  | equal k => exact .attributeIs ht k.quotable
  | differs k => exact .attributeIsNot ht k.quotable

theorem Predicate.writable_of_positionPredicate? (h : positionPredicate? cs = some (.ok p)) :
    p.Writable := by
  unfold positionPredicate? at h
  split_ifs at h with hempty hdigits
  · cases h
    rw [Bool.and_eq_true, Bool.and_eq_true, decide_eq_true_eq, decide_eq_true_eq] at hdigits
    exact .position hdigits.1.2 hdigits.2
  · cases h

theorem Predicate.writable_of_read (h : readPredicate cs = .ok p) : p.Writable := by
  rcases readPredicate_eq_ok_iff.mp h with ha | hc | hd | ⟨-, -, -, hp | ⟨-, -, rfl⟩⟩
  · obtain ⟨name, rest, t, -, hname, htail⟩ := attributePredicate?_eq_some_iff.mp ha
    exact htail.writable (NameTest.writable_of_nameTest? hname)
  · obtain ⟨n, -, rfl⟩ := containsPredicate?_eq_some_iff.mp hc
    exact .nameContains (quotable_ofList n.isQuote_quote n.quote_not_mem)
  · obtain ⟨name, k, localName, -, hname, rfl⟩ := childPredicate?_eq_some_iff.mp hd
    exact .childIs (NameTest.writable_of_nameTest? hname) k.quotable
  · exact writable_of_positionPredicate? hp
  · exact .last

theorem Step.writable_of_read (h : readStep descendant raw = .ok s) :
    s.Writable ∧ s.descends = descendant := by
  rcases readStep_eq_ok_iff_layout.mp h with ⟨-, rfl, rfl⟩ | ⟨-, rfl, rfl⟩ |
    ⟨-, rest, t, -, -, htest, rfl, rfl⟩ | ⟨name, gs, space, t, ps, -, -, htest, -, hgs, rfl⟩
  · exact ⟨.self, rfl⟩
  · exact ⟨.parent, rfl⟩
  · exact ⟨.attr (NameTest.writable_of_nameTest? htest), rfl⟩
  · have hps : ∀ p ∈ ps, p.Writable := by
      intro p hp
      obtain ⟨g, -, hg⟩ := exists_of_mem_forall₂ hgs.flip hp
      exact Predicate.writable_of_read hg.2
    refine ⟨.named descendant (NameTest.writable_of_nameTest? htest) hps, ?_⟩
    cases descendant <;> rfl

theorem Step.writable_of_reads {ps : List (Part Bool)} {steps : List Step}
    (h : List.Forall₂ ReadsStep ps steps) : ∀ s ∈ steps, s.Writable := by
  intro s hs
  obtain ⟨p, -, hp⟩ := exists_of_mem_forall₂ h.flip hs
  exact (writable_of_read hp.2).1

theorem LocationPath.writable_of_reads {p : Part Unit} (h : ReadsPath p path) :
    path.Writable := by
  rcases (readLocationPath_trim_eq_ok_iff h.1).mp h.2 with
    ⟨-, rfl⟩ | ⟨pre, ps, steps, -, -, -, hps, rfl⟩ | ⟨raw, ps, steps, -, hps, rfl⟩
  · exact ⟨by simp, by simp⟩
  · exact ⟨Step.writable_of_reads hps, by simp⟩
  · refine ⟨Step.writable_of_reads hps, fun _ => ?_⟩
    cases hps with
    | cons hfirst _ => exact ⟨_, _, rfl, (Step.writable_of_read hfirst.2).2⟩

/-- An expression has an alternative at least, and all of them can be written. -/
theorem writable_of_readAlternatives (h : readAlternatives cs = .ok paths) :
    paths ≠ [] ∧ ∀ path ∈ paths, path.Writable := by
  obtain ⟨p, ps, -, hps⟩ := readAlternatives_eq_ok_iff.mp h
  constructor
  · rintro rfl
    cases hps
  · intro path hpath
    obtain ⟨q, -, hq⟩ := exists_of_mem_forall₂ hps.flip hpath
    exact LocationPath.writable_of_reads hq

theorem Predicate.Writable.quotable (h : p.Writable) : ∀ v ∈ p.literals, Quotable v := by
  cases h with
  | attributeIs _ hv | attributeIsNot _ hv | childIs _ hv | nameContains hv =>
    intro w hw
    obtain rfl := List.mem_singleton.mp hw
    exact hv
  | hasAttribute _ | position _ _ | last =>
    intro w hw
    cases hw

theorem LocationPath.Writable.quotable (h : path.Writable) : ∀ v ∈ path.literals, Quotable v := by
  intro v hv
  obtain ⟨s, hs, hmem⟩ := List.mem_flatMap.mp hv
  obtain ⟨p, hp, hliteral⟩ := List.mem_flatMap.mp hmem
  have hstep := h.steps s hs
  cases hstep with
  | self | parent | attr _ => cases hp
  | named _ _ hps => exact (hps p hp).quotable v hliteral

end Reading

end TransitAudit.Path
