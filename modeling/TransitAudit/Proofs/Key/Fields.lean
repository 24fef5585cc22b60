import TransitAudit.Key.Basic
import TransitAudit.Proofs.Path.NamedSteps

/-! Fields of keys. A field that names one attribute is looked up directly, and the look-up finds
what the field selects as a path. So every field that can be read as a path gives the value of the
first node that this path selects. -/
namespace TransitAudit

open TransitAudit.Path Text

/-! Names that are looked up directly -/

namespace FieldPath

/-- The field, without white space around it, is the name of an attribute that is looked up
directly. -/
def NamesAttribute (raw : String) (name : List Char) : Prop :=
  trim raw.toList = '@' :: name ∧ name ≠ [] ∧ ∀ c ∈ name, isDirectChar c = true

theorem isDirectChar_of_blank {c : Char} (hc : isBlank c = true) : isDirectChar c = false := by
  -- most of these characters belong to names
  have hname := isNameChar_of_blank hc
  simp only [isNameChar, isWord, Bool.or_eq_false_iff] at hname
  obtain ⟨⟨⟨⟨⟨⟨halphabetic, hdigit⟩, hconnector⟩, -⟩, -⟩, hdot⟩, hdash⟩ := hname
  have hnumber : inRanges otherNumberRanges c = false := inRanges_of_blank hc (by decide +kernel)
  have hunderscore : c ≠ '_' := by
    rintro rfl
    rw [isBlank_eq_false (by decide) (by decide)] at hc
    cases hc
  have hcolon : c ≠ ':' := by
    rintro rfl
    rw [isBlank_eq_false (by decide) (by decide)] at hc
    cases hc
  simp [isDirectChar, isAlphanumeric, halphabetic, hdigit, hnumber, hdot, hdash, hunderscore,
    hcolon]

variable {raw : String} {name : List Char}

theorem trim_of_direct (h : ∀ c ∈ name, isDirectChar c = true) : trim name = name := by
  have hblank : ∀ c ∈ name, isBlank c = false := by
    intro c hc
    rw [Bool.eq_false_iff]
    intro hb
    have hdirect := h c hc
    rw [isDirectChar_of_blank hb] at hdirect
    cases hdirect
  cases name with
  | nil => rfl
  | cons c rest =>
    rw [trim_cons_of_not_blank (hblank c List.mem_cons_self), trimEnd_eq_rdropWhile,
      List.rdropWhile_eq_self_iff.mpr]
    intro hne
    rw [hblank _ (List.mem_cons_of_mem c (List.getLast_mem hne))]
    exact Bool.false_ne_true

theorem compile_of_namesAttribute (h : NamesAttribute raw name) :
    compile raw =
      .ok (.attributeNamed (String.ofList (trim raw.toList)) (String.ofList name)) := by
  obtain ⟨hraw, hne, hall⟩ := h
  have hdirect : (!name.isEmpty && name.all isDirectChar) = true := by
    simp [hne, List.all_eq_true.mpr hall]
  simp [compile, hraw, hdirect]

theorem compile_of_not_namesAttribute (h : ∀ name, ¬ NamesAttribute raw name) :
    compile raw = compile.general (String.ofList (trim raw.toList)) := by
  unfold compile
  dsimp only
  split
  · rename_i name hraw
    rw [if_neg]
    intro hdirect
    rw [Bool.and_eq_true, List.all_eq_true, Bool.not_eq_true'] at hdirect
    exact h name ⟨hraw, List.isEmpty_eq_false_iff.mp hdirect.1, hdirect.2⟩
  · rfl

/-- White space around the text of an expression plays no part. -/
theorem parse_trimmed {e : PathExpr} (h : PathExpr.parse raw = .ok e) :
    PathExpr.parse (String.ofList (trim raw.toList)) =
      .ok ⟨String.ofList (trim raw.toList), e.alternatives⟩ := by
  obtain ⟨-, hread⟩ := PathExpr.parse_eq_ok_iff.mp h
  rw [PathExpr.parse_eq_ok_iff, String.toList_ofList]
  refine ⟨rfl, ?_⟩
  rw [readAlternatives, trim_trim]
  exact hread

/-! What such a name is as a path -/

/-- Neither bars nor slashes divide the name of an attribute. -/
theorem not_mem_of_direct (h : ∀ c ∈ name, isDirectChar c = true) {c : Char}
    (hc : isDirectChar c = false) : c ∉ name := by
  intro hmem
  rw [h c hmem] at hc
  cases hc

theorem nameTest?_of_direct (h : ∀ c ∈ name, isDirectChar c = true) {t : NameTest}
    (ht : nameTest? name = some t) : t = .named (Path.localName (String.ofList name)) := by
  have hstar : '*' ∉ name := not_mem_of_direct h (by decide +kernel)
  rw [Path.localName, String.toList_ofList]
  rcases nameTest?_eq_some_iff.mp ht with hlocal | ⟨label, rest, rfl, -, hlocal⟩
  · rw [afterLast_of_not_mem (colon_not_mem_of_localTest? hlocal)]
    rcases localTest?_eq_some_iff.mp hlocal with ⟨rfl, -⟩ | ⟨-, ht⟩
    · simp at hstar
    · exact ht
  · rw [afterLast_append_cons (colon_not_mem_of_localTest? hlocal)]
    rcases localTest?_eq_some_iff.mp hlocal with ⟨rfl, -⟩ | ⟨-, ht⟩
    · simp at hstar
    · exact ht

theorem alternatives_of_namesAttribute (h : NamesAttribute raw name) {e : PathExpr}
    (he : PathExpr.parse raw = .ok e) : e.alternatives =
      [⟨false, [⟨.attribute, .named (Path.localName (String.ofList name)), []⟩]⟩] := by
  obtain ⟨hraw, -, hall⟩ := h
  obtain ⟨-, hread⟩ := PathExpr.parse_eq_ok_iff.mp he
  have hnone {c : Char} (hat : c ≠ '@') (hc : isDirectChar c = false) : c ∉ trim raw.toList := by
    rw [hraw, List.mem_cons, not_or]
    exact ⟨hat, not_mem_of_direct hall hc⟩
  obtain ⟨s, hs, hstep⟩ := readAlternatives_of_undivided (hnone (by decide) (by decide +kernel))
    (hnone (by decide) (by decide +kernel)) hread
  rw [hs]
  rcases readStep_eq_ok_iff.mp hstep with
    ⟨htext, -⟩ | ⟨htext, -⟩ | ⟨rest, test, htext, htest, -, rfl⟩ | ⟨test, ps, htest, -⟩
  · rw [hraw] at htext
    cases htext
  · rw [hraw] at htext
    cases htext
  · rw [hraw] at htext
    cases htext
    rw [trim_of_direct hall] at htest
    rw [nameTest?_of_direct hall htest]
  · -- no name begins with an at sign
    obtain ⟨c, tail, htext, hc⟩ := exists_head_of_name htest
    rw [hraw] at htext
    cases htext
    exact absurd hc (by decide)

end FieldPath

/-! The values of fields -/

/-- The string value of the first of some nodes; without a node the value is absent. -/
def FieldValue.ofFirst : List Node → FieldValue
  | [] => .absent
  | n :: _ => .present n.text

theorem FieldValue.ofFirst_eq (ns : List Node) :
    ofFirst ns = .ofOption (ns.head?.map (·.text)) := by
  cases ns <;> rfl

/-- The look-up of an attribute finds what the step to it selects first. -/
theorem evaluate_attributeNamed (source name : String) (n : Node) :
    (FieldPath.attributeNamed source name).evaluate n =
      .ofFirst (NameTest.attributesOf (.named (Path.localName name)) n) := by
  have hfind : (n.attributes.find? fun a => a.name == Path.localName name) =
      n.attributes.find? fun a => NameTest.accepts (.named (Path.localName name)) a.name := by
    congr 1
    funext a
    exact Bool.beq_comm
  rw [FieldPath.evaluate, Node.attr?, hfind, value_first_attribute, FieldValue.ofFirst_eq]

theorem evaluate_path (e : PathExpr) (n : Node) :
    (FieldPath.path e).evaluate n = .ofFirst (e.evaluate n) := by
  rw [FieldPath.evaluate, Node.firstOf]
  cases e.evaluate n <;> rfl

/-- Every field that can be read as a path is accepted, and gives at every node the string value of
the first node that the path selects there. -/
theorem fields_follow_paths (raw : String) (e : PathExpr) (h : PathExpr.parse raw = .ok e) :
    ∃ f, FieldPath.compile raw = .ok f ∧ ∀ n : Node, f.evaluate n = .ofFirst (e.evaluate n) := by
  by_cases hdirect : ∃ name, FieldPath.NamesAttribute raw name
  · obtain ⟨name, hname⟩ := hdirect
    refine ⟨_, FieldPath.compile_of_namesAttribute hname, fun n => ?_⟩
    -- as a path, the name is a single step to attributes
    have hpath : e.evaluate n =
        NameTest.attributesOf (.named (Path.localName (String.ofList name))) n := by
      rw [PathExpr.evaluate, FieldPath.alternatives_of_namesAttribute hname h]
      simp [LocationPath.select, Step.selectAll, NameTest.attributesOf]
    rw [hpath]
    exact evaluate_attributeNamed _ _ n
  · rw [not_exists] at hdirect
    refine ⟨.path ⟨String.ofList (trim raw.toList), e.alternatives⟩, ?_, fun n => ?_⟩
    · rw [FieldPath.compile_of_not_namesAttribute hdirect, FieldPath.compile.general,
        FieldPath.parse_trimmed h]
    · exact evaluate_path _ n

/-- The name of an attribute with a label, which is looked up directly, and a path of two steps, at
an element with the attributes `p='1'` and `q='2'` and at the document. -/
theorem fields_follow_paths_at_item :
    (∃ e f, PathExpr.parse " @x:q" = .ok e ∧ FieldPath.compile " @x:q" = .ok f ∧
      f.evaluate twoValuesItem = .present "2" ∧ f.evaluate twoValues.documentNode = .absent) ∧
    ∃ e f, PathExpr.parse "./@*" = .ok e ∧ FieldPath.compile "./@*" = .ok f ∧
      f.evaluate twoValuesItem = .present "1" ∧ f.evaluate twoValues.documentNode = .absent := by
  constructor
  · have hparse : PathExpr.parse " @x:q" =
        .ok ⟨" @x:q", [⟨false, [⟨.attribute, .named "q", []⟩]⟩]⟩ := by
      rw [PathExpr.parse_ofList]
      decide +kernel
    obtain ⟨f, hf, hvalues⟩ := fields_follow_paths _ _ hparse
    refine ⟨_, f, hparse, hf, ?_, ?_⟩
    · rw [hvalues]
      rfl
    · rw [hvalues]
      rfl
  · have hparse : PathExpr.parse "./@*" =
        .ok ⟨"./@*", [⟨false, [⟨.self, .any, []⟩, ⟨.attribute, .any, []⟩]⟩]⟩ := by
      rw [PathExpr.parse_ofList]
      decide +kernel
    obtain ⟨f, hf, hvalues⟩ := fields_follow_paths _ _ hparse
    refine ⟨_, f, hparse, hf, ?_, ?_⟩
    · rw [hvalues]
      rfl
    · rw [hvalues]
      rfl

end TransitAudit
