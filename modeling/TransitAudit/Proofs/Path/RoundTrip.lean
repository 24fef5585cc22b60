import TransitAudit.Proofs.Document.Reading
import TransitAudit.Proofs.Path.Alike
import TransitAudit.Proofs.Path.PredicateWriting

/-! Reading what was written. Every step is read back from its own text, and so is a path, and an
expression from the texts of its alternatives. -/
namespace TransitAudit.Path

open Text

/-! Steps -/

section Steps

variable {s : Step} {t : NameTest} {ps : List Predicate} {d : Delimiters} {path : LocationPath}

/-- The group that a predicate is written in. -/
def Predicate.group (p : Predicate) : Group :=
  ⟨[], p.text.toList⟩

theorem toList_groups (ps : List Predicate) :
    (String.join (ps.map fun p => "[" ++ p.text ++ "]")).toList =
      (ps.map Predicate.group).flatMap Group.text := by
  have hopen : "[".toList = ['['] := String.toList_ofList
  have hclose : "]".toList = [']'] := String.toList_ofList
  rw [String.toList_join, List.flatMap_map, List.flatMap_map]
  congr 1
  funext p
  simp [Group.text, Predicate.group, hopen, hclose]

theorem Step.toList_self : (Step.text ⟨.self, .any, []⟩).toList = ['.'] :=
  String.toList_ofList

theorem Step.toList_parent : (Step.text ⟨.parent, .any, []⟩).toList = ['.', '.'] :=
  String.toList_ofList

theorem Step.toList_attribute (t : NameTest) :
    (Step.text ⟨.attribute, t, []⟩).toList = '@' :: t.text.toList := by
  have hat : "@".toList = ['@'] := String.toList_ofList
  change ("@" ++ t.text).toList = _
  simp [hat]

theorem Step.toList_named (descendant : Bool) (t : NameTest) (ps : List Predicate) :
    (Step.text ⟨if descendant then .descendant else .child, t, ps⟩).toList =
      t.text.toList ++ (ps.map Predicate.group).flatMap Group.text := by
  rw [← toList_groups, ← String.toList_append]
  cases descendant <;> rfl

theorem readsPredicates (h : ∀ p ∈ ps, p.Writable) :
    List.Forall₂ ReadsPredicate (ps.map Predicate.group) ps := by
  rw [List.forall₂_map_left_iff, List.forall₂_same]
  intro p hp
  have hclosed : Delimiters.groups.Closed p.text.toList := ((h p hp).level .groups).closed (by decide)
  exact ⟨⟨.nil, hclosed⟩, (h p hp).read⟩

/-- A step is read from its own text. -/
theorem Step.Writable.read (h : s.Writable) : readStep s.descends s.text.toList = .ok s := by
  rw [readStep_eq_ok_iff_layout]
  cases h with
  | self =>
    refine .inl ⟨?_, rfl, rfl⟩
    rw [Step.toList_self]
    with_unfolding_all rfl
  | parent =>
    refine .inr (.inl ⟨?_, rfl, rfl⟩)
    rw [Step.toList_parent]
    with_unfolding_all rfl
  | @attr t ht =>
    have hname := NameTest.nameTest?_text ht
    refine .inr (.inr (.inl ⟨[], t.text.toList, t, .nil, Step.toList_attribute t, ?_, rfl, rfl⟩))
    rw [trim_name hname]
    exact hname
  | @named t ps descendant ht hps =>
    have hname := NameTest.nameTest?_text ht
    have hopen : '[' ∉ t.text.toList := by
      intro hmem
      have htest := isTestChar_of_nameTest? hname _ hmem
      rw [isTestChar_of_mem_markChars (by simp [markChars])] at htest
      cases htest
    have hdescends : Step.descends ⟨if descendant then .descendant else .child, t, ps⟩ =
        descendant := by
      cases descendant <;> rfl
    rw [hdescends, Step.toList_named]
    refine .inr (.inr (.inr ⟨t.text.toList, ps.map Predicate.group, [], t, ps, ?_, hopen, ?_, .nil,
      readsPredicates hps, rfl⟩))
    · rw [List.append_nil]
    · rw [trim_name hname]
      exact hname

theorem Step.Writable.level (hd : d.InUse) (h : s.Writable) : d.Level 3 s.text.toList := by
  cases h with
  | self =>
    rw [Step.toList_self]
    exact hd.level_of_all (by decide)
  | parent =>
    rw [Step.toList_parent]
    exact hd.level_of_all (by decide)
  | attr ht =>
    have hat : d.Level 3 ['@'] := hd.level_of_all (by decide)
    rw [Step.toList_attribute]
    exact hat.append (hd.level_name ht)
  | named descendant ht hps =>
    rw [Step.toList_named, List.flatMap_map]
    refine (hd.level_name ht).append (.flatMap ?_)
    intro p hp
    exact hd.brackets ((hps p hp).level hd)

end Steps

/-! Paths -/

section Paths

variable {s : Step} {steps : List Step} {path : LocationPath} {paths : List LocationPath}

/-- A step behind the slashes that lead to it. -/
def Step.part (s : Step) : Part Bool :=
  ⟨s.descends, s.text.toList⟩

theorem Step.toList_lead (s : Step) : s.lead.toList = slashes s.descends := by
  have hone : "/".toList = ['/'] := String.toList_ofList
  have htwo : "//".toList = ['/', '/'] := String.toList_ofList
  by_cases hs : s.axis = .descendant
  · simp [Step.lead, Step.descends, slashes, hs, htwo]
  · simp [Step.lead, Step.descends, slashes, hs, hone]

theorem toList_steps (steps : List Step) :
    (String.join (steps.map fun s => s.lead ++ s.text)).toList =
      layout slashes (steps.map Step.part) := by
  rw [String.toList_join, List.flatMap_map, layout, List.flatMap_map]
  congr 1
  funext s
  rw [String.toList_append, s.toList_lead]
  rfl

theorem readsSteps (h : ∀ s ∈ steps, s.Writable) :
    List.Forall₂ ReadsStep (steps.map Step.part) steps := by
  rw [List.forall₂_map_left_iff, List.forall₂_same]
  intro s hs
  exact ⟨((h s hs).level .steps).closed (by decide), (h s hs).read⟩

/-- The three forms of a path that can be written. -/
theorem LocationPath.Writable.forms (h : path.Writable) :
    path = ⟨true, []⟩ ∨
      (∃ steps, steps ≠ [] ∧ path = ⟨true, steps⟩ ∧ (∀ s ∈ steps, s.Writable) ∧
        path.text.toList = layout slashes (steps.map Step.part)) ∨
      ∃ s steps, path = ⟨false, s :: steps⟩ ∧ (∀ x ∈ s :: steps, x.Writable) ∧
        s.descends = false ∧
        path.text.toList = s.text.toList ++ layout slashes (steps.map Step.part) := by
  obtain ⟨absolute, steps⟩ := path
  cases absolute with
  | true =>
    cases steps with
    | nil => exact .inl rfl
    | cons s steps =>
      refine .inr (.inl ⟨s :: steps, List.cons_ne_nil _ _, rfl, h.steps, ?_⟩)
      exact toList_steps (s :: steps)
  | false =>
    obtain ⟨s, rest, hsteps, hs⟩ := h.first rfl
    obtain rfl : steps = s :: rest := hsteps
    refine .inr (.inr ⟨s, rest, rfl, h.steps, hs, ?_⟩)
    rw [← toList_steps, ← String.toList_append]
    rfl

theorem LocationPath.toList_root : (LocationPath.text ⟨true, []⟩).toList = ['/'] :=
  String.toList_ofList

theorem level_layout (h : ∀ s ∈ steps, s.Writable) :
    (Delimiters.atTop '|').Level 3 (layout slashes (steps.map Step.part)) := by
  rw [layout, List.flatMap_map]
  apply Delimiters.Level.flatMap
  intro s hs
  have hlead : (Delimiters.atTop '|').Level 3 (slashes s.descends) := by
    apply Delimiters.Level.of_not_marks
    cases s.descends <;> simp [slashes, Delimiters.marks, Delimiters.atTop, isQuote]
  exact hlead.append ((h s hs).level .alternatives)

theorem LocationPath.Writable.level (h : path.Writable) :
    (Delimiters.atTop '|').Level 3 path.text.toList := by
  rcases h.forms with rfl | ⟨steps, -, -, hsteps, htext⟩ | ⟨s, steps, -, hsteps, -, htext⟩
  · rw [toList_root]
    exact .of_not_marks (by simp [Delimiters.marks, Delimiters.atTop, isQuote])
  · rw [htext]
    exact level_layout hsteps
  · obtain ⟨hs, hrest⟩ := List.forall_mem_cons.mp hsteps
    rw [htext]
    exact (hs.level .alternatives).append (level_layout hrest)

/-- A path is read from its own text. -/
theorem LocationPath.Writable.read (h : path.Writable) :
    readLocationPath (trim path.text.toList) = .ok path := by
  rw [readLocationPath_trim_eq_ok_iff (h.level.closed (by decide))]
  rcases h.forms with rfl | ⟨steps, hne, rfl, hsteps, htext⟩ | ⟨s, steps, rfl, hsteps, hs, htext⟩
  · refine .inl ⟨?_, rfl⟩
    rw [toList_root]
    exact trim_cons_of_not_blank isBlank_slash []
  · refine .inr (.inl ⟨[], steps.map Step.part, steps, .nil, ?_, htext, readsSteps hsteps, rfl⟩)
    simpa using hne
  · refine .inr (.inr ⟨s.text.toList, steps.map Step.part, s :: steps, htext, ?_, rfl⟩)
    have hreads := readsSteps hsteps
    rw [List.map_cons, Step.part, hs] at hreads
    exact hreads

theorem LocationPath.Writable.readsPath (h : path.Writable) {pre post : List Char}
    (hpre : AllBlank pre) (hpost : AllBlank post) :
    ReadsPath ⟨(), pre ++ (path.text.toList ++ post)⟩ path := by
  apply readsPath_of_same ⟨(), path.text.toList⟩
  · refine ⟨rfl, ?_⟩
    rw [trim_append_of_allBlank hpre]
    exact trim_append_right_of_allBlank hpost _
  · exact ⟨h.level.closed (by decide), h.read⟩

/-- The texts of alternatives with bars between them. -/
def written (paths : List LocationPath) : List Char :=
  [' ', '|', ' '].intercalate (paths.map fun path => path.text.toList)

theorem written_cons_cons (path next : LocationPath) (paths : List LocationPath) :
    written (path :: next :: paths) =
      path.text.toList ++ [' '] ++ '|' :: ' ' :: written (next :: paths) := by
  rw [written, List.map_cons, List.map_cons, List.intercalate_cons_cons]
  simp [written]

/-- A row of alternatives that begins with white space. -/
theorem exists_row_written {pre : List Char} (hpre : AllBlank pre)
    (h : ∀ p ∈ path :: paths, p.Writable) :
    ∃ q qs, pre ++ written (path :: paths) = q.raw ++ layout bar qs ∧
      List.Forall₂ ReadsPath (q :: qs) (path :: paths) := by
  -- each alternative but the first takes the blank behind its bar
  induction paths generalizing pre path with
  | nil =>
    obtain ⟨hpath, -⟩ := List.forall_mem_cons.mp h
    refine ⟨⟨(), pre ++ (path.text.toList ++ [])⟩, [], ?_, .cons (hpath.readsPath hpre .nil) .nil⟩
    simp [written, layout]
  | cons next paths ih =>
    obtain ⟨hpath, hrest⟩ := List.forall_mem_cons.mp h
    obtain ⟨q, qs, htext, hreads⟩ := ih allBlank_space hrest
    refine ⟨⟨(), pre ++ (path.text.toList ++ [' '])⟩, ⟨(), q.raw⟩ :: qs, ?_,
      .cons (hpath.readsPath hpre allBlank_space) hreads⟩
    calc pre ++ written (path :: next :: paths)
        = pre ++ (path.text.toList ++ [' ']) ++ '|' :: ([' '] ++ written (next :: paths)) := by
          rw [written_cons_cons]
          simp
      _ = pre ++ (path.text.toList ++ [' ']) ++ '|' :: (q.raw ++ layout bar qs) := by rw [htext]
      _ = _ := by
          rw [layout_cons]
          rfl

theorem readAlternatives_written (hne : paths ≠ []) (h : ∀ p ∈ paths, p.Writable) :
    readAlternatives (written paths) = .ok paths := by
  obtain ⟨path, paths, rfl⟩ := List.exists_cons_of_ne_nil hne
  obtain ⟨q, qs, htext, hreads⟩ := exists_row_written .nil h
  exact readAlternatives_eq_ok_iff.mpr ⟨q, qs, htext, hreads⟩

end Paths

end TransitAudit.Path

namespace TransitAudit

open TransitAudit.Path

/-! Expressions -/

theorem PathExpr.toList_text (e : PathExpr) : e.text.toList = written e.alternatives := by
  have hbar : " | ".toList = [' ', '|', ' '] := String.toList_ofList
  rw [PathExpr.text, Text.joined, String.toList_intercalate, hbar, List.map_map]
  rfl

/-- The one form of an accepted expression is accepted and stands for the same alternatives, with
each literal between quotes that it does not hold. Other literals in the text change nothing but
the literals of what it stands for. -/
theorem PathExpr.text_read_back (s : String) (e : PathExpr) (h : PathExpr.parse s = .ok e) :
    PathExpr.parse e.text = .ok ⟨e.text, e.alternatives⟩ ∧
      (∀ v ∈ e.literals, ∃ q, isQuote q = true ∧ q ∉ v.toList ∧
        (quoted v).toList = q :: (v.toList ++ [q])) ∧
      Alike s.toList s.toList ∧
      ∀ t : String, Alike s.toList t.toList → ∃ e', PathExpr.parse t = .ok e' ∧
        e'.alternatives.map LocationPath.outline = e.alternatives.map LocationPath.outline := by
  obtain ⟨-, hread⟩ := PathExpr.parse_eq_ok_iff.mp h
  obtain ⟨hne, hwritable⟩ := writable_of_readAlternatives hread
  refine ⟨?_, ?_, alike_self_of_readAlternatives hread, ?_⟩
  · rw [PathExpr.parse_eq_ok_iff, e.toList_text]
    exact ⟨rfl, readAlternatives_written hne hwritable⟩
  · intro v hv
    obtain ⟨path, hpath, hmem⟩ := List.mem_flatMap.mp hv
    exact exists_toList_quoted ((hwritable path hpath).quotable v hmem)
  · intro t ht
    obtain ⟨paths, hpaths, houtline⟩ := exists_readAlternatives_of_alike ht hread
    exact ⟨⟨t, paths⟩, PathExpr.parse_eq_ok_iff.mpr ⟨rfl, hpaths⟩, houtline⟩

/-- An expression with a quote and a bar in a literal. -/
def quoteInLiteral : PathExpr where
  source := "//a[@k=\"it's|\"][ 2 ]|b[c='x']/@*"
  alternatives :=
    [⟨true, [⟨.descendant, .named "a", [.attributeIs (.named "k") "it's|", .position 2]⟩]⟩,
      ⟨false, [⟨.child, .named "b", [.childIs (.named "c") "x"]⟩, ⟨.attribute, .any, []⟩]⟩]

/-- Bars, slashes, brackets and quotes of the other kind in literals. -/
theorem PathExpr.text_read_back_of_delimiters :
    PathExpr.parse "//a[@k=\"it's|\"][ 2 ]|b[c='x']/@*" = .ok quoteInLiteral ∧
      PathExpr.parse "//a[@k = \"it's|\"][2] | b[c = 'x']/@*" =
        .ok ⟨"//a[@k = \"it's|\"][2] | b[c = 'x']/@*", quoteInLiteral.alternatives⟩ ∧
      ∃ e, PathExpr.parse "//a[@k=\"|/](' \"][ 2 ]|b[c='\"[/']/@*" = .ok e ∧
        e.alternatives.map LocationPath.outline =
          quoteInLiteral.alternatives.map LocationPath.outline := by
  have hparse : PathExpr.parse "//a[@k=\"it's|\"][ 2 ]|b[c='x']/@*" = .ok quoteInLiteral := by
    rw [PathExpr.parse_ofList]
    decide +kernel
  have htext : quoteInLiteral.text = "//a[@k = \"it's|\"][2] | b[c = 'x']/@*" := by
    decide +kernel
  have halike : Alike "//a[@k=\"it's|\"][ 2 ]|b[c='x']/@*".toList
      "//a[@k=\"|/](' \"][ 2 ]|b[c='\"[/']/@*".toList := by
    have hopening : Alike "//a[@k=".toList "//a[@k=".toList :=
      (Quoteless.of_all (by decide +kernel)).alike_self
    have hbetween : Alike "][ 2 ]|b[c=".toList "][ 2 ]|b[c=".toList :=
      (Quoteless.of_all (by decide +kernel)).alike_self
    have hend : Alike "]/@*".toList "]/@*".toList :=
      (Quoteless.of_all (by decide +kernel)).alike_self
    have hsecond : Alike ('\x27' :: ("x".toList ++ '\x27' :: "]/@*".toList))
        ('\x27' :: ("\"[/".toList ++ '\x27' :: "]/@*".toList)) :=
      .literal rfl (by decide +kernel) (by decide +kernel) hend
    have hfirst : Alike
        ('"' :: ("it's|".toList ++ '"' :: ("][ 2 ]|b[c=".toList ++
          '\x27' :: ("x".toList ++ '\x27' :: "]/@*".toList))))
        ('"' :: ("|/](' ".toList ++ '"' :: ("][ 2 ]|b[c=".toList ++
          '\x27' :: ("\"[/".toList ++ '\x27' :: "]/@*".toList)))) :=
      .literal rfl (by decide +kernel) (by decide +kernel) (hbetween.append hsecond)
    exact hopening.append hfirst
  obtain ⟨hback, -, -, hothers⟩ := PathExpr.text_read_back _ _ hparse
  rw [htext] at hback
  exact ⟨hparse, hback, hothers _ halike⟩

end TransitAudit
