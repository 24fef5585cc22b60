import TransitAudit.Proofs.Document.Reading
import TransitAudit.Proofs.Path.PredicateWriting

/-! The syntax of expressions by its forms: what a predicate, a step, a path and an expression look
like, with no scanner in between. A text is accepted just when it has the form of an expression,
since a part of any of these forms is cut nowhere. -/
namespace TransitAudit.Path

open Text

/-! The forms -/

/-- What may stand between the brackets of a predicate, without white space around it. -/
inductive PredicateForm : List Char → Predicate → Prop
  | attr {name rest : List Char} {test : NameTest} {p : Predicate}
    (hname : nameTest? name = some test) (hrest : AttributeTail test rest p) :
    PredicateForm ('@' :: (name ++ rest)) p
  | child {name : List Char} {localName : String}
    (hname : nameTest? name = some (.named localName)) (value : Comparison) :
    PredicateForm (name ++ value.written ['='])
      (.childIs (.named localName) (String.ofList value.text))
  | nameContains (call : NameCall) :
    PredicateForm call.written (.nameContains (String.ofList call.text))
  | position {digits : List Char} (hne : digits ≠ [])
    (hdigits : ∀ c ∈ digits, isAsciiDigit c = true) (hpos : 1 ≤ decimalValue digits)
    (hlimit : decimalValue digits < positionLimit) :
    PredicateForm digits (.position (decimalValue digits))
  | last {space : List Char} (hspace : AllBlank space) :
    PredicateForm (['l', 'a', 's', 't', '('] ++ (space ++ [')'])) .last

/-- A predicate between brackets, behind white space. -/
structure GroupForm (g : Group) (p : Predicate) : Prop where
  space_blank : AllBlank g.space
  inner : PredicateForm (trim g.inner) p

/-- A step with white space around it. Only names may follow two slashes, and nothing but predicates
follows a name. -/
inductive StepForm : Bool → List Char → Step → Prop
  | self {raw : List Char} (hraw : trim raw = ['.']) : StepForm false raw ⟨.self, .any, []⟩
  | parent {raw : List Char} (hraw : trim raw = ['.', '.']) :
    StepForm false raw ⟨.parent, .any, []⟩
  | attr {pre name : List Char} {test : NameTest} (hpre : AllBlank pre)
    (hname : nameTest? (trim name) = some test) :
    StepForm false (pre ++ '@' :: name) ⟨.attribute, test, []⟩
  | named (descendant : Bool) {name space : List Char} {test : NameTest} {gs : List Group}
    {ps : List Predicate} (hname : nameTest? (trim name) = some test)
    (hgroups : List.Forall₂ GroupForm gs ps) (hspace : AllBlank space) :
    StepForm descendant (name ++ (gs.flatMap Group.text ++ space))
      ⟨if descendant then .descendant else .child, test, ps⟩

/-- The steps behind their slashes. -/
def StepsForm : List (Part Bool) → List Step → Prop :=
  List.Forall₂ fun part => StepForm part.kind part.raw

/-- A path with white space around it: the root, steps that slashes lead to, or a step that none
leads to and further ones. -/
inductive PathForm : List Char → LocationPath → Prop
  | root {cs : List Char} (hcs : trim cs = ['/']) : PathForm cs ⟨true, []⟩
  | absolute {pre : List Char} {parts : List (Part Bool)} {steps : List Step}
    (hpre : AllBlank pre) (hne : parts ≠ []) (hsteps : StepsForm parts steps) :
    PathForm (pre ++ layout slashes parts) ⟨true, steps⟩
  | relative {raw : List Char} {parts : List (Part Bool)} {steps : List Step}
    (hsteps : StepsForm (⟨false, raw⟩ :: parts) steps) :
    PathForm (raw ++ layout slashes parts) ⟨false, steps⟩

/-- An expression: a path, and further ones behind bars. -/
def ExpressionForm (cs : List Char) (paths : List LocationPath) : Prop :=
  ∃ part parts, cs = part.raw ++ layout bar parts ∧
    List.Forall₂ (fun part : Part Unit => PathForm part.raw) (part :: parts) paths

/-! Predicates are read by their forms -/

section Predicates

variable {cs : List Char} {p : Predicate}

theorem isLast_eq_true_iff : isLast cs = true ↔ ∃ space, AllBlank space ∧
    cs = ['l', 'a', 's', 't', '('] ++ (space ++ [')']) := by
  have hopening : "last(".toList = ['l', 'a', 's', 't', '('] := String.toList_ofList
  have hclose : isBlank ')' = false := isBlank_eq_false (by decide) (by decide)
  unfold isLast
  rw [hopening]
  constructor
  · intro h
    split at h
    · rename_i rest hrest
      obtain ⟨space, hspace, htrim⟩ := exists_trimStart rest
      rw [of_decide_eq_true h] at htrim
      exact ⟨space, hspace, by rw [dropLeading?_eq_some_iff.mp hrest, htrim]⟩
    · cases h
  · rintro ⟨space, hspace, rfl⟩
    rw [dropLeading?_eq_some_iff.mpr rfl]
    dsimp only
    rw [trimStart_append_of_allBlank hspace, trimStart_cons_of_not_blank hclose]
    rfl

theorem positionPredicate?_eq_ok_iff : positionPredicate? cs = some (.ok p) ↔
    cs ≠ [] ∧ (∀ c ∈ cs, isAsciiDigit c = true) ∧ 1 ≤ decimalValue cs ∧
      decimalValue cs < positionLimit ∧ p = .position (decimalValue cs) := by
  unfold positionPredicate?
  constructor
  · intro h
    split_ifs at h with hdigits hvalue
    · cases h
      rw [Bool.or_eq_true, not_or, List.isEmpty_iff] at hdigits
      rw [Bool.and_eq_true, Bool.and_eq_true, List.all_eq_true, decide_eq_true_eq,
        decide_eq_true_eq] at hvalue
      exact ⟨hdigits.1, hvalue.1.1, hvalue.1.2, hvalue.2, rfl⟩
    · cases h
  · rintro ⟨hne, hdigits, hpos, hlimit, rfl⟩
    have hempty : cs.isEmpty = false := List.isEmpty_eq_false_iff.mpr hne
    have hdecimal : cs.all isDecimalDigit = true :=
      List.all_eq_true.mpr fun c hc => isDecimalDigit_of_isAsciiDigit (hdigits c hc)
    have hascii : cs.all isAsciiDigit = true := List.all_eq_true.mpr hdigits
    have hpos' : 0 < decimalValue cs := hpos
    simp [hempty, hdecimal, hascii, hpos', hlimit]

/-- A text in brackets is read as a predicate just when it has the form of that predicate. -/
theorem readPredicate_eq_ok_iff_form : readPredicate cs = .ok p ↔ PredicateForm cs p := by
  rw [readPredicate_eq_ok_iff]
  constructor
  · rintro (ha | hc | hd | ⟨-, -, -, hp | ⟨-, hlast, rfl⟩⟩)
    · obtain ⟨name, rest, test, rfl, hname, hrest⟩ := attributePredicate?_eq_some_iff.mp ha
      exact .attr hname hrest
    · obtain ⟨call, rfl, rfl⟩ := containsPredicate?_eq_some_iff.mp hc
      exact .nameContains call
    · obtain ⟨name, value, localName, rfl, hname, rfl⟩ := childPredicate?_eq_some_iff.mp hd
      exact .child hname value
    · obtain ⟨hne, hdigits, hpos, hlimit, rfl⟩ := positionPredicate?_eq_ok_iff.mp hp
      exact .position hne hdigits hpos hlimit
    · obtain ⟨space, hspace, rfl⟩ := isLast_eq_true_iff.mp hlast
      exact .last hspace
  · intro h
    cases h with
    | attr hname hrest =>
      exact .inl (attributePredicate?_eq_some_iff.mpr ⟨_, _, _, rfl, hname, hrest⟩)
    | child hname value =>
      exact .inr (.inr (.inl (childPredicate?_eq_some_iff.mpr ⟨_, _, _, rfl, hname, rfl⟩)))
    | nameContains call =>
      exact .inr (.inl (containsPredicate?_eq_some_iff.mpr ⟨call, rfl, rfl⟩))
    | position hne hdigits hpos hlimit =>
      have hnone {c : Char} (hc : isAsciiDigit c = false) : c ∉ cs := by
        intro hmem
        rw [hdigits c hmem] at hc
        cases hc
      obtain ⟨ha, hc, hd⟩ :=
        predicates_eq_none (hnone (by decide)) (hnone (by decide)) (hnone (by decide))
      have hread := positionPredicate?_eq_ok_iff.mpr ⟨hne, hdigits, hpos, hlimit, rfl⟩
      exact .inr (.inr (.inr ⟨ha, hc, hd, .inl hread⟩))
    | @last space hspace =>
      -- none of the characters that the other predicates need is white space
      have hnone {c : Char} (hblank : isBlank c = false)
          (hc : c ∉ ['l', 'a', 's', 't', '(', ')']) :
          c ∉ ['l', 'a', 's', 't', '('] ++ (space ++ [')']) := by
        have hspace := hspace.not_mem hblank
        simp only [List.mem_append, List.mem_cons] at hc ⊢
        tauto
      obtain ⟨ha, hc, hd⟩ := predicates_eq_none
        (hnone (isBlank_eq_false (c := '@') (by decide) (by decide)) (by decide))
        (hnone (isBlank_eq_false (c := 'c') (by decide) (by decide)) (by decide))
        (hnone (isBlank_eq_false (c := '=') (by decide) (by decide)) (by decide))
      have hposition : positionPredicate? (['l', 'a', 's', 't', '('] ++ (space ++ [')'])) = none := by
        have hdigit : isDecimalDigit 'l' = false := by with_unfolding_all rfl
        simp [positionPredicate?, hdigit]
      have hlast := isLast_eq_true_iff.mpr ⟨space, hspace, rfl⟩
      exact .inr (.inr (.inr ⟨ha, hc, hd, .inr ⟨hposition, hlast, rfl⟩⟩))

end Predicates

/-! Nothing of these forms is cut: their brackets nest three times at most -/

section Level

variable {d : Delimiters} {cs raw : List Char} {p : Predicate} {n : Nat}

theorem Delimiters.InUse.level_of_allBlank (hd : d.InUse) (h : AllBlank cs) : d.Level n cs := by
  apply Delimiters.Level.of_not_marks
  intro c hc
  apply hd.marks_eq_false
  intro hmem
  have hmark : markChars.all (fun x => 0x20 < x.toNat && x.toNat < 0x85) = true := by decide
  have hrange := List.all_eq_true.mp hmark c hmem
  rw [Bool.and_eq_true, decide_eq_true_eq, decide_eq_true_eq] at hrange
  have hblank := h c hc
  rw [isBlank_eq_false hrange.1 hrange.2] at hblank
  cases hblank

theorem Delimiters.InUse.level_of_trim (hd : d.InUse) (h : d.Level n (trim cs)) : d.Level n cs := by
  obtain ⟨pre, post, hpre, hpost, hcs⟩ := exists_trim cs
  rw [hcs]
  exact (hd.level_of_allBlank hpre).append (h.append (hd.level_of_allBlank hpost))

theorem Delimiters.InUse.level_of_nameTest? (hd : d.InUse) {test : NameTest}
    (h : nameTest? cs = some test) : d.Level n cs :=
  hd.level_of_isTestChar (isTestChar_of_nameTest? h)

theorem Comparison.level (hd : d.InUse) (k : Comparison) {op : List Char} (hop : d.Level n op) :
    d.Level n (k.written op) :=
  (hd.level_of_allBlank k.before_blank).append
    (hop.append ((hd.level_of_allBlank k.behind_blank).append
      (.literal k.isQuote_quote k.quote_not_mem)))

theorem AttributeTail.level (hd : d.InUse) {test : NameTest} (h : AttributeTail test cs p) :
    d.Level n cs := by
  cases h with
  | present hspace => exact hd.level_of_allBlank hspace
  | equal k => exact k.level hd (hd.level_of_all (by decide))
  | differs k => exact k.level hd (hd.level_of_all (by decide))

/-- The two pairs of parentheses match, one within the other. -/
theorem NameCall.level (hd : d.InUse) (n : NameCall) : d.Level 2 n.written := by
  have hword {k : Nat} {word : List Char}
      (h : word.all (fun c => !markChars.contains c) = true) : d.Level k word :=
    hd.level_of_all h
  have hlocal : d.Level 1 (if n.isLocal then ['l', 'o', 'c', 'a', 'l', '-'] else []) := by
    cases n.isLocal
    · exact .nil
    · exact hword (by decide)
  have hname : d.Level 1 (['n', 'a', 'm', 'e'] ++ '(' :: (n.inner ++ [')'])) :=
    (hword (by decide)).append (hd.parentheses (hd.level_of_allBlank n.inner_blank))
  have hliteral : d.Level 1 (n.quote :: (n.text ++ [n.quote])) :=
    .literal n.isQuote_quote n.quote_not_mem
  have hcomma : d.Level 1 (n.behind ++ ([','] ++ n.argument)) :=
    (hd.level_of_allBlank n.behind_blank).append
      ((hword (by decide)).append (hd.level_of_allBlank n.argument_blank))
  have hinner := (hd.level_of_allBlank n.outer_blank).append (hlocal.append (hname.append
    (hcomma.append (hliteral.append (hd.level_of_allBlank n.last_blank)))))
  have hcontains : d.Level 2 ['c', 'o', 'n', 't', 'a', 'i', 'n', 's'] := hword (by decide)
  have hall := hcontains.append (hd.parentheses hinner)
  rw [NameCall.written, n.opening_eq]
  simpa using hall

theorem PredicateForm.level (hd : d.InUse) (h : PredicateForm cs p) : d.Level 2 cs := by
  have hat : d.Level 2 ['@'] := hd.level_of_all (by decide)
  cases h with
  | attr hname hrest =>
    exact hat.append ((hd.level_of_nameTest? hname).append (hrest.level hd))
  | child hname value =>
    exact (hd.level_of_nameTest? hname).append (value.level hd (hd.level_of_all (by decide)))
  | nameContains call => exact call.level hd
  | position _ hdigits _ _ =>
    exact hd.level_of_isTestChar fun c hc => isTestChar_of_isAsciiDigit (hdigits c hc)
  | last hspace =>
    have hlast : d.Level 2 ['l', 'a', 's', 't'] := hd.level_of_all (by decide)
    exact hlast.append (hd.parentheses (hd.level_of_allBlank hspace))

theorem GroupForm.level (hd : d.InUse) {g : Group} (h : GroupForm g p) : d.Level 3 g.text :=
  (hd.level_of_allBlank h.space_blank).append
    (hd.brackets (hd.level_of_trim (h.inner.level hd)))

theorem StepForm.level (hd : d.InUse) {descendant : Bool} {s : Step}
    (h : StepForm descendant raw s) : d.Level 3 raw := by
  have hat : d.Level 3 ['@'] := hd.level_of_all (by decide)
  cases h with
  | self hraw | parent hraw =>
    apply hd.level_of_trim
    rw [hraw]
    exact hd.level_of_all (by decide)
  | attr hpre hname =>
    exact (hd.level_of_allBlank hpre).append
      (hat.append (hd.level_of_trim (hd.level_of_nameTest? hname)))
  | named _ hname hgroups hspace =>
    refine (hd.level_of_trim (hd.level_of_nameTest? hname)).append
      (.append (.flatMap ?_) (hd.level_of_allBlank hspace))
    intro g hg
    obtain ⟨p, -, hp⟩ := exists_of_mem_forall₂ hgroups hg
    exact hp.level hd

/-- No bar stands among the slashes and the steps of a path. -/
theorem StepsForm.level_layout {parts : List (Part Bool)} {steps : List Step}
    (h : StepsForm parts steps) : (Delimiters.atTop '|').Level 3 (layout slashes parts) := by
  apply Delimiters.Level.flatMap
  intro part hpart
  obtain ⟨s, -, hs⟩ := exists_of_mem_forall₂ h hpart
  have hlead : (Delimiters.atTop '|').Level 3 (slashes part.kind) := by
    apply Delimiters.Level.of_not_marks
    cases part.kind <;> simp [slashes, Delimiters.marks, Delimiters.atTop, isQuote]
  exact hlead.append (hs.level .alternatives)

theorem PathForm.level {path : LocationPath} (h : PathForm cs path) :
    (Delimiters.atTop '|').Level 3 cs := by
  have hd : (Delimiters.atTop '|').InUse := .alternatives
  cases h with
  | root hcs =>
    apply hd.level_of_trim
    rw [hcs]
    exact .of_not_marks (by simp [Delimiters.marks, Delimiters.atTop, isQuote])
  | absolute hpre _ hsteps => exact (hd.level_of_allBlank hpre).append hsteps.level_layout
  | relative hsteps =>
    rcases hsteps with _ | ⟨hfirst, hrest⟩
    exact (hfirst.level hd).append (StepsForm.level_layout hrest)

end Level

/-! Steps, paths and expressions are read by their forms -/

section Reading

variable {cs : List Char}

theorem readsPredicate_eq : ReadsPredicate = GroupForm := by
  funext g p
  apply propext
  rw [ReadsPredicate, readPredicate_eq_ok_iff_form]
  constructor
  · rintro ⟨⟨hspace, -⟩, hinner⟩
    exact ⟨hspace, hinner⟩
  · rintro ⟨hspace, hinner⟩
    have hd : Delimiters.groups.InUse := .groups
    exact ⟨⟨hspace, (hd.level_of_trim (hinner.level hd)).closed (by decide)⟩, hinner⟩

theorem open_not_mem_of_nameTest? {test : NameTest} (h : nameTest? (trim cs) = some test) :
    '[' ∉ cs := by
  obtain ⟨pre, post, hpre, hpost, hcs⟩ := exists_trim cs
  have hblank : isBlank '[' = false := isBlank_eq_false (by decide) (by decide)
  rw [hcs, List.mem_append, List.mem_append, not_or, not_or]
  refine ⟨hpre.not_mem hblank, ?_, hpost.not_mem hblank⟩
  intro hmem
  have htest := isTestChar_of_nameTest? h _ hmem
  rw [isTestChar_of_mem_markChars (by simp [markChars])] at htest
  cases htest

theorem readStep_eq_ok_iff_form {descendant : Bool} {raw : List Char} {s : Step} :
    readStep descendant raw = .ok s ↔ StepForm descendant raw s := by
  rw [readStep_eq_ok_iff_layout, readsPredicate_eq]
  constructor
  · rintro (⟨hraw, rfl, rfl⟩ | ⟨hraw, rfl, rfl⟩ | ⟨pre, rest, test, hpre, rfl, htest, rfl, rfl⟩ |
      ⟨name, gs, space, test, ps, rfl, -, htest, hspace, hgs, rfl⟩)
    · exact .self hraw
    · exact .parent hraw
    · exact .attr hpre htest
    · exact .named descendant htest hgs hspace
  · intro h
    cases h with
    | self hraw => exact .inl ⟨hraw, rfl, rfl⟩
    | parent hraw => exact .inr (.inl ⟨hraw, rfl, rfl⟩)
    | attr hpre hname => exact .inr (.inr (.inl ⟨_, _, _, hpre, rfl, hname, rfl, rfl⟩))
    | named _ hname hgroups hspace =>
      exact .inr (.inr (.inr ⟨_, _, _, _, _, rfl, open_not_mem_of_nameTest? hname, hname, hspace,
        hgroups, rfl⟩))

theorem readsStep_eq : ReadsStep = fun part => StepForm part.kind part.raw := by
  funext part s
  apply propext
  rw [ReadsStep, readStep_eq_ok_iff_form, and_iff_right_of_imp]
  exact fun h => (h.level .steps).closed (by decide)

theorem readsPath_eq : ReadsPath = fun part => PathForm part.raw := by
  funext part path
  apply propext
  have hread (hclosed : (Delimiters.atTop '|').Closed part.raw) :
      readLocationPath (trim part.raw) = .ok path ↔ PathForm part.raw path := by
    rw [readLocationPath_trim_eq_ok_iff hclosed, readsStep_eq]
    constructor
    · rintro (⟨hroot, rfl⟩ | ⟨pre, ps, steps, hpre, hne, htext, hps, rfl⟩ |
        ⟨raw, ps, steps, htext, hps, rfl⟩)
      · exact .root hroot
      · rw [htext]
        exact .absolute hpre hne hps
      · rw [htext]
        exact .relative hps
    · intro h
      obtain ⟨_, raw⟩ := part
      cases h with
      | root hcs => exact .inl ⟨hcs, rfl⟩
      | absolute hpre hne hsteps =>
        exact .inr (.inl ⟨_, _, _, hpre, hne, rfl, hsteps, rfl⟩)
      | relative hsteps => exact .inr (.inr ⟨_, _, _, rfl, hsteps, rfl⟩)
  rw [ReadsPath, and_congr_right hread, and_iff_right_of_imp]
  exact fun h => h.level.closed (by decide)

theorem readAlternatives_eq_ok_iff_form {paths : List LocationPath} :
    readAlternatives cs = .ok paths ↔ ExpressionForm cs paths := by
  rw [readAlternatives_eq_ok_iff, readsPath_eq]
  rfl

end Reading

end TransitAudit.Path
