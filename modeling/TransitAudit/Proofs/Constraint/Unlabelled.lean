import TransitAudit.Proofs.Constraint.Stripping
import TransitAudit.Proofs.Path.Literals
import TransitAudit.Proofs.Path.PredicateText

/-! Path expressions without a label. Removing the label of a namespace from the text of an
expression leaves an expression with the same steps, whose literals are the old ones without the
label. -/
namespace TransitAudit

open Text TransitAudit.Path

/-! Predicates -/

section Predicates

variable {label : String} {name pre cs : List Char} {t : NameTest} {p : Predicate} {o : Char}
  {op : List Char}

theorem divides_of_isQuote {q : Char} (hq : isQuote q = true) : Divides q := by
  apply divides_of_mem
  rcases isQuote_iff.mp hq with rfl | rfl
  · decide
  · decide

/-- Between quotes a text is treated by itself. -/
theorem unlabelled_quoted (hlabel : Xml.IsLocalName label) {q : Char} (hq : isQuote q = true)
    {before after : List Char} (hbefore : ':' ∉ before) (hafter : ':' ∉ after) (text : List Char) :
    unlabelled label (before ++ q :: (text ++ q :: after)) =
      before ++ q :: (unlabelled label text ++ q :: after) := by
  have hdivides := divides_of_isQuote hq
  rw [unlabelled_append_cons hlabel hdivides, unlabelled_append_cons hlabel hdivides,
    unlabelled_of_not_mem hbefore, unlabelled_of_not_mem hafter]

/-- The comparison with the literal without the label. -/
def Path.Comparison.unlabelled (label : String) (k : Comparison) : Comparison :=
  { k with
    text := TransitAudit.unlabelled label k.text
    quote_not_mem := not_mem_unlabelled k.quote_not_mem }

def Path.NameCall.unlabelled (label : String) (n : NameCall) : NameCall :=
  { n with
    text := TransitAudit.unlabelled label n.text
    quote_not_mem := not_mem_unlabelled n.quote_not_mem }

/-- A name and a comparison behind it. -/
theorem exists_unlabelled_comparison (hlabel : Xml.IsLocalName label)
    (hname : nameTest? name = some t) (hpre : AllBlank pre) (ho : Divides o) (hop : ':' ∉ op)
    (k : Comparison) :
    ∃ pre' name', pre' <+: pre ∧ nameTest? name' = some t ∧
      unlabelled label (pre ++ (name ++ k.written (o :: op))) =
        pre' ++ (name' ++ (k.unlabelled label).written (o :: op)) := by
  obtain ⟨pre', name', hpre', hname', htext⟩ := exists_unlabelled_name hlabel hname hpre
  refine ⟨pre', name', hpre', hname', ?_⟩
  have hbefore := colon_not_mem_of_allBlank k.before_blank
  have hbehind := colon_not_mem_of_allBlank k.behind_blank
  -- the operator divides the text, and in front of it stands no literal
  calc unlabelled label (pre ++ (name ++ k.written (o :: op)))
      = unlabelled label ((pre ++ name ++ k.before) ++
          o :: ((op ++ k.behind) ++ k.quote :: (k.text ++ k.quote :: []))) := by
        simp [Comparison.written]
    _ = unlabelled label (pre ++ name) ++ k.before ++
          o :: ((op ++ k.behind) ++ k.quote :: (unlabelled label k.text ++ k.quote :: [])) := by
        rw [unlabelled_append_cons hlabel ho, unlabelled_append_of_not_mem hbefore,
          unlabelled_quoted hlabel k.isQuote_quote (by simp [hop, hbehind]) (by simp)]
    _ = pre' ++ (name' ++ (k.unlabelled label).written (o :: op)) := by
        rw [htext]
        simp [Comparison.written, Comparison.unlabelled]

theorem stripLabel_ofList (label : String) (cs : List Char) :
    stripLabel (some label) (String.ofList cs) = String.ofList (unlabelled label cs) := by
  rw [stripLabel, String.toList_ofList]
  rfl

/-- White space behind the text of an attribute plays no part. -/
theorem exists_tail_trimEnd {rest : List Char} (hname : nameTest? name = some t)
    (h : AttributeTail t rest p) :
    ∃ rest', trimEnd (name ++ rest) = name ++ rest' ∧ AttributeTail t rest' p := by
  cases h with
  | present hspace =>
    refine ⟨[], ?_, .present .nil⟩
    rw [trimEnd_append_of_allBlank hspace, trimEnd_name hname, List.append_nil]
  | equal k => exact ⟨_, k.trimEnd_append_written _ name, .equal k⟩
  | differs k => exact ⟨_, k.trimEnd_append_written _ name, .differs k⟩

theorem exists_unlabelled_tail (hlabel : Xml.IsLocalName label) {rest : List Char}
    (hname : nameTest? name = some t) (h : AttributeTail t rest p) :
    ∃ name' rest', nameTest? name' = some t ∧
      AttributeTail t rest' (p.mapLiteral (stripLabel (some label))) ∧
      unlabelled label (name ++ rest) = name' ++ rest' := by
  have hequals : Divides '=' := divides_of_mem (by decide)
  have hexclamation : Divides '!' := divides_of_mem (by decide)
  -- nothing stands between the at sign and the name, and so nothing else goes with a label
  cases h with
  | present hspace =>
    obtain ⟨pre', name', hpre', hname', htext⟩ := exists_unlabelled_name hlabel hname .nil
    obtain rfl := List.prefix_nil.mp hpre'
    refine ⟨name', rest, hname', .present hspace, ?_⟩
    rw [unlabelled_append_of_not_mem (colon_not_mem_of_allBlank hspace)]
    exact congrArg (· ++ rest) htext
  | equal k =>
    obtain ⟨pre', name', hpre', hname', htext⟩ :=
      exists_unlabelled_comparison hlabel hname .nil hequals List.not_mem_nil k
    obtain rfl := List.prefix_nil.mp hpre'
    refine ⟨name', _, hname', ?_, htext⟩
    rw [Predicate.mapLiteral, stripLabel_ofList]
    exact .equal (k.unlabelled label)
  | differs k =>
    obtain ⟨pre', name', hpre', hname', htext⟩ :=
      exists_unlabelled_comparison hlabel hname .nil hexclamation (by decide : ':' ∉ ['=']) k
    obtain rfl := List.prefix_nil.mp hpre'
    refine ⟨name', _, hname', ?_, htext⟩
    rw [Predicate.mapLiteral, stripLabel_ofList]
    exact .differs (k.unlabelled label)

theorem attributePredicate?_unlabelled (hlabel : Xml.IsLocalName label) (hpre : AllBlank pre)
    (h : attributePredicate? cs = some p) :
    attributePredicate? (trim (unlabelled label (pre ++ cs))) =
      some (p.mapLiteral (stripLabel (some label))) := by
  have hat : Divides '@' := divides_of_mem (by decide)
  obtain ⟨name, rest, t, rfl, hname, htail⟩ := attributePredicate?_eq_some_iff.mp h
  obtain ⟨name', rest', hname', htail', htext⟩ := exists_unlabelled_tail hlabel hname htail
  obtain ⟨rest'', htrim, htail''⟩ := exists_tail_trimEnd hname' htail'
  rw [unlabelled_append_cons hlabel hat, unlabelled_of_not_mem (colon_not_mem_of_allBlank hpre),
    trim_append_of_allBlank hpre, trim_cons_of_not_blank (isBlank_eq_false (by decide) (by decide)),
    htext, htrim]
  exact attributePredicate?_eq_some_iff.mpr ⟨name', rest'', t, rfl, hname', htail''⟩

theorem childPredicate?_unlabelled (hlabel : Xml.IsLocalName label) (hpre : AllBlank pre)
    (h : childPredicate? cs = some p) :
    childPredicate? (trim (unlabelled label (pre ++ cs))) =
      some (p.mapLiteral (stripLabel (some label))) := by
  have hequals : Divides '=' := divides_of_mem (by decide)
  obtain ⟨name, k, localName, rfl, hname, rfl⟩ := childPredicate?_eq_some_iff.mp h
  obtain ⟨pre', name', hpre', hname', htext⟩ :=
    exists_unlabelled_comparison hlabel hname hpre hequals List.not_mem_nil k
  have hblank : AllBlank pre' := hpre.of_isPrefix hpre'
  have htrim : trim (name' ++ (k.unlabelled label).written ['=']) =
      name' ++ (k.unlabelled label).written ['='] := by
    obtain ⟨c, rest, rfl, hc⟩ := begins_of_nameTest? hname'
    rw [List.cons_append, trim_cons_of_not_blank (isBlank_of_begins hc),
      Comparison.trimEnd_append_written]
  rw [htext, trim_append_of_allBlank hblank, htrim]
  refine childPredicate?_eq_some_iff.mpr ⟨name', k.unlabelled label, localName, rfl, hname', ?_⟩
  rw [Predicate.mapLiteral, stripLabel_ofList]
  rfl

theorem containsPredicate?_unlabelled (hlabel : Xml.IsLocalName label) (hpre : AllBlank pre)
    (h : containsPredicate? cs = some p) :
    containsPredicate? (trim (unlabelled label (pre ++ cs))) =
      some (p.mapLiteral (stripLabel (some label))) := by
  obtain ⟨n, rfl, rfl⟩ := containsPredicate?_eq_some_iff.mp h
  -- the first colon of the text can only stand in the literal
  have hbefore : ':' ∉ pre ++ n.opening := by
    rw [List.mem_append, not_or]
    exact ⟨colon_not_mem_of_allBlank hpre, n.colon_not_mem_opening⟩
  have hafter : ':' ∉ n.last ++ [')'] := by
    simp [colon_not_mem_of_allBlank n.last_blank]
  have htext : unlabelled label (pre ++ n.written) = pre ++ (n.unlabelled label).written := by
    have hquoted := unlabelled_quoted hlabel n.isQuote_quote hbefore hafter n.text
    rw [List.append_assoc, List.append_assoc] at hquoted
    exact hquoted
  have htrim : trim (n.unlabelled label).written = (n.unlabelled label).written :=
    (n.unlabelled label).trim_written
  rw [htext, trim_append_of_allBlank hpre, htrim]
  refine containsPredicate?_eq_some_iff.mpr ⟨n.unlabelled label, rfl, ?_⟩
  rw [Predicate.mapLiteral, stripLabel_ofList]
  rfl

/-- A predicate is read as before, with the literal without the label. -/
theorem readPredicate_unlabelled (hlabel : Xml.IsLocalName label)
    (h : readPredicate (trim cs) = .ok p) :
    readPredicate (trim (unlabelled label cs)) =
      .ok (p.mapLiteral (stripLabel (some label))) := by
  -- behind the predicate nothing is removed; in front of it a label may reach into the white space
  obtain ⟨pre, post, hpre, hpost, hcs⟩ := exists_trim cs
  have htrim : trim (unlabelled label cs) = trim (unlabelled label (pre ++ trim cs)) := by
    rw [← List.append_assoc] at hcs
    conv_lhs => rw [hcs]
    rw [unlabelled_append_of_not_mem (colon_not_mem_of_allBlank hpost),
      trim_append_right_of_allBlank hpost]
  have hsame (hnone : ':' ∉ trim cs) : trim (unlabelled label (pre ++ trim cs)) = trim cs := by
    rw [unlabelled_of_not_mem (by simp [colon_not_mem_of_allBlank hpre, hnone]),
      trim_append_of_allBlank hpre, trim_trim]
  rw [htrim]
  rcases readPredicate_eq_ok_iff.mp h with ha | hc | hd | ⟨-, -, -, hp | ⟨-, hlast, rfl⟩⟩
  · exact readPredicate_eq_ok_iff.mpr (.inl (attributePredicate?_unlabelled hlabel hpre ha))
  · exact readPredicate_eq_ok_iff.mpr (.inr (.inl (containsPredicate?_unlabelled hlabel hpre hc)))
  · exact readPredicate_eq_ok_iff.mpr
      (.inr (.inr (.inl (childPredicate?_unlabelled hlabel hpre hd))))
  · -- positions have neither a colon nor a literal
    obtain ⟨hnone, number, rfl⟩ := colon_not_mem_of_positionPredicate? hp
    rw [hsame hnone]
    exact h
  · rw [hsame (colon_not_mem_of_isLast hlast)]
    exact h

end Predicates

/-! Steps -/

section Steps

variable {label : String} {cs raw name : List Char} {t : NameTest} {p : Predicate}
  {ps : List Predicate} {s : Step} {descendant : Bool}

theorem divides_of_marks_groups {c : Char} (hc : Delimiters.groups.marks c = true) :
    Divides c := by
  simp only [Delimiters.marks, Delimiters.groups, Bool.or_eq_true, decide_eq_true_eq,
    Bool.false_eq_true, or_false] at hc
  rcases hc with (hquote | rfl) | rfl
  · exact divides_of_isQuote hquote
  · exact divides_of_mem (by decide)
  · exact divides_of_mem (by decide)

theorem divides_of_marks_atTop {sep c : Char} (hsep : Divides sep)
    (hc : (Delimiters.atTop sep).marks c = true) : Divides c := by
  simp only [Delimiters.marks, Delimiters.atTop, Bool.or_eq_true, decide_eq_true_eq] at hc
  rcases hc with ((hquote | rfl | rfl) | rfl | rfl) | rfl
  · exact divides_of_isQuote hquote
  · exact divides_of_mem (by decide)
  · exact divides_of_mem (by decide)
  · exact divides_of_mem (by decide)
  · exact divides_of_mem (by decide)
  · exact hsep

def Path.Group.unlabelled (label : String) (g : Group) : Group :=
  ⟨g.space, TransitAudit.unlabelled label g.inner⟩

theorem readsPredicate_unlabelled (hlabel : Xml.IsLocalName label) {g : Group}
    (h : ReadsPredicate g p) :
    ReadsPredicate (g.unlabelled label) (p.mapLiteral (stripLabel (some label))) := by
  obtain ⟨⟨hspace, hinner⟩, hread⟩ := h
  refine ⟨⟨hspace, ?_⟩, readPredicate_unlabelled hlabel hread⟩
  exact (closed_unlabelled_iff hlabel fun _ => divides_of_marks_groups).mpr hinner

/-- Groups keep their brackets, and what stands in front of them is treated by itself. -/
theorem unlabelled_append_groups (hlabel : Xml.IsLocalName label) {gs : List Group}
    (hgs : List.Forall₂ ReadsPredicate gs ps) {space : List Char} (hspace : AllBlank space)
    (cs : List Char) :
    unlabelled label (cs ++ (gs.flatMap Group.text ++ space)) =
      unlabelled label cs ++ ((gs.map (Group.unlabelled label)).flatMap Group.text ++ space) := by
  have hopen : Divides '[' := divides_of_mem (by decide)
  have hclose : Divides ']' := divides_of_mem (by decide)
  induction hgs generalizing cs with
  | nil => exact unlabelled_append_of_not_mem (colon_not_mem_of_allBlank hspace) cs
  | @cons g p gs ps hg _ ih =>
    have hrest := ih []
    have hbefore := colon_not_mem_of_allBlank hg.1.space_blank
    calc unlabelled label (cs ++ ((g :: gs).flatMap Group.text ++ space))
        = unlabelled label ((cs ++ g.space) ++ '[' :: (g.inner ++ ']' ::
            ([] ++ (gs.flatMap Group.text ++ space)))) := by simp [Group.text]
      _ = (unlabelled label cs ++ g.space) ++ '[' :: (unlabelled label g.inner ++ ']' ::
            (unlabelled label [] ++
              ((gs.map (Group.unlabelled label)).flatMap Group.text ++ space))) := by
          rw [unlabelled_append_cons hlabel hopen, unlabelled_append_cons hlabel hclose,
            unlabelled_append_of_not_mem hbefore, hrest]
      _ = _ := by simp [Group.text, Group.unlabelled, unlabelled, stripFrom]

theorem nameTest?_unlabelled (hlabel : Xml.IsLocalName label)
    (h : nameTest? (trim cs) = some t) : nameTest? (trim (unlabelled label cs)) = some t := by
  obtain ⟨pre, post, hpre, hpost, hcs⟩ := exists_trim cs
  obtain ⟨pre', name', hpre', hname', htext⟩ := exists_unlabelled_name hlabel h hpre
  have hblank : AllBlank pre' := hpre.of_isPrefix hpre'
  rw [← List.append_assoc] at hcs
  rw [hcs, unlabelled_append_of_not_mem (colon_not_mem_of_allBlank hpost), htext,
    trim_append_right_of_allBlank hpost, trim_append_of_allBlank hblank, trim_name hname']
  exact hname'

/-- A step is read as before, with the literals without the label. -/
theorem readStep_unlabelled (hlabel : Xml.IsLocalName label)
    (h : readStep descendant raw = .ok s) :
    readStep descendant (unlabelled label raw) =
      .ok (s.mapLiterals (stripLabel (some label))) := by
  have hsame (hnone : ':' ∉ trim raw) : unlabelled label raw = raw := by
    obtain ⟨pre, post, hpre, hpost, hraw⟩ := exists_trim raw
    apply unlabelled_of_not_mem
    rw [hraw]
    simp [colon_not_mem_of_allBlank hpre, colon_not_mem_of_allBlank hpost, hnone]
  -- dots have no name, an attribute has one name, and any other step a name and groups
  rcases readStep_eq_ok_iff_layout.mp h with
    ⟨htext, -, rfl⟩ | ⟨htext, -, rfl⟩ | ⟨pre, rest, test, hpre, rfl, htest, hd, rfl⟩ |
      ⟨name, gs, space, test, ps, rfl, hname, htest, hspace, hgs, rfl⟩
  · rw [hsame (by simp [htext])]
    exact h
  · rw [hsame (by simp [htext])]
    exact h
  · have hat : Divides '@' := divides_of_mem (by decide)
    rw [unlabelled_append_cons hlabel hat, unlabelled_of_not_mem (colon_not_mem_of_allBlank hpre)]
    exact readStep_eq_ok_iff_layout.mpr (.inr (.inr (.inl
      ⟨pre, _, test, hpre, rfl, nameTest?_unlabelled hlabel htest, hd, rfl⟩)))
  · rw [unlabelled_append_groups hlabel hgs hspace]
    refine readStep_eq_ok_iff_layout.mpr (.inr (.inr (.inr ⟨_, _, space, test, _, rfl,
      not_mem_unlabelled hname, nameTest?_unlabelled hlabel htest, hspace, ?_, rfl⟩)))
    rw [List.forall₂_map_left_iff, List.forall₂_map_right_iff]
    exact hgs.imp fun _ _ => readsPredicate_unlabelled hlabel

end Steps

/-! Paths and alternatives -/

section Paths

variable {label : String} {κ : Type} {lead : κ → List Char} {cs : List Char}
  {path : LocationPath} {paths : List LocationPath}

def Path.Part.unlabelled (label : String) (p : Path.Part κ) : Path.Part κ :=
  ⟨p.kind, TransitAudit.unlabelled label p.raw⟩

/-- Parts of a row are treated by themselves. -/
theorem unlabelled_append_layout (hlabel : Xml.IsLocalName label)
    (hlead : ∀ k, lead k ≠ [] ∧ ∀ c ∈ lead k, Divides c) (ps : List (Path.Part κ))
    (cs : List Char) :
    unlabelled label (cs ++ layout lead ps) =
      unlabelled label cs ++ layout lead (ps.map (Path.Part.unlabelled label)) := by
  induction ps generalizing cs with
  | nil => simp [layout]
  | cons p ps ih =>
    obtain ⟨hne, hdivides⟩ := hlead p.kind
    rw [List.map_cons, layout_cons, layout_cons,
      unlabelled_append_append hlabel hne hdivides, ih]
    rfl

theorem slashes_divide (descendant : Bool) :
    slashes descendant ≠ [] ∧ ∀ c ∈ slashes descendant, Divides c := by
  have hslash : Divides '/' := divides_of_mem (by decide)
  cases descendant <;> simp [slashes, hslash]

theorem bar_divides (k : Unit) : bar k ≠ [] ∧ ∀ c ∈ bar k, Divides c := by
  have hbar : Divides '|' := divides_of_mem (by decide)
  simp [bar, hbar]

theorem readsStep_unlabelled (hlabel : Xml.IsLocalName label) {p : Path.Part Bool} {s : Step}
    (h : ReadsStep p s) :
    ReadsStep (p.unlabelled label) (s.mapLiterals (stripLabel (some label))) := by
  have hslash : Divides '/' := divides_of_mem (by decide)
  obtain ⟨hclosed, hread⟩ := h
  refine ⟨?_, readStep_unlabelled hlabel hread⟩
  exact (closed_unlabelled_iff hlabel fun _ => divides_of_marks_atTop hslash).mpr hclosed

theorem readsSteps_unlabelled (hlabel : Xml.IsLocalName label) {ps : List (Path.Part Bool)}
    {steps : List Step} (h : List.Forall₂ ReadsStep ps steps) :
    List.Forall₂ ReadsStep (ps.map (Path.Part.unlabelled label))
      (steps.map (·.mapLiterals (stripLabel (some label)))) := by
  rw [List.forall₂_map_left_iff, List.forall₂_map_right_iff]
  exact h.imp fun _ _ => readsStep_unlabelled hlabel

theorem closed_unlabelled_bar (hlabel : Xml.IsLocalName label) :
    (Delimiters.atTop '|').Closed (unlabelled label cs) ↔ (Delimiters.atTop '|').Closed cs := by
  have hbar : Divides '|' := divides_of_mem (by decide)
  exact closed_unlabelled_iff hlabel fun _ => divides_of_marks_atTop hbar

theorem readLocationPath_unlabelled (hlabel : Xml.IsLocalName label)
    (hclosed : (Delimiters.atTop '|').Closed cs) (h : readLocationPath (trim cs) = .ok path) :
    readLocationPath (trim (unlabelled label cs)) =
      .ok (path.mapLiterals (stripLabel (some label))) := by
  have hclosed' := (closed_unlabelled_bar hlabel).mpr hclosed
  -- a single slash, steps behind slashes, or a row that begins with a step
  rcases (readLocationPath_trim_eq_ok_iff hclosed).mp h with
    ⟨htext, rfl⟩ | ⟨pre, ps, steps, hpre, hne, rfl, hps, rfl⟩ | ⟨raw, ps, steps, rfl, hps, rfl⟩
  · obtain ⟨pre, post, hpre, hpost, hcs⟩ := exists_trim cs
    have hnone : ':' ∉ cs := by
      rw [hcs, htext]
      simp [colon_not_mem_of_allBlank hpre, colon_not_mem_of_allBlank hpost]
    rw [unlabelled_of_not_mem hnone]
    exact h
  · have htext : unlabelled label (pre ++ layout slashes ps) =
        pre ++ layout slashes (ps.map (Path.Part.unlabelled label)) := by
      rw [unlabelled_append_layout hlabel slashes_divide,
        unlabelled_of_not_mem (colon_not_mem_of_allBlank hpre)]
    refine (readLocationPath_trim_eq_ok_iff hclosed').mpr (.inr (.inl
      ⟨pre, _, _, hpre, ?_, htext, readsSteps_unlabelled hlabel hps, rfl⟩))
    simpa using hne
  · exact (readLocationPath_trim_eq_ok_iff hclosed').mpr (.inr (.inr
      ⟨_, _, _, unlabelled_append_layout hlabel slashes_divide _ _,
        readsSteps_unlabelled hlabel hps, rfl⟩))

theorem readsPath_unlabelled (hlabel : Xml.IsLocalName label) {p : Path.Part Unit}
    (h : ReadsPath p path) :
    ReadsPath (p.unlabelled label) (path.mapLiterals (stripLabel (some label))) :=
  ⟨(closed_unlabelled_bar hlabel).mpr h.1, readLocationPath_unlabelled hlabel h.1 h.2⟩

/-- An accepted expression is accepted without the label too, and nothing but its literals
changes. -/
theorem readAlternatives_unlabelled (hlabel : Xml.IsLocalName label)
    (h : readAlternatives cs = .ok paths) :
    readAlternatives (unlabelled label cs) =
      .ok (paths.map (·.mapLiterals (stripLabel (some label)))) := by
  obtain ⟨p, ps, rfl, hps⟩ := readAlternatives_eq_ok_iff.mp h
  rw [unlabelled_append_layout hlabel bar_divides]
  refine readAlternatives_eq_ok_iff.mpr ⟨p.unlabelled label, _, rfl, ?_⟩
  have hall : List.Forall₂ ReadsPath ((p :: ps).map (Path.Part.unlabelled label))
      (paths.map (·.mapLiterals (stripLabel (some label)))) := by
    rw [List.forall₂_map_left_iff, List.forall₂_map_right_iff]
    exact hps.imp fun _ _ => readsPath_unlabelled hlabel
  exact hall

end Paths

end TransitAudit
