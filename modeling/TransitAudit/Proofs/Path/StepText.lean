import TransitAudit.Proofs.Path.Layout

/-! What a step looks like: a dot or two, a name behind an at sign, or a name with groups in
brackets behind it. A name may have a label, which has no effect. -/
namespace TransitAudit.Path

open Text

/-! Names -/

section Names

variable {c : Char} {cs : List Char} {t : NameTest}

theorem inRanges_eq_false {table : Array (Nat × Nat)} (low : Nat)
    (htable : table.all (fun r => decide (low ≤ r.1)) = true) (hc : c.toNat < low) :
    inRanges table c = false := by
  rw [inRanges, Array.any_eq_false]
  rw [Array.all_eq_true] at htable
  intro i hi
  have hlow := htable i hi
  simp only [decide_eq_true_eq] at hlow
  simp only [Bool.and_eq_true, decide_eq_true_eq, not_and]
  omega

/-- Among ASCII characters, what belongs to names are letters, digits, `_`, `.` and `-`. -/
theorem isNameChar_eq_false (hc : c.toNat < 0x80)
    (h : (isAsciiLetter c || isAsciiDigit c || c == '_' || c == '.' || c == '-') = false) :
    isNameChar c = false := by
  simp only [Bool.or_eq_false_iff] at h
  obtain ⟨⟨⟨⟨hletter, hdigit⟩, hunderscore⟩, hdot⟩, hdash⟩ := h
  have hmark : inRanges markRanges c = false := inRanges_eq_false 0x80 (by decide +kernel) hc
  have hjoiner : inRanges #[(0x200C, 0x200D)] c = false :=
    inRanges_eq_false 0x80 (by decide +kernel) hc
  have hconnector : isConnector c = false := by
    have hne : c.toNat ≠ 0x5F := by
      intro he
      have hc : c = '_' := Char.toNat_inj.mp he
      simp [hc] at hunderscore
    simp [isConnector, inRanges]
    omega
  simp [isNameChar, isWord, isAlphabetic, isDecimalDigit, hc, hletter, hdigit, hconnector, hjoiner,
    hmark, hdot, hdash]

theorem isNameChar_colon : isNameChar ':' = false :=
  isNameChar_eq_false (by decide) (by decide)

/-- A plain name begins with an ASCII letter or an underscore, and name characters make it up. -/
theorem isPlainName_iff : isPlainName cs = true ↔
    ∃ c rest, cs = c :: rest ∧ (isAsciiLetter c || c == '_') = true ∧
      ∀ x ∈ rest, isNameChar x = true := by
  cases cs with
  | nil => simp [isPlainName]
  | cons c rest => simp [isPlainName]

theorem toNat_of_isAsciiLetter (hc : isAsciiLetter c = true) : 0x40 < c.toNat ∧ c.toNat < 0x80 := by
  simp only [isAsciiLetter, Bool.or_eq_true, Bool.and_eq_true, decide_eq_true_eq, Char.le_def,
    UInt32.le_iff_toNat_le] at hc
  have hsmall : ('a').val.toNat = 97 ∧ ('z').val.toNat = 122 := ⟨rfl, rfl⟩
  have hlarge : ('A').val.toNat = 65 ∧ ('Z').val.toNat = 90 := ⟨rfl, rfl⟩
  have hval : c.toNat = c.val.toNat := rfl
  omega

theorem isNameChar_of_begins (hc : (isAsciiLetter c || c == '_') = true) :
    isNameChar c = true := by
  have hword : isWord c = true := by
    rcases (Bool.or_eq_true _ _).mp hc with h | h
    · have hascii := (toNat_of_isAsciiLetter h).2
      simp [isWord, isAlphabetic, hascii, h]
    · obtain rfl : c = '_' := by simpa using h
      simp [isWord, isConnector, inRanges]
  simp [isNameChar, hword]

theorem isNameChar_of_isPlainName (h : isPlainName cs = true) : ∀ c ∈ cs, isNameChar c = true := by
  obtain ⟨c, rest, rfl, hc, hrest⟩ := isPlainName_iff.mp h
  exact List.forall_mem_cons.mpr ⟨isNameChar_of_begins hc, hrest⟩

theorem not_mem_of_isPlainName (h : isPlainName cs = true) (hc : isNameChar c = false) :
    c ∉ cs := by
  intro hmem
  rw [isNameChar_of_isPlainName h c hmem] at hc
  cases hc

theorem localTest?_eq_some_iff : localTest? cs = some t ↔
    cs = ['*'] ∧ t = .any ∨ isPlainName cs = true ∧ t = .named (String.ofList cs) := by
  unfold localTest?
  split
  · rename_i hstar
    subst hstar
    have hplain : isPlainName ['*'] = false := by decide
    simp [hplain, eq_comm]
  · rename_i hstar
    by_cases hplain : isPlainName cs = true <;> simp [hplain, hstar, eq_comm]

theorem colon_not_mem_of_localTest? (h : localTest? cs = some t) : ':' ∉ cs := by
  rcases localTest?_eq_some_iff.mp h with ⟨rfl, -⟩ | ⟨hplain, -⟩
  · decide
  · exact not_mem_of_isPlainName hplain isNameChar_colon

/-- A label and its colon in front of a name make no difference. -/
theorem nameTest?_eq_some_iff : nameTest? cs = some t ↔
    localTest? cs = some t ∨
      ∃ label name, cs = label ++ ':' :: name ∧ isPlainName label = true ∧
        localTest? name = some t := by
  unfold nameTest?
  constructor
  · intro h
    split at h
    · rename_i name hname
      obtain ⟨rfl, -⟩ := splitAt_eq_singleton_iff.mp hname
      exact .inl h
    · rename_i label name hname
      obtain ⟨rfl, -, -⟩ := splitAt_eq_pair_iff.mp hname
      split_ifs at h with hlabel
      exact .inr ⟨label, name, rfl, hlabel, h⟩
    · cases h
  · rintro (h | ⟨label, name, rfl, hlabel, h⟩)
    · rw [splitAt_eq_singleton_iff.mpr ⟨rfl, colon_not_mem_of_localTest? h⟩]
      exact h
    · have hcolon := not_mem_of_isPlainName hlabel isNameChar_colon
      rw [splitAt_eq_pair_iff.mpr ⟨rfl, hcolon, colon_not_mem_of_localTest? h⟩]
      simp [hlabel, h]

/-- What a name test begins with. -/
theorem begins_of_nameTest? (h : nameTest? cs = some t) : ∃ c rest, cs = c :: rest ∧
    (isAsciiLetter c || c == '_' || c == '*') = true := by
  have hplain {xs : List Char} (hxs : isPlainName xs = true) (ys : List Char) :
      ∃ c rest, xs ++ ys = c :: rest ∧ (isAsciiLetter c || c == '_' || c == '*') = true := by
    obtain ⟨c, rest, rfl, hc, -⟩ := isPlainName_iff.mp hxs
    refine ⟨c, rest ++ ys, rfl, ?_⟩
    rw [hc]
    rfl
  have hlocal {xs : List Char} (hxs : localTest? xs = some t) :
      ∃ c rest, xs = c :: rest ∧ (isAsciiLetter c || c == '_' || c == '*') = true := by
    rcases localTest?_eq_some_iff.mp hxs with ⟨rfl, -⟩ | ⟨hxs, -⟩
    · exact ⟨'*', [], rfl, rfl⟩
    · have h := hplain hxs []
      rw [List.append_nil] at h
      exact h
  rcases nameTest?_eq_some_iff.mp h with h | ⟨label, name, rfl, hlabel, -⟩
  · exact hlocal h
  · exact hplain hlabel (':' :: name)

theorem isBlank_of_begins (hc : (isAsciiLetter c || c == '_' || c == '*') = true) :
    isBlank c = false := by
  rcases (Bool.or_eq_true _ _).mp hc with h | h
  · rcases (Bool.or_eq_true _ _).mp h with h | h
    · obtain ⟨hl, hu⟩ := toNat_of_isAsciiLetter h
      exact isBlank_eq_false (by omega) (by omega)
    · obtain rfl : c = '_' := by simpa using h
      exact isBlank_eq_false (by decide) (by decide)
  · obtain rfl : c = '*' := by simpa using h
    exact isBlank_eq_false (by decide) (by decide)

theorem begins_ne (hc : (isAsciiLetter c || c == '_' || c == '*') = true) {x : Char}
    (hx : (isAsciiLetter x || x == '_' || x == '*') = false) : c ≠ x := by
  rintro rfl
  rw [hc] at hx
  cases hx

end Names

/-! Steps -/

section Steps

variable {descendant : Bool} {raw cs : List Char} {s : Step} {ps : List Predicate}

theorem simpleStep_eq_ok_iff {axis : Axis} {test : NameTest} {text : List Char} :
    simpleStep axis test descendant text = .ok s ↔ descendant = false ∧ s = ⟨axis, test, []⟩ := by
  cases descendant <;> simp [simpleStep, eq_comm]

/-- A text with a name and groups behind it is no other kind of step. -/
theorem readStep_of_begins {c : Char} {rest : List Char} (hraw : trim raw = c :: rest)
    (hc : (isAsciiLetter c || c == '_' || c == '*') = true) :
    readStep descendant raw =
      match nameTest? (trim ((trim raw).takeWhile (· ≠ '['))) with
      | some test => do
        let predicates ← readPredicates ((trim raw).dropWhile (· ≠ '['))
        return ⟨if descendant then .descendant else .child, test, predicates⟩
      | none => .error (.nameTest (String.ofList (trim ((trim raw).takeWhile (· ≠ '['))))) := by
  -- neither a dot nor an at sign begins a name
  have hdot := begins_ne hc (x := '.') (by decide)
  have hat := begins_ne hc (x := '@') (by decide)
  unfold readStep
  dsimp only
  rw [hraw]
  split
  · rename_i h
    cases h
  · rename_i h
    exact absurd (List.cons.inj h).1 hdot
  · rename_i h
    exact absurd (List.cons.inj h).1 hdot
  · rename_i h
    exact absurd (List.cons.inj h).1 hat
  · rfl

/-- A name in front of the brackets begins the text. -/
theorem exists_head_of_name {test : NameTest}
    (htest : nameTest? (trim ((trim raw).takeWhile (· ≠ '['))) = some test) :
    ∃ c tail, trim raw = c :: tail ∧ (isAsciiLetter c || c == '_' || c == '*') = true := by
  obtain ⟨c, rest, hname, hc⟩ := begins_of_nameTest? htest
  cases hraw : trim raw with
  | nil =>
    rw [hraw] at hname
    cases hname
  | cons x tail =>
    have hx := not_blank_of_trim hraw
    rw [hraw] at hname
    by_cases hopen : x = '['
    · subst hopen
      cases hname
    · -- the first character is taken, and it is no white space
      have htake : (x :: tail).takeWhile (· ≠ '[') = x :: tail.takeWhile (· ≠ '[') :=
        List.takeWhile_cons_of_pos (by simpa using hopen)
      rw [htake, trim_cons_of_not_blank hx] at hname
      exact ⟨x, tail, rfl, (List.cons.inj hname).1 ▸ hc⟩

theorem readStep_eq_ok_iff :
    readStep descendant raw = .ok s ↔
      trim raw = ['.'] ∧ descendant = false ∧ s = ⟨.self, .any, []⟩ ∨
      trim raw = ['.', '.'] ∧ descendant = false ∧ s = ⟨.parent, .any, []⟩ ∨
      (∃ rest test, trim raw = '@' :: rest ∧ nameTest? (trim rest) = some test ∧
        descendant = false ∧ s = ⟨.attribute, test, []⟩) ∨
      ∃ test ps, nameTest? (trim ((trim raw).takeWhile (· ≠ '['))) = some test ∧
        readPredicates ((trim raw).dropWhile (· ≠ '[')) = .ok ps ∧
        s = ⟨if descendant then .descendant else .child, test, ps⟩ := by
  constructor
  · intro h
    unfold readStep at h
    dsimp only at h
    split at h
    · cases h
    · rename_i htext
      exact .inl ⟨htext, simpleStep_eq_ok_iff.mp h⟩
    · rename_i htext
      exact .inr (.inl ⟨htext, simpleStep_eq_ok_iff.mp h⟩)
    · rename_i rest htext
      split at h
      · rename_i test htest
        exact .inr (.inr (.inl ⟨rest, test, htext, htest, simpleStep_eq_ok_iff.mp h⟩))
      · cases h
    · split at h
      · rename_i test htest
        obtain ⟨ps, hps, hret⟩ := bind_eq_ok_iff.mp h
        cases hret
        exact .inr (.inr (.inr ⟨test, ps, htest, hps, rfl⟩))
      · cases h
  · rintro (⟨htext, rfl, rfl⟩ | ⟨htext, rfl, rfl⟩ | ⟨rest, test, htext, htest, rfl, rfl⟩ |
      ⟨test, ps, htest, hps, rfl⟩)
    · unfold readStep
      rw [htext]
      rfl
    · unfold readStep
      rw [htext]
      rfl
    · unfold readStep
      rw [htext]
      simp only [htest]
      rfl
    · obtain ⟨c, tail, hraw, hc⟩ := exists_head_of_name htest
      rw [readStep_of_begins hraw hc, htest]
      exact bind_eq_ok_iff.mpr ⟨ps, hps, rfl⟩

/-- A predicate is read from its group. -/
def ReadsPredicate (g : Group) (p : Predicate) : Prop :=
  g.WellFormed ∧ readPredicate (trim g.inner) = .ok p

theorem readPredicates_eq_ok_iff :
    readPredicates cs = .ok ps ↔ ∃ gs : List Group, ∃ space,
      cs = gs.flatMap Group.text ++ space ∧ AllBlank space ∧ List.Forall₂ ReadsPredicate gs ps := by
  have hgroups (gs : List Group) : List.Forall₂ ReadsPredicate gs ps ↔ (∀ g ∈ gs, g.WellFormed) ∧
      (gs.map Group.inner).mapM (fun inner => readPredicate (trim inner)) = .ok ps := by
    rw [mapM_eq_ok_iff, List.forall₂_map_left_iff]
    exact List.forall₂_and_left gs ps
  unfold readPredicates
  rw [bind_eq_ok_iff]
  constructor
  · rintro ⟨qs, hqs, h⟩
    -- the predicates count only if there is no fault behind them
    cases hfault : (groupsFrom none cs).2 with
    | some fault =>
      rw [hfault] at h
      cases h
    | none =>
      rw [hfault] at h
      cases h
      have hfrom : groupsFrom none cs = ((groupsFrom none cs).1, none) := Prod.ext rfl hfault
      obtain ⟨gs, space, hcs, hspace, hgs, hinner⟩ := groupsFrom_none_eq_ok_iff.mp hfrom
      rw [hinner] at hqs
      exact ⟨gs, space, hcs, hspace, (hgroups gs).mpr ⟨hgs, hqs⟩⟩
  · rintro ⟨gs, space, hcs, hspace, h⟩
    obtain ⟨hgs, hqs⟩ := (hgroups gs).mp h
    have hfrom := groupsFrom_none_eq_ok_iff.mpr ⟨gs, space, hcs, hspace, hgs, rfl⟩
    rw [hfrom]
    exact ⟨ps, hqs, rfl⟩

theorem trimEnd_groups {gs : List Group} (hne : gs ≠ []) :
    trimEnd (gs.flatMap Group.text) = gs.flatMap Group.text := by
  obtain ⟨init, g, rfl⟩ := List.eq_nil_or_concat' gs |>.resolve_left hne
  have hclose : isBlank ']' = false := isBlank_eq_false (by decide) (by decide)
  have htext : (init ++ [g]).flatMap Group.text =
      (init.flatMap Group.text ++ (g.space ++ '[' :: g.inner)) ++ ']' :: [] := by
    simp [Group.text]
  rw [htext, trimEnd_append_cons_of_not_blank hclose]
  rfl

theorem takeWhile_open {name rest : List Char} (hname : '[' ∉ name)
    (hrest : ∀ c ∈ rest.head?, c = '[') :
    (name ++ rest).takeWhile (· ≠ '[') = name ∧ (name ++ rest).dropWhile (· ≠ '[') = rest := by
  have hall : ∀ c ∈ name, decide (c ≠ '[') = true := by
    intro c hc
    rw [decide_eq_true_eq]
    rintro rfl
    exact hname hc
  rw [List.takeWhile_append_of_pos hall, List.dropWhile_append_of_pos hall]
  cases rest with
  | nil => simp
  | cons c rest =>
    obtain rfl : c = '[' := hrest c rfl
    simp

/-- White space in front of a step and behind its groups is removed, and nothing else. -/
theorem trim_name_groups {name space : List Char} {gs : List Group} (hne : trimStart name ≠ [])
    (hgs : gs ≠ []) (hspace : AllBlank space) :
    trim (name ++ (gs.flatMap Group.text ++ space)) =
      trimStart name ++ gs.flatMap Group.text := by
  have hgroups := trimEnd_groups hgs
  have hsome : trimEnd (gs.flatMap Group.text) ≠ [] := by
    obtain ⟨g, gs, rfl⟩ := List.exists_cons_of_ne_nil hgs
    rw [hgroups]
    simp [Group.text]
  rw [trim, trimStart_append_of_ne_nil hne, ← List.append_assoc,
    trimEnd_append_of_allBlank hspace, trimEnd_append_of_ne_nil hsome, hgroups]

/-- White space around a step and between its name and its groups plays no part. -/
theorem takeWhile_trim_of_layout {name space : List Char} {gs : List Group} (hname : '[' ∉ name)
    (hne : trim name ≠ []) (hspace : AllBlank space) (hgs : List.Forall₂ ReadsPredicate gs ps)
    (hraw : raw = name ++ (gs.flatMap Group.text ++ space)) :
    trim ((trim raw).takeWhile (· ≠ '[')) = trim name ∧
      readPredicates ((trim raw).dropWhile (· ≠ '[')) = .ok ps := by
  have hopen : isBlank '[' = false := isBlank_eq_false (by decide) (by decide)
  cases hgs with
  | nil =>
    have htext : trim raw = trim name := by
      rw [hraw]
      exact trim_append_right_of_allBlank hspace name
    have hnone : '[' ∉ trim name := fun h => hname (trim_subset name h)
    have hcut := @takeWhile_open (trim name) [] hnone (by simp)
    rw [List.append_nil] at hcut
    rw [htext, hcut.1, hcut.2, trim_trim]
    exact ⟨rfl, rfl⟩
  | @cons g p gs ps hg hgs =>
    -- the white space in front of the first group may as well belong to the name
    have hfirst : ReadsPredicate ⟨[], g.inner⟩ p := ⟨⟨.nil, hg.1.inner_closed⟩, hg.2⟩
    have hstart : trimStart (name ++ g.space) ≠ [] := by
      rw [ne_eq, trimStart_eq_nil_iff, ← trim_eq_nil_iff,
        trim_append_right_of_allBlank hg.1.space_blank]
      exact hne
    have hnone : '[' ∉ trimStart (name ++ g.space) := by
      intro hmem
      rcases List.mem_append.mp ((List.dropWhile_sublist _).subset hmem) with h | h
      · exact hname h
      · exact hg.1.space_blank.not_mem hopen h
    have htext : trim raw = trimStart (name ++ g.space) ++
        '[' :: (g.inner ++ ']' :: gs.flatMap Group.text) := by
      have htrim := trim_name_groups hstart (List.cons_ne_nil ⟨[], g.inner⟩ gs) hspace
      rw [hraw]
      simpa [Group.text] using htrim
    have hcut := @takeWhile_open _ ('[' :: (g.inner ++ ']' :: gs.flatMap Group.text)) hnone
      (by simp)
    rw [htext, hcut.1, hcut.2, trim_trimStart,
      trim_append_right_of_allBlank hg.1.space_blank, readPredicates_eq_ok_iff]
    refine ⟨rfl, ⟨[], g.inner⟩ :: gs, [], ?_, .nil, .cons hfirst hgs⟩
    simp [Group.text]

/-- White space at the ends of a step belongs to its name and stands behind its groups. -/
theorem exists_layout_of_name {test : NameTest}
    (htest : nameTest? (trim ((trim raw).takeWhile (· ≠ '['))) = some test)
    (hps : readPredicates ((trim raw).dropWhile (· ≠ '[')) = .ok ps) :
    ∃ name gs space, raw = name ++ (gs.flatMap Group.text ++ space) ∧ '[' ∉ name ∧
      nameTest? (trim name) = some test ∧ AllBlank space ∧
      List.Forall₂ ReadsPredicate gs ps := by
  have hopen : isBlank '[' = false := isBlank_eq_false (by decide) (by decide)
  obtain ⟨pre, post, hpre, hpost, hraw⟩ := exists_trim raw
  obtain ⟨gs, space, hdrop, hspace, hgs⟩ := readPredicates_eq_ok_iff.mp hps
  have hsplit : (trim raw).takeWhile (· ≠ '[') ++ (gs.flatMap Group.text ++ space) = trim raw := by
    rw [← hdrop]
    exact List.takeWhile_append_dropWhile
  refine ⟨pre ++ (trim raw).takeWhile (· ≠ '['), gs, space ++ post, ?_, ?_, ?_,
    hspace.append hpost, hgs⟩
  · calc raw = pre ++ (trim raw ++ post) := hraw
      _ = pre ++ ((trim raw).takeWhile (· ≠ '[') ++ (gs.flatMap Group.text ++ space) ++ post) := by
          rw [hsplit]
      _ = _ := by simp
  · rw [List.mem_append, not_or]
    refine ⟨hpre.not_mem hopen, ?_⟩
    intro hmem
    simpa using List.mem_takeWhile_imp hmem
  · rw [trim_append_of_allBlank hpre]
    exact htest

/-- A step with white space around it. -/
theorem readStep_eq_ok_iff_layout :
    readStep descendant raw = .ok s ↔
      trim raw = ['.'] ∧ descendant = false ∧ s = ⟨.self, .any, []⟩ ∨
      trim raw = ['.', '.'] ∧ descendant = false ∧ s = ⟨.parent, .any, []⟩ ∨
      (∃ pre rest test, AllBlank pre ∧ raw = pre ++ '@' :: rest ∧
        nameTest? (trim rest) = some test ∧ descendant = false ∧ s = ⟨.attribute, test, []⟩) ∨
      ∃ name gs space test ps, raw = name ++ (gs.flatMap Group.text ++ space) ∧ '[' ∉ name ∧
        nameTest? (trim name) = some test ∧ AllBlank space ∧ List.Forall₂ ReadsPredicate gs ps ∧
        s = ⟨if descendant then .descendant else .child, test, ps⟩ := by
  have hat : isBlank '@' = false := isBlank_eq_false (by decide) (by decide)
  rw [readStep_eq_ok_iff]
  constructor
  · rintro (h | h | ⟨rest, test, htext, htest, h⟩ | ⟨test, ps, htest, hps, h⟩)
    · exact .inl h
    · exact .inr (.inl h)
    · obtain ⟨pre, post, hpre, hpost, hraw⟩ := exists_trim raw
      refine .inr (.inr (.inl ⟨pre, rest ++ post, test, hpre, ?_, ?_, h⟩))
      · rw [hraw, htext]
        rfl
      · rw [trim_append_right_of_allBlank hpost]
        exact htest
    · obtain ⟨name, gs, space, hraw, hname, htest', hspace, hgs⟩ := exists_layout_of_name htest hps
      exact .inr (.inr (.inr ⟨name, gs, space, test, ps, hraw, hname, htest', hspace, hgs, h⟩))
  · rintro (h | h | ⟨pre, rest, test, hpre, rfl, htest, h⟩ |
      ⟨name, gs, space, test, ps, rfl, hname, htest, hspace, hgs, h⟩)
    · exact .inl h
    · exact .inr (.inl h)
    · refine .inr (.inr (.inl ⟨trimEnd rest, test, ?_, ?_, h⟩))
      · rw [trim_append_of_allBlank hpre, trim_cons_of_not_blank hat]
      · rw [trim_trimEnd]
        exact htest
    · have hne : trim name ≠ [] := by
        obtain ⟨c, rest, hc, -⟩ := begins_of_nameTest? htest
        simp [hc]
      obtain ⟨hwhile, hps⟩ := takeWhile_trim_of_layout hname hne hspace hgs rfl
      exact .inr (.inr (.inr ⟨test, ps, hwhile ▸ htest, hps, h⟩))

end Steps

end TransitAudit.Path
