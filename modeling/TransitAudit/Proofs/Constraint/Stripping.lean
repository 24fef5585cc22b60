import TransitAudit.Constraint.TargetLabel
import TransitAudit.Proofs.Path.StepText
import TransitAudit.Proofs.Xml.Tags

/-! Removing a label from a text. What is removed begins where a name may begin and ends with a
colon, so a text without colons stays as it is, and at a character that belongs to no name a text
can be cut and its pieces treated by themselves. -/
namespace TransitAudit

open Text

/-! Passing over a text -/

section StripFrom

variable {mark label cs : List Char} {c : Char} {skip : Nat} {mayBegin : Bool}

theorem prefix_of_prefix_append_cons (hc : c ∉ mark) {xs ys : List Char}
    (h : mark <+: xs ++ c :: ys) : mark <+: xs := by
  obtain ⟨rest, hrest⟩ := h
  rcases List.append_eq_append_iff.mp hrest with ⟨as, has, -⟩ | ⟨bs, hmark, hbs⟩
  · exact ⟨as, has.symm⟩
  · -- beyond `xs` the prefix would hold `c`
    cases bs with
    | nil => exact ⟨[], by rw [hmark, List.append_nil, List.append_nil]⟩
    | cons b bs =>
      have hb : c = b := (List.cons.inj hbs).1
      apply absurd _ hc
      rw [hmark, hb]
      exact List.mem_append_right xs List.mem_cons_self

theorem prefix_of_prefix_append (hc : c ∉ cs) {xs : List Char}
    (h : label ++ [c] <+: xs ++ cs) : label ++ [c] <+: xs := by
  obtain ⟨rest, hrest⟩ := h
  rcases List.append_eq_append_iff.mp hrest with ⟨as, has, -⟩ | ⟨bs, hmark, hbs⟩
  · exact ⟨as, has.symm⟩
  · -- beyond `xs` the prefix would end with `c`
    rcases List.eq_nil_or_concat' bs with rfl | ⟨init, b, rfl⟩
    · exact ⟨[], by rw [hmark, List.append_nil, List.append_nil]⟩
    · have hb : c = b := by
        rw [← List.append_assoc] at hmark
        exact (List.append_inj' hmark rfl).2 |> List.singleton_inj.mp
      apply absurd _ hc
      rw [hbs, hb]
      simp

/-- Two texts are treated by themselves if nothing that is removed reaches into the second. -/
theorem stripFrom_append {post out : List Char} (hreach : ∀ xs, mark <+: xs ++ post → mark <+: xs)
    (hpost : ∀ b, stripFrom mark 0 b post = out) (cs : List Char) (hskip : skip ≤ cs.length) :
    stripFrom mark skip mayBegin (cs ++ post) = stripFrom mark skip mayBegin cs ++ out := by
  -- characters that are still to be passed over lie in the first text, so `skip` may vary
  induction cs generalizing skip mayBegin with
  | nil =>
    obtain rfl : skip = 0 := by simpa using hskip
    exact hpost mayBegin
  | cons x cs ih =>
    rw [List.length_cons] at hskip
    cases skip with
    | succ skip => exact ih (by omega)
    | zero =>
      have hsame : mark.isPrefixOf (x :: (cs ++ post)) = mark.isPrefixOf (x :: cs) := by
        rw [Bool.eq_iff_iff, List.isPrefixOf_iff_prefix, List.isPrefixOf_iff_prefix]
        exact ⟨hreach (x :: cs), fun h => h.trans (List.prefix_append (x :: cs) post)⟩
      rw [List.cons_append, stripFrom, stripFrom, hsame]
      split
      · rename_i h
        have hfound : mark <+: x :: cs := by
          rw [Bool.and_eq_true, List.isPrefixOf_iff_prefix] at h
          exact h.2
        have hlength : mark.length ≤ (x :: cs).length := hfound.length_le
        rw [List.length_cons] at hlength
        exact ih (by omega)
      · rw [ih (Nat.zero_le _)]
        rfl

/-- A character that belongs neither to a name nor to what is removed divides the text. -/
theorem stripFrom_append_cons (hmark : mark ≠ []) (hc : c ∉ mark) (hname : continuesName c = false)
    (xs ys : List Char) :
    stripFrom mark 0 mayBegin (xs ++ c :: ys) =
      stripFrom mark 0 mayBegin xs ++ c :: stripFrom mark 0 true ys := by
  apply stripFrom_append (fun xs h => prefix_of_prefix_append_cons hc h) _ xs (Nat.zero_le _)
  intro b
  have hnot : mark.isPrefixOf (c :: ys) = false := by
    rw [Bool.eq_false_iff, ne_eq, List.isPrefixOf_iff_prefix]
    intro h
    exact hmark (List.prefix_nil.mp (@prefix_of_prefix_append_cons _ _ hc [] ys h))
  rw [stripFrom, hnot, Bool.and_false, if_neg Bool.false_ne_true, hname]
  rfl

theorem stripFrom_of_not_mem (hc : c ∈ mark) (hcs : c ∉ cs) :
    stripFrom mark 0 mayBegin cs = cs := by
  induction cs generalizing mayBegin with
  | nil => rfl
  | cons x cs ih =>
    have hnot : mark.isPrefixOf (x :: cs) = false := by
      rw [Bool.eq_false_iff, ne_eq, List.isPrefixOf_iff_prefix]
      intro h
      exact hcs (h.subset hc)
    rw [stripFrom, hnot, Bool.and_false, if_neg Bool.false_ne_true]
    exact congrArg (x :: ·) (ih fun h => hcs (List.mem_cons_of_mem x h))

/-- What is removed ends with a colon, and so in front of a text without colons. -/
theorem stripFrom_append_of_not_mem {post : List Char} (hpost : ':' ∉ post) (cs : List Char) :
    stripFrom (label ++ [':']) 0 mayBegin (cs ++ post) =
      stripFrom (label ++ [':']) 0 mayBegin cs ++ post := by
  apply stripFrom_append (fun xs h => prefix_of_prefix_append hpost h) _ cs (Nat.zero_le _)
  intro b
  exact stripFrom_of_not_mem (by simp) hpost

theorem stripFrom_skip (mark xs cs : List Char) :
    stripFrom mark xs.length false (xs ++ cs) = stripFrom mark 0 false cs := by
  induction xs with
  | nil => rfl
  | cons x xs ih => exact ih

/-- What is removed is passed over where it begins the text. -/
theorem stripFrom_mark_append (hmark : mark ≠ []) (cs : List Char) :
    stripFrom mark 0 true (mark ++ cs) = stripFrom mark 0 false cs := by
  obtain ⟨m, ms, rfl⟩ := List.exists_cons_of_ne_nil hmark
  have hfound : (m :: ms).isPrefixOf (m :: (ms ++ cs)) = true :=
    List.isPrefixOf_iff_prefix.mpr (List.prefix_append (m :: ms) cs)
  rw [List.cons_append, stripFrom, hfound]
  exact stripFrom_skip (m :: ms) ms cs

/-- Nothing but characters of the text is left, in their order. -/
theorem stripFrom_sublist (mark : List Char) (skip : Nat) (mayBegin : Bool) (cs : List Char) :
    (stripFrom mark skip mayBegin cs).Sublist cs := by
  induction cs generalizing skip mayBegin with
  | nil => exact .slnil
  | cons x cs ih =>
    cases skip with
    | succ skip => exact (ih skip false).cons x
    | zero =>
      rw [stripFrom]
      split
      · exact (ih _ _).cons x
      · exact (ih _ _).cons_cons x

/-- Characters of another kind than those removed all stay. -/
theorem filter_stripFrom {heeded : Char → Bool} (hne : mark ≠ [])
    (hmark : ∀ c ∈ mark, heeded c = false) :
    (stripFrom mark skip mayBegin cs).filter heeded = (cs.drop skip).filter heeded := by
  obtain ⟨m, ms, rfl⟩ := List.exists_cons_of_ne_nil hne
  have hnone : (m :: ms).filter heeded = [] := by
    rw [List.filter_eq_nil_iff]
    intro c hc
    simp [hmark c hc]
  induction cs generalizing skip mayBegin with
  | nil => simp [stripFrom]
  | cons x cs ih =>
    cases skip with
    | succ skip => exact ih
    | zero =>
      rw [stripFrom, List.drop_zero]
      split
      · rename_i h
        obtain ⟨rest, hrest⟩ : m :: ms <+: x :: cs := by
          rw [Bool.and_eq_true, List.isPrefixOf_iff_prefix] at h
          exact h.2
        have hcs : cs = ms ++ rest := (List.cons.inj hrest).2.symm
        calc (stripFrom (m :: ms) ms.length false cs).filter heeded
            = (cs.drop ms.length).filter heeded := ih
          _ = rest.filter heeded := by rw [hcs, List.drop_left]
          _ = ((m :: ms) ++ rest).filter heeded := by rw [List.filter_append, hnone]; rfl
          _ = (x :: cs).filter heeded := by rw [hrest]
      · rw [List.filter_cons, List.filter_cons, ih, List.drop_zero]

/-- In a text with one colon a label is found only if it is all that stands in front. -/
theorem isPrefixOf_label_iff {before after : List Char} (hbefore : ':' ∉ before)
    (hafter : ':' ∉ after) :
    (label ++ [':']).isPrefixOf (before ++ ':' :: after) = true ↔ before = label := by
  rw [List.isPrefixOf_iff_prefix]
  constructor
  · rintro ⟨rest, hrest⟩
    rw [← List.append_cons] at hrest
    exact ((List.append_cons_inj_of_notMem hbefore hafter).mp hrest.symm).1
  · rintro rfl
    exact ⟨after, by simp⟩

/-- A text with one colon loses a label and the colon, or nothing. -/
theorem stripFrom_append_colon (hlabel : label ≠ []) {before after : List Char}
    (hbefore : ':' ∉ before) (hafter : ':' ∉ after) :
    stripFrom (label ++ [':']) 0 mayBegin (before ++ ':' :: after) = before ++ ':' :: after ∨
      ∃ kept, before = kept ++ label ∧ (kept = [] → mayBegin = true) ∧
        (∀ c ∈ kept.getLast?, continuesName c = false) ∧
        stripFrom (label ++ [':']) 0 mayBegin (before ++ ':' :: after) = kept ++ after := by
  have hrest (b : Bool) : stripFrom (label ++ [':']) 0 b after = after :=
    stripFrom_of_not_mem (by simp) hafter
  -- where a name may not begin, or something else stands in front of the colon, nothing is found
  have hnot {b : Bool} {before : List Char} (hbefore : ':' ∉ before)
      (h : ¬(b = true ∧ before = label)) :
      (b && (label ++ [':']).isPrefixOf (before ++ ':' :: after)) = false := by
    rw [Bool.eq_false_iff, ne_eq, Bool.and_eq_true, isPrefixOf_label_iff hbefore hafter]
    exact h
  induction before generalizing mayBegin with
  | nil =>
    have h := @hnot mayBegin [] hbefore fun h => hlabel h.2.symm
    rw [List.nil_append] at h ⊢
    rw [stripFrom, h, if_neg Bool.false_ne_true, hrest]
    exact .inl rfl
  | cons x before ih =>
    have hbehind : ':' ∉ before := fun h => hbefore (List.mem_cons_of_mem x h)
    by_cases hfound : mayBegin = true ∧ x :: before = label
    · obtain ⟨rfl, rfl⟩ := hfound
      have htext : (x :: before) ++ ':' :: after = ((x :: before) ++ [':']) ++ after := by simp
      refine .inr ⟨[], rfl, fun _ => rfl, by simp, ?_⟩
      rw [htext, stripFrom_mark_append (by simp), hrest]
      rfl
    · -- the first character stays, and what is removed further on follows it
      have h := hnot hbefore hfound
      rw [List.cons_append] at h ⊢
      rw [stripFrom, h, if_neg Bool.false_ne_true]
      rcases @ih (!continuesName x) hbehind with h | ⟨kept, hkept, hbegin, hlast, h⟩
      · exact .inl (congrArg (x :: ·) h)
      · refine .inr ⟨x :: kept, by rw [hkept]; rfl, by simp, ?_, congrArg (x :: ·) h⟩
        intro c hc
        cases hk : kept with
        | nil =>
          rw [hk] at hc
          obtain rfl : x = c := by simpa using hc
          simpa using hbegin hk
        | cons k ks =>
          apply hlast
          rw [hk] at hc ⊢
          simpa using hc

end StripFrom

/-! Labels -/

section Labels

variable {label : String} {cs pre post name : List Char} {c : Char} {t : Path.NameTest}

/-- A text without the occurrences of a label and its colon. -/
def unlabelled (label : String) (cs : List Char) : List Char :=
  stripFrom (label.toList ++ [':']) 0 true cs

/-- A character that can stand neither in a label nor in a name. -/
structure Divides (c : Char) : Prop where
  label : Xml.isNameChar c = false
  name : continuesName c = false
  colon : c ≠ ':'

theorem Divides.not_mem (hc : Divides c) (hlabel : Xml.IsLocalName label) :
    c ∉ label.toList ++ [':'] := by
  rw [List.mem_append, not_or]
  constructor
  · intro h
    have hname := (hlabel.2 c h).1
    rw [hc.label] at hname
    cases hname
  · simpa using hc.colon

/-- The characters that structure a path. -/
def dividers : List Char :=
  ['\x27', '"', '[', ']', '(', ')', '/', '|', '@', '=', '!', ',']

theorem divides_of_mem (hc : c ∈ dividers) : Divides c := by
  have hall : dividers.all (fun x => decide (x.toNat < 0x80) &&
      !(isAsciiLetter x || isAsciiDigit x || x == '_' || x == '.' || x == '-') &&
      !Xml.isNameChar x && x != ':') = true := by rfl
  have h := List.all_eq_true.mp hall c hc
  simp only [Bool.and_eq_true, decide_eq_true_eq, Bool.not_eq_true', bne_iff_ne] at h
  obtain ⟨⟨⟨hsmall, hother⟩, hlabel⟩, hcolon⟩ := h
  exact ⟨hlabel, Path.isNameChar_eq_false hsmall hother, hcolon⟩

theorem unlabelled_append_cons (hlabel : Xml.IsLocalName label) (hc : Divides c)
    (xs ys : List Char) :
    unlabelled label (xs ++ c :: ys) = unlabelled label xs ++ c :: unlabelled label ys :=
  stripFrom_append_cons (by simp) (hc.not_mem hlabel) hc.name xs ys

theorem unlabelled_of_not_mem (hcs : ':' ∉ cs) : unlabelled label cs = cs :=
  stripFrom_of_not_mem (by simp) hcs

theorem unlabelled_sublist (label : String) (cs : List Char) : (unlabelled label cs).Sublist cs :=
  stripFrom_sublist _ 0 true cs

theorem not_mem_unlabelled (hcs : c ∉ cs) : c ∉ unlabelled label cs :=
  fun h => hcs ((unlabelled_sublist label cs).subset h)

theorem colon_not_mem_of_allBlank (h : AllBlank cs) : ':' ∉ cs :=
  h.not_mem (isBlank_eq_false (by decide) (by decide))

/-- What literals and brackets enclose stays enclosed. -/
theorem closed_unlabelled_iff {d : Path.Delimiters} (hlabel : Xml.IsLocalName label)
    (hd : ∀ c, d.marks c = true → Divides c) : d.Closed (unlabelled label cs) ↔ d.Closed cs := by
  apply Path.Delimiters.closed_congr
  rw [unlabelled, filter_stripFrom (by simp), List.drop_zero]
  intro c hc
  rw [Bool.eq_false_iff]
  intro hmark
  exact (hd c hmark).not_mem hlabel hc

theorem unlabelled_append_of_not_mem (hpost : ':' ∉ post) (cs : List Char) :
    unlabelled label (cs ++ post) = unlabelled label cs ++ post :=
  stripFrom_append_of_not_mem hpost cs

/-- A row of dividing characters divides like one of them. -/
theorem unlabelled_append_append (hlabel : Xml.IsLocalName label) {ds : List Char} (hne : ds ≠ [])
    (hds : ∀ c ∈ ds, Divides c) (xs ys : List Char) :
    unlabelled label (xs ++ (ds ++ ys)) = unlabelled label xs ++ (ds ++ unlabelled label ys) := by
  induction ds generalizing xs with
  | nil => exact absurd rfl hne
  | cons d ds ih =>
    obtain ⟨hd, hds⟩ := List.forall_mem_cons.mp hds
    rw [List.cons_append, unlabelled_append_cons hlabel hd]
    cases ds with
    | nil => rfl
    | cons d' ds =>
      -- between two of them there is nothing
      have hrest := ih (List.cons_ne_nil d' ds) hds []
      rw [List.nil_append] at hrest
      rw [hrest]
      rfl

/-- What is kept in front of a label ends in front of the characters that continue a name. -/
theorem prefix_of_append_eq {before kept : List Char} (hkept : pre ++ before = kept ++ cs)
    (hbefore : ∀ c ∈ before, continuesName c = true)
    (hlast : ∀ c ∈ kept.getLast?, continuesName c = false) : kept <+: pre := by
  rcases List.append_eq_append_iff.mp hkept with ⟨as, has, hsplit⟩ | ⟨bs, hbs, -⟩
  · cases hlist : as.getLast? with
    | none =>
      rw [List.getLast?_eq_none_iff.mp hlist, List.append_nil] at has
      exact has ▸ List.prefix_refl _
    | some x =>
      have hcontinues : continuesName x = true := by
        apply hbefore
        rw [hsplit]
        exact List.mem_append_left cs (List.mem_of_getLast? hlist)
      have hends : continuesName x = false := by
        apply hlast
        rw [has, List.getLast?_append, hlist]
        rfl
      rw [hends] at hcontinues
      cases hcontinues
  · exact ⟨bs, hbs.symm⟩

/-- A name keeps its meaning. White space in front of it may go along with a label that begins with
white space. -/
theorem exists_unlabelled_name (hlabel : Xml.IsLocalName label)
    (hname : Path.nameTest? name = some t) (hpre : AllBlank pre) :
    ∃ pre' name', pre' <+: pre ∧ Path.nameTest? name' = some t ∧
      unlabelled label (pre ++ name) = pre' ++ name' := by
  have hcolon : ':' ∉ pre := colon_not_mem_of_allBlank hpre
  rcases Path.nameTest?_eq_some_iff.mp hname with hlocal | ⟨before, after, rfl, hplain, hlocal⟩
  · have hnone := Path.colon_not_mem_of_localTest? hlocal
    refine ⟨pre, name, List.prefix_refl pre, hname, unlabelled_of_not_mem ?_⟩
    simp [hcolon, hnone]
  · have hbefore : ':' ∉ pre ++ before := by
      have hnone := Path.not_mem_of_isPlainName hplain Path.isNameChar_colon
      simp [hcolon, hnone]
    have hafter : ':' ∉ after := Path.colon_not_mem_of_localTest? hlocal
    have hne : label.toList ≠ [] := by
      rw [ne_eq, String.toList_eq_nil_iff]
      exact hlabel.1
    rw [unlabelled, ← List.append_assoc]
    rcases stripFrom_append_colon hne hbefore hafter with h | ⟨kept, hkept, -, hlast, h⟩
    · exact ⟨pre, _, List.prefix_refl pre, hname, h.trans (List.append_assoc ..)⟩
    · have hshort : kept <+: pre :=
        prefix_of_append_eq hkept (Path.isNameChar_of_isPlainName hplain) hlast
      exact ⟨kept, after, hshort, Path.nameTest?_eq_some_iff.mpr (.inl hlocal), h⟩

end Labels

end TransitAudit
