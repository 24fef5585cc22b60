import TransitAudit.Proofs.Path.Scan

/-! How location paths and expressions are laid out. A text is accepted when it is written as parts,
each behind its slashes or its bar, that are accepted by themselves; white space around a part
makes no difference. -/
namespace TransitAudit.Path

open Text

/-! Parts in a row -/

/-- A part of a text; its kind tells what stands in front of it. -/
structure Part (κ : Type) where
  kind : κ
  raw : List Char

/-- Equal up to white space around the part. -/
def Part.Same {κ : Type} (p q : Part κ) : Prop :=
  q.kind = p.kind ∧ trim q.raw = trim p.raw

theorem Part.Same.refl {κ : Type} (p : Part κ) : p.Same p :=
  ⟨rfl, rfl⟩

/-- Parts with what stands in front of each. -/
def layout {κ : Type} (lead : κ → List Char) (ps : List (Part κ)) : List Char :=
  ps.flatMap fun p => lead p.kind ++ p.raw

section Layout

variable {κ α : Type} {lead : κ → List Char} {ps : List (Part κ)}

theorem layout_cons (p : Part κ) (ps : List (Part κ)) :
    layout lead (p :: ps) = lead p.kind ++ (p.raw ++ layout lead ps) := by
  simp [layout]

theorem forall₂_of_same {R : Part κ → α → Prop} (hR : ∀ p q x, p.Same q → R p x → R q x)
    {ps qs : List (Part κ)} {xs : List α} (hsame : List.Forall₂ Part.Same ps qs)
    (h : List.Forall₂ R ps xs) : List.Forall₂ R qs xs := by
  induction hsame generalizing xs with
  | nil => exact h
  | cons hpq _ ih =>
    cases h with
    | cons hp h => exact .cons (hR _ _ _ hpq hp) (ih h)

theorem forall_raw_of_forall₂ {R : Part κ → α → Prop} (hR : ∀ p x, R p x → trim p.raw ≠ [])
    {xs : List α} (h : List.Forall₂ R ps xs) : ∀ p ∈ ps, trim p.raw ≠ [] := by
  induction h with
  | nil => simp
  | cons hp _ ih => exact List.forall_mem_cons.mpr ⟨hR _ _ hp, ih⟩

/-- White space at the end belongs to the last part. -/
theorem exists_layout_append (lead : κ → List Char) (hne : ps ≠ []) {post : List Char}
    (hpost : AllBlank post) :
    ∃ qs, List.Forall₂ Part.Same ps qs ∧ layout lead qs = layout lead ps ++ post := by
  -- only the last part changes, so the induction ends with a row of one
  induction ps with
  | nil => exact absurd rfl hne
  | cons p ps ih =>
    cases ps with
    | nil =>
      refine ⟨[⟨p.kind, p.raw ++ post⟩], .cons ⟨rfl, ?_⟩ .nil, ?_⟩
      · exact trim_append_right_of_allBlank hpost p.raw
      · simp [layout]
    | cons q ps =>
      obtain ⟨qs, hsame, htext⟩ := ih (List.cons_ne_nil _ _)
      refine ⟨p :: qs, .cons (.refl p) hsame, ?_⟩
      rw [layout_cons, htext, layout_cons p]
      simp

theorem trimEnd_raw_append_ne_nil {raw : List Char} (hraw : trim raw ≠ []) (cs : List Char) :
    trimEnd (raw ++ cs) ≠ [] := by
  rw [ne_eq, trimEnd_eq_nil_iff]
  intro hblank
  exact hraw (trim_eq_nil_iff.mpr fun c hc => hblank c (List.mem_append_left cs hc))

/-- Removing white space at the end stops within the last part, if there is something in it. -/
theorem exists_layout_trimEnd (lead : κ → List Char) (hne : ps ≠ [])
    (hraw : ∀ p ∈ ps, trim p.raw ≠ []) :
    ∃ qs, List.Forall₂ Part.Same ps qs ∧ layout lead qs = trimEnd (layout lead ps) := by
  induction ps with
  | nil => exact absurd rfl hne
  | cons p ps ih =>
    obtain ⟨hp, hps⟩ := List.forall_mem_cons.mp hraw
    cases ps with
    | nil =>
      refine ⟨[⟨p.kind, trimEnd p.raw⟩], .cons ⟨rfl, trim_trimEnd p.raw⟩ .nil, ?_⟩
      have hne := trimEnd_raw_append_ne_nil hp []
      rw [List.append_nil] at hne
      simp [layout, trimEnd_append_of_ne_nil hne]
    | cons q ps =>
      obtain ⟨qs, hsame, htext⟩ := ih (List.cons_ne_nil _ _) hps
      refine ⟨p :: qs, .cons (.refl p) hsame, ?_⟩
      have hrest : trimEnd (layout lead (q :: ps)) ≠ [] := by
        obtain ⟨hq, -⟩ := List.forall_mem_cons.mp hps
        rw [layout_cons, trimEnd_append_of_ne_nil (trimEnd_raw_append_ne_nil hq _)]
        simp [trimEnd_raw_append_ne_nil hq]
      calc layout lead (p :: qs) = lead p.kind ++ p.raw ++ layout lead qs := by
            rw [layout_cons, List.append_assoc]
        _ = lead p.kind ++ p.raw ++ trimEnd (layout lead (q :: ps)) := by rw [htext]
        _ = trimEnd (lead p.kind ++ p.raw ++ layout lead (q :: ps)) :=
            (trimEnd_append_of_ne_nil hrest _).symm
        _ = trimEnd (layout lead (p :: q :: ps)) := by
            rw [layout_cons p, List.append_assoc]

/-- White space around a row that begins with the first part itself belongs to the outer parts. -/
theorem exists_row_of_trim (lead : κ → List Char) (p : Part κ) {cs : List Char}
    (h : trim cs = p.raw ++ layout lead ps) :
    ∃ q qs, List.Forall₂ Part.Same (p :: ps) (q :: qs) ∧ cs = q.raw ++ layout lead qs := by
  obtain ⟨pre, post, hpre, hpost, hcs⟩ := exists_trim cs
  obtain ⟨qs, hsame, htext⟩ :=
    exists_layout_append lead (List.cons_ne_nil p ps) hpost
  rcases hsame with _ | ⟨⟨hkind, htrim⟩, hsame⟩
  rename_i q qs
  rw [layout_cons, layout_cons, hkind, List.append_assoc, List.append_cancel_left_eq] at htext
  refine ⟨⟨q.kind, pre ++ q.raw⟩, qs, .cons ⟨hkind, ?_⟩ hsame, ?_⟩
  · rw [← htrim]
    exact trim_append_of_allBlank hpre q.raw
  · rw [hcs, h, List.append_assoc, List.append_assoc pre, htext, List.append_assoc]

theorem exists_row_trim (lead : κ → List Char) {p : Part κ}
    (hraw : ∀ q ∈ p :: ps, trim q.raw ≠ []) :
    ∃ q qs, List.Forall₂ Part.Same (p :: ps) (q :: qs) ∧
      trim (p.raw ++ layout lead ps) = q.raw ++ layout lead qs := by
  obtain ⟨hp, hps⟩ := List.forall_mem_cons.mp hraw
  have hstart : trimStart p.raw ≠ [] := by
    rw [ne_eq, trimStart_eq_nil_iff, ← trim_eq_nil_iff]
    exact hp
  have hhead : trim (trimStart p.raw) ≠ [] := by
    rw [trim_trimStart]
    exact hp
  obtain ⟨qs, hsame, htext⟩ := exists_layout_trimEnd lead
    (List.cons_ne_nil ⟨p.kind, trimStart p.raw⟩ ps) (List.forall_mem_cons.mpr ⟨hhead, hps⟩)
  rcases hsame with _ | ⟨⟨hkind, htrim⟩, hsame⟩
  rename_i q qs
  have hrow := trimEnd_raw_append_ne_nil hhead (layout lead ps)
  rw [layout_cons, layout_cons, hkind, trimEnd_append_of_ne_nil hrow,
    List.append_cancel_left_eq] at htext
  refine ⟨q, qs, .cons ⟨hkind, ?_⟩ hsame, ?_⟩
  · rw [htrim]
    exact trim_trimStart p.raw
  · rw [trim, trimStart_append_of_ne_nil hstart, htext]

end Layout

/-! Steps -/

/-- The slashes that lead to a step. -/
def slashes (descendant : Bool) : List Char :=
  if descendant then ['/', '/'] else ['/']

/-- A step is read from its text. -/
def ReadsStep (p : Part Bool) (s : Step) : Prop :=
  (Delimiters.atTop '/').Closed p.raw ∧ readStep p.kind p.raw = .ok s

section Steps

variable {absolute descendant : Bool} {raw raw' body cs : List Char} {s : Step}
  {steps : List Step} {ps : List (Part Bool)} {path : LocationPath}

theorem isBlank_slash : isBlank '/' = false :=
  isBlank_eq_false (by decide) (by decide)

theorem isSeparator_bar : IsSeparator '|' := by
  unfold IsSeparator isQuote
  decide

theorem isBlank_bar : isBlank '|' = false :=
  isBlank_eq_false (by decide) (by decide)

theorem readStep_trim (descendant : Bool) (raw : List Char) :
    readStep descendant (trim raw) = readStep descendant raw := by
  unfold readStep
  rw [trim_trim]

theorem readStep_congr (h : trim raw = trim raw') :
    readStep descendant raw = readStep descendant raw' := by
  rw [← readStep_trim, h, readStep_trim]

theorem trim_ne_nil_of_readStep (h : readStep descendant raw = .ok s) : trim raw ≠ [] := by
  intro hnil
  have hempty : readStep descendant [] = .error .emptyStep := rfl
  rw [← readStep_trim, hnil, hempty] at h
  cases h

theorem ne_nil_of_readStep (h : readStep descendant raw = .ok s) : raw ≠ [] := by
  rintro rfl
  exact trim_ne_nil_of_readStep h rfl

theorem readsStep_of_same (p q : Part Bool) (s : Step) (hpq : p.Same q) (hp : ReadsStep p s) :
    ReadsStep q s := by
  obtain ⟨hkind, htrim⟩ := hpq
  obtain ⟨hclosed, hread⟩ := hp
  constructor
  · rw [← closed_trim_iff isBlank_slash, htrim, closed_trim_iff isBlank_slash]
    exact hclosed
  · rw [hkind, readStep_congr htrim]
    exact hread

/-! How a path is cut into the texts of its steps -/

/-- What the scanner of steps gives for a part. -/
def Part.entry (p : Part Bool) : Bool × List Char :=
  (p.kind, p.raw)

/-- Slashes end a text, and the part behind them is read next. -/
theorem stepTextsFrom_slashes {p : Part Bool} (hp : (Delimiters.atTop '/').Closed p.raw)
    (hne : p.raw ≠ []) (descendant : Bool) (raw cs : List Char) :
    stepTextsFrom .start descendant raw (slashes p.kind ++ (p.raw ++ cs)) =
      (stepTextsFrom .start p.kind [] (p.raw ++ cs)).cons (descendant, raw.reverse) := by
  obtain ⟨_ | _, text⟩ := p
  · obtain ⟨c, text, rfl⟩ := List.exists_cons_of_ne_nil hne
    have hc : c ≠ '/' := ne_slash_of_closed hp
    change stepTextsFrom .start descendant raw ('/' :: c :: (text ++ cs)) = _
    rw [stepTextsFrom]
    · rfl
    · rfl
    · intro _ h
      exact hc (List.cons.inj h).1
  · change stepTextsFrom .start descendant raw ('/' :: '/' :: (text ++ cs)) = _
    rw [stepTextsFrom]
    rfl

/-- A row of closed parts is cut into them. -/
theorem stepTextsFrom_layout (hraw : (Delimiters.atTop '/').Closed raw)
    (hps : ∀ p ∈ ps, (Delimiters.atTop '/').Closed p.raw) (hne : ∀ p ∈ ps, p.raw ≠ []) :
    stepTextsFrom .start descendant [] (raw ++ layout slashes ps) =
      ((⟨descendant, raw⟩ :: ps).map Part.entry, none) := by
  rw [stepTextsFrom_closed hraw]
  clear hraw
  induction ps generalizing descendant raw with
  | nil => simp [layout, stepTextsFrom, StepScan.start, StepScan.fault?, Part.entry]
  | cons p ps ih =>
    obtain ⟨hp, hps⟩ := List.forall_mem_cons.mp hps
    obtain ⟨hpne, hne⟩ := List.forall_mem_cons.mp hne
    rw [layout_cons, stepTextsFrom_slashes hp hpne, stepTextsFrom_closed hp, ih hps hne,
      List.reverse_reverse]
    rfl

/-- A closed text is a row of closed parts, and it is cut into them. -/
theorem exists_stepTexts {sep : Char} {n : Delimiters.Nesting}
    (h : (Delimiters.atTop sep).scan n cs = some (0, none)) (descendant : Bool) (raw : List Char) :
    ∃ text ps, stepTextsFrom (.ofNesting n) descendant raw cs =
        ((⟨descendant, raw.reverse ++ text⟩ :: ps).map Part.entry, none) ∧
      cs = text ++ layout slashes ps ∧ (Delimiters.atTop '/').scan n text = some (0, none) ∧
      ∀ p ∈ ps, (Delimiters.atTop '/').Closed p.raw := by
  generalize hs : StepScan.ofNesting n = s
  -- the end with a fault and without one, two slashes, one slash, another character
  fun_induction stepTextsFrom s descendant raw cs generalizing n with
  | case1 s descendant raw f hf =>
    obtain rfl := Option.some.inj h
    rw [← hs] at hf
    cases hf
  | case2 s descendant raw =>
    exact ⟨[], [], by simp [Part.entry], rfl, h, by simp⟩
  | case3 s descendant raw c cs htop ih =>
    obtain ⟨rfl, rfl⟩ : c = '/' ∧ n = (0, none) := by
      simpa [← hs, StepScan.isTop_ofNesting] using htop
    have hrest := closed_of_slash_cons (closed_of_slash_cons h)
    obtain ⟨text, ps, htexts, rfl, hscan, hps⟩ := ih hrest hs
    refine ⟨[], ⟨true, text⟩ :: ps, ?_, rfl, rfl, List.forall_mem_cons.mpr ⟨hscan, hps⟩⟩
    rw [htexts, List.append_nil]
    rfl
  | case4 s descendant raw c cs hcs htop ih =>
    obtain ⟨rfl, rfl⟩ : c = '/' ∧ n = (0, none) := by
      simpa [← hs, StepScan.isTop_ofNesting] using htop
    obtain ⟨text, ps, htexts, rfl, hscan, hps⟩ := ih (closed_of_slash_cons h) hs
    refine ⟨[], ⟨false, text⟩ :: ps, ?_, rfl, rfl, List.forall_mem_cons.mpr ⟨hscan, hps⟩⟩
    rw [htexts, List.append_nil]
    rfl
  | case5 s descendant raw c cs hcut ih =>
    have hcut : ¬(c = '/' ∧ n = (0, none)) := by
      rw [← StepScan.isTop_ofNesting, hs]
      simpa using hcut
    rw [Delimiters.scan_cons, Option.bind_eq_some_iff] at h
    obtain ⟨m, hm, h⟩ := h
    have hpass := advance_eq_some_iff.mp hm
    obtain ⟨text, ps, htexts, rfl, hscan, hps⟩ := ih h (by rw [← hs, hpass.next])
    refine ⟨c :: text, ps, by simpa using htexts, rfl, ?_, hps⟩
    rw [Delimiters.scan_cons, advance_eq_some_iff.mpr (hpass.of_not_cut hcut)]
    exact hscan

/-- Texts without a fault are read one after another. -/
theorem readSteps_eq_ok_iff
    (htexts : stepTextsFrom .start descendant [] body = (ps.map Part.entry, none)) :
    readSteps descendant body = .ok steps ↔
      List.Forall₂ (fun p s => readStep p.kind p.raw = .ok s) ps steps := by
  have hread : readSteps descendant body =
      (ps.map Part.entry).mapM fun text => readStep text.1 text.2 := by
    rw [readSteps, htexts]
    exact bind_pure _
  rw [hread, mapM_eq_ok_iff, List.forall₂_map_left_iff]
  rfl

theorem readBody_of_ne_nil (absolute descendant : Bool) (hbody : body ≠ []) :
    readBody absolute descendant body = (do
      return ⟨absolute, ← readSteps descendant body⟩) := by
  rw [readBody, List.isEmpty_eq_false_iff.mpr hbody]
  rfl

theorem readBody_of_parts (absolute : Bool)
    (h : List.Forall₂ ReadsStep (⟨descendant, raw⟩ :: ps) steps) :
    readBody absolute descendant (raw ++ layout slashes ps) = .ok ⟨absolute, steps⟩ := by
  obtain ⟨hclosed, hread⟩ := (List.forall₂_and_left _ _).mp h
  obtain ⟨hraw, hps⟩ := List.forall_mem_cons.mp hclosed
  have hraws : ∀ p ∈ ⟨descendant, raw⟩ :: ps, p.raw ≠ [] := by
    intro p hp hnil
    have htrim := forall_raw_of_forall₂ (fun _ _ h => trim_ne_nil_of_readStep h) hread p hp
    exact htrim (by rw [hnil]; rfl)
  obtain ⟨hne, hnes⟩ := List.forall_mem_cons.mp hraws
  have hbody : raw ++ layout slashes ps ≠ [] := by simp [hne]
  have hsteps := (readSteps_eq_ok_iff (stepTextsFrom_layout hraw hps hnes)).mpr hread
  rw [readBody_of_ne_nil _ _ hbody, hsteps]
  rfl

/-- A part that is closed, as those of alternatives are, is read in no other way. -/
theorem exists_parts_of_readBody {sep : Char} (hclosed : (Delimiters.atTop sep).Closed body)
    (hbody : body ≠ []) (h : readBody absolute descendant body = .ok path) :
    ∃ raw ps steps, body = raw ++ layout slashes ps ∧
      List.Forall₂ ReadsStep (⟨descendant, raw⟩ :: ps) steps ∧ path = ⟨absolute, steps⟩ := by
  rw [readBody_of_ne_nil _ _ hbody, bind_eq_ok_iff] at h
  obtain ⟨steps, hsteps, hret⟩ := h
  cases hret
  obtain ⟨raw, ps, htexts, rfl, hraw, hps⟩ := exists_stepTexts hclosed descendant []
  have hread := (readSteps_eq_ok_iff htexts).mp hsteps
  refine ⟨raw, ps, steps, rfl, ?_, rfl⟩
  exact (List.forall₂_and_left _ _).mpr ⟨List.forall_mem_cons.mpr ⟨hraw, hps⟩, hread⟩

/-- A path whose text begins with something else than a slash. -/
theorem readLocationPath_cons {c : Char} (hc : c ≠ '/') (cs : List Char) :
    readLocationPath (c :: cs) = readBody false false (c :: cs) := by
  rw [readLocationPath]
  · intro body h
    exact hc (List.cons.inj h).1
  · intro body h
    exact hc (List.cons.inj h).1

theorem readLocationPath_slash_cons {c : Char} (hc : c ≠ '/') (cs : List Char) :
    readLocationPath ('/' :: c :: cs) = readBody true false (c :: cs) := by
  rw [readLocationPath]
  intro body h
  exact hc (List.cons.inj h).1

/-- A step is not empty, and no slash begins it. -/
theorem exists_head_of_readsStep (h : ReadsStep ⟨descendant, raw⟩ s) :
    ∃ c cs, raw = c :: cs ∧ c ≠ '/' := by
  obtain ⟨hclosed, hread⟩ := h
  obtain ⟨c, cs, rfl⟩ := List.exists_cons_of_ne_nil (ne_nil_of_readStep hread)
  exact ⟨c, cs, rfl, ne_slash_of_closed hclosed⟩

theorem readLocationPath_of_slashes (hne : ps ≠ []) (h : List.Forall₂ ReadsStep ps steps) :
    readLocationPath (layout slashes ps) = .ok ⟨true, steps⟩ := by
  obtain ⟨⟨d, raw⟩, ps, rfl⟩ := List.exists_cons_of_ne_nil hne
  have hread := readBody_of_parts true h
  rcases h with _ | ⟨hfirst, -⟩
  obtain ⟨c, cs, rfl, hc⟩ := exists_head_of_readsStep hfirst
  cases d with
  | true => exact hread
  | false => exact (readLocationPath_slash_cons hc _).trans hread

theorem readLocationPath_of_row (h : List.Forall₂ ReadsStep (⟨false, raw⟩ :: ps) steps) :
    readLocationPath (raw ++ layout slashes ps) = .ok ⟨false, steps⟩ := by
  have hread := readBody_of_parts false h
  rcases h with _ | ⟨hfirst, -⟩
  obtain ⟨c, cs, rfl, hc⟩ := exists_head_of_readsStep hfirst
  exact (readLocationPath_cons hc _).trans hread

/-- A location path is a single slash, steps behind slashes, or a step and further ones behind
slashes. -/
theorem readLocationPath_eq_ok_iff (hclosed : (Delimiters.atTop '|').Closed cs) :
    readLocationPath cs = .ok path ↔
      cs = ['/'] ∧ path = ⟨true, []⟩ ∨
      (∃ ps steps, ps ≠ [] ∧ cs = layout slashes ps ∧ List.Forall₂ ReadsStep ps steps ∧
        path = ⟨true, steps⟩) ∨
      ∃ raw ps steps, cs = raw ++ layout slashes ps ∧
        List.Forall₂ ReadsStep (⟨false, raw⟩ :: ps) steps ∧ path = ⟨false, steps⟩ := by
  constructor
  · intro h
    unfold readLocationPath at h
    -- two slashes, one slash, or none
    split at h
    · rename_i body
      by_cases hbody : body = []
      · subst hbody
        cases h
      · have hrest := closed_of_slash_cons (closed_of_slash_cons hclosed)
        obtain ⟨raw, ps, steps, rfl, hps, rfl⟩ := exists_parts_of_readBody hrest hbody h
        exact .inr (.inl ⟨_, steps, List.cons_ne_nil _ _, rfl, hps, rfl⟩)
    · rename_i body hslash
      by_cases hbody : body = []
      · subst hbody
        cases h
        exact .inl ⟨rfl, rfl⟩
      · have hrest := closed_of_slash_cons hclosed
        obtain ⟨raw, ps, steps, rfl, hps, rfl⟩ := exists_parts_of_readBody hrest hbody h
        exact .inr (.inl ⟨_, steps, List.cons_ne_nil _ _, rfl, hps, rfl⟩)
    · by_cases hcs : cs = []
      · subst hcs
        cases h
      · obtain ⟨raw, ps, steps, rfl, hps, rfl⟩ := exists_parts_of_readBody hclosed hcs h
        exact .inr (.inr ⟨raw, ps, steps, rfl, hps, rfl⟩)
  · rintro (⟨rfl, rfl⟩ | ⟨ps, steps, hne, rfl, hps, rfl⟩ | ⟨raw, ps, steps, rfl, hps, rfl⟩)
    · rfl
    · exact readLocationPath_of_slashes hne hps
    · exact readLocationPath_of_row hps

/-- The same with white space around the path. -/
theorem readLocationPath_trim_eq_ok_iff (hclosed : (Delimiters.atTop '|').Closed cs) :
    readLocationPath (trim cs) = .ok path ↔
      trim cs = ['/'] ∧ path = ⟨true, []⟩ ∨
      (∃ pre ps steps, AllBlank pre ∧ ps ≠ [] ∧ cs = pre ++ layout slashes ps ∧
        List.Forall₂ ReadsStep ps steps ∧ path = ⟨true, steps⟩) ∨
      ∃ raw ps steps, cs = raw ++ layout slashes ps ∧
        List.Forall₂ ReadsStep (⟨false, raw⟩ :: ps) steps ∧ path = ⟨false, steps⟩ := by
  rw [readLocationPath_eq_ok_iff ((closed_trim_iff isBlank_bar cs).mpr hclosed)]
  have hraw {ps : List (Part Bool)} {steps : List Step} (h : List.Forall₂ ReadsStep ps steps) :
      ∀ p ∈ ps, trim p.raw ≠ [] :=
    forall_raw_of_forall₂ (fun _ _ hp => trim_ne_nil_of_readStep hp.2) h
  constructor
  · rintro (h | ⟨ps, steps, hne, h, hps, rfl⟩ | ⟨raw, ps, steps, h, hps, rfl⟩)
    · exact .inl h
    · -- white space in front of the slashes belongs to no step
      obtain ⟨pre, post, hpre, hpost, hcs⟩ := exists_trim cs
      obtain ⟨qs, hsame, htext⟩ := exists_layout_append slashes hne hpost
      have hqs := forall₂_of_same readsStep_of_same hsame hps
      refine .inr (.inl ⟨pre, qs, steps, hpre, ?_, ?_, hqs, rfl⟩)
      · rintro rfl
        cases hsame
        exact hne rfl
      · rw [hcs, h, htext]
    · obtain ⟨⟨d, raw'⟩, qs, hsame, hcs⟩ := exists_row_of_trim slashes ⟨false, raw⟩ h
      have hqs := forall₂_of_same readsStep_of_same hsame hps
      rcases hsame with _ | ⟨⟨hkind, -⟩, -⟩
      obtain rfl : d = false := hkind
      exact .inr (.inr ⟨raw', qs, steps, hcs, hqs, rfl⟩)
  · rintro (h | ⟨pre, ps, steps, hpre, hne, rfl, hps, rfl⟩ | ⟨raw, ps, steps, rfl, hps, rfl⟩)
    · exact .inl h
    · obtain ⟨qs, hsame, htext⟩ := exists_layout_trimEnd slashes hne (hraw hps)
      have hqs := forall₂_of_same readsStep_of_same hsame hps
      refine .inr (.inl ⟨qs, steps, ?_, ?_, hqs, rfl⟩)
      · rintro rfl
        cases hsame
        exact hne rfl
      · -- the first slash is no white space
        have hstart : trimStart (layout slashes ps) = layout slashes ps := by
          obtain ⟨⟨d, raw⟩, ps, rfl⟩ := List.exists_cons_of_ne_nil hne
          cases d <;> exact trimStart_cons_of_not_blank isBlank_slash _
        rw [trim_append_of_allBlank hpre, trim, hstart, htext]
    · obtain ⟨⟨d, raw'⟩, qs, hsame, htext⟩ :=
        exists_row_trim slashes (hraw hps)
      have hqs := forall₂_of_same readsStep_of_same hsame hps
      rcases hsame with _ | ⟨⟨hkind, -⟩, -⟩
      obtain rfl : d = false := hkind
      exact .inr (.inr ⟨raw', qs, steps, htext, hqs, rfl⟩)

end Steps

/-! Alternatives -/

section Alternatives

variable {cs : List Char} {paths : List LocationPath}

/-- A bar leads to each alternative but the first. -/
def bar (_ : Unit) : List Char :=
  ['|']

/-- An alternative is read from its text. -/
def ReadsPath (p : Part Unit) (path : LocationPath) : Prop :=
  (Delimiters.atTop '|').Closed p.raw ∧ readLocationPath (trim p.raw) = .ok path

theorem readsPath_of_same (p q : Part Unit) (path : LocationPath) (hpq : p.Same q)
    (hp : ReadsPath p path) : ReadsPath q path := by
  obtain ⟨-, htrim⟩ := hpq
  obtain ⟨hclosed, hread⟩ := hp
  constructor
  · rw [← closed_trim_iff isBlank_bar, htrim, closed_trim_iff isBlank_bar]
    exact hclosed
  · rw [htrim]
    exact hread

theorem trim_raw_ne_nil_of_readsPath (p : Part Unit) (path : LocationPath)
    (h : ReadsPath p path) : trim p.raw ≠ [] := by
  intro hnil
  have hread := h.2
  rw [hnil] at hread
  cases hread

theorem layout_bar (rest : List (List Char)) :
    layout bar (rest.map (Part.mk ())) = rest.flatMap ('|' :: ·) := by
  rw [layout, List.flatMap_map]
  rfl

/-- The alternatives of a text without white space at its ends. -/
theorem readAlternatives_eq (hne : trim cs ≠ []) :
    readAlternatives cs = (do
      let parts ← splitTopLevel '|' (trim cs)
      parts.mapM fun part => readLocationPath (trim part)) := by
  rw [readAlternatives, List.isEmpty_eq_false_iff.mpr hne]
  rfl

theorem forall₂_readsPath_iff {parts : List (List Char)} :
    List.Forall₂ ReadsPath (parts.map (Part.mk ())) paths ↔
      (∀ part ∈ parts, (Delimiters.atTop '|').Closed part) ∧
        parts.mapM (fun part => readLocationPath (trim part)) = .ok paths := by
  rw [List.forall₂_map_left_iff, mapM_eq_ok_iff]
  exact List.forall₂_and_left parts paths

theorem readAlternatives_trimmed_eq_ok_iff (hne : trim cs ≠ []) :
    readAlternatives cs = .ok paths ↔ ∃ p ps, trim cs = p.raw ++ layout bar ps ∧
      List.Forall₂ ReadsPath (p :: ps) paths := by
  rw [readAlternatives_eq hne, bind_eq_ok_iff]
  constructor
  · rintro ⟨parts, hsplit, hread⟩
    obtain ⟨part, rest, rfl, hclosed, htext⟩ := (splitTopLevel_eq_ok_iff isSeparator_bar).mp hsplit
    refine ⟨⟨(), part⟩, rest.map (Part.mk ()), by rw [layout_bar]; exact htext, ?_⟩
    exact forall₂_readsPath_iff.mpr ⟨hclosed, hread⟩
  · rintro ⟨p, ps, htext, h⟩
    -- a part is nothing more than its text
    have hps : p :: ps = ((p :: ps).map Part.raw).map (Part.mk ()) := by
      rw [List.map_map]
      exact (List.map_id (p :: ps)).symm
    rw [hps] at h
    obtain ⟨hclosed, hread⟩ := forall₂_readsPath_iff.mp h
    refine ⟨(p :: ps).map Part.raw, ?_, hread⟩
    rw [splitTopLevel_eq_ok_iff isSeparator_bar]
    refine ⟨p.raw, ps.map Part.raw, rfl, hclosed, ?_⟩
    rw [htext, ← layout_bar, List.map_map]
    exact congrArg _ (congrArg _ (List.map_id ps).symm)

/-- An expression is an alternative and further ones behind bars. -/
theorem readAlternatives_eq_ok_iff :
    readAlternatives cs = .ok paths ↔ ∃ p ps, cs = p.raw ++ layout bar ps ∧
      List.Forall₂ ReadsPath (p :: ps) paths := by
  constructor
  · intro h
    have hne : trim cs ≠ [] := by
      intro hnil
      rw [readAlternatives, hnil] at h
      cases h
    obtain ⟨p, ps, htext, hps⟩ := (readAlternatives_trimmed_eq_ok_iff hne).mp h
    -- the white space at the ends goes to the first and the last alternative
    obtain ⟨q, qs, hsame, hcs⟩ := exists_row_of_trim bar p htext
    exact ⟨q, qs, hcs, forall₂_of_same readsPath_of_same hsame hps⟩
  · rintro ⟨p, ps, rfl, h⟩
    have hraw := forall_raw_of_forall₂ trim_raw_ne_nil_of_readsPath h
    obtain ⟨q, qs, hsame, htext⟩ := exists_row_trim bar hraw
    have hqs := forall₂_of_same readsPath_of_same hsame h
    have hne : trim (p.raw ++ layout bar ps) ≠ [] := by
      rw [ne_eq, trim_eq_nil_iff]
      intro hblank
      have hp := hraw p List.mem_cons_self
      exact hp (trim_eq_nil_iff.mpr fun c hc => hblank c (List.mem_append_left _ hc))
    exact (readAlternatives_trimmed_eq_ok_iff hne).mpr ⟨q, qs, htext, hqs⟩

end Alternatives

/-! Texts without bars and slashes -/

section Undivided

variable {c : Char} {cs : List Char}

/-- What stands in front of every part divides a text that has parts. -/
theorem eq_nil_of_not_mem_layout {κ : Type} {lead : κ → List Char} {ps : List (Part κ)}
    (hlead : ∀ k, c ∈ lead k) (h : c ∉ layout lead ps) : ps = [] := by
  cases ps with
  | nil => rfl
  | cons p ps =>
    rw [layout_cons, List.mem_append, not_or] at h
    exact absurd (hlead p.kind) h.1

theorem slash_mem_slashes (descendant : Bool) : '/' ∈ slashes descendant := by
  cases descendant <;> simp [slashes]

theorem readLocationPath_of_undivided {path : LocationPath} (hslash : '/' ∉ cs)
    (hclosed : (Delimiters.atTop '|').Closed cs) (h : readLocationPath cs = .ok path) :
    ∃ s, path = ⟨false, [s]⟩ ∧ readStep false cs = .ok s := by
  rcases (readLocationPath_eq_ok_iff hclosed).mp h with
    ⟨hroot, -⟩ | ⟨ps, steps, hsome, hcs, -⟩ | ⟨raw, ps, steps, hcs, hsteps, rfl⟩
  · rw [hroot] at hslash
    exact absurd (List.mem_singleton_self _) hslash
  · rw [hcs] at hslash
    exact absurd (eq_nil_of_not_mem_layout slash_mem_slashes hslash) hsome
  · rw [hcs, List.mem_append, not_or] at hslash
    obtain rfl := eq_nil_of_not_mem_layout slash_mem_slashes hslash.2
    obtain rfl : cs = raw := by simpa [layout] using hcs
    rcases hsteps with _ | ⟨⟨-, hstep⟩, ⟨⟩⟩
    exact ⟨_, rfl, hstep⟩

/-- A text without bars and slashes is a single step. -/
theorem readAlternatives_of_undivided {paths : List LocationPath} (hbar : '|' ∉ trim cs)
    (hslash : '/' ∉ trim cs) (h : readAlternatives cs = .ok paths) :
    ∃ s, paths = [⟨false, [s]⟩] ∧ readStep false cs = .ok s := by
  have hne : trim cs ≠ [] := by
    intro hnil
    rw [readAlternatives, hnil] at h
    cases h
  obtain ⟨p, ps, htext, hps⟩ := (readAlternatives_trimmed_eq_ok_iff hne).mp h
  rw [htext, List.mem_append, not_or] at hbar
  obtain rfl := eq_nil_of_not_mem_layout (fun _ => List.mem_singleton_self _) hbar.2
  have hraw : p.raw = trim cs := by simpa [layout] using htext.symm
  rcases hps with _ | ⟨⟨hclosed, hread⟩, ⟨⟩⟩
  rw [hraw] at hclosed
  rw [hraw, trim_trim] at hread
  obtain ⟨s, rfl, hstep⟩ := readLocationPath_of_undivided hslash hclosed hread
  rw [readStep_trim] at hstep
  exact ⟨s, rfl, hstep⟩

end Undivided

end TransitAudit.Path
