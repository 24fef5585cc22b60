import Mathlib.Data.List.DropRight
import TransitAudit.Text.Trim

/-! White space around a text, and texts cut at a character. What is left when white space is removed
begins and ends with characters of another kind, and white space put around it again makes no
difference. -/
namespace TransitAudit.Text

/-! White space -/

/-- Nothing but white space. -/
def AllBlank (cs : List Char) : Prop :=
  ∀ c ∈ cs, isBlank c = true

variable {pre post cs ds : List Char} {c : Char}

theorem isBlank_eq_false (hl : 0x20 < c.toNat) (hu : c.toNat < 0x85) : isBlank c = false := by
  simp only [isBlank, inRanges, List.any_toArray, List.any_cons, List.any_nil]
  simp
  omega

theorem AllBlank.nil : AllBlank [] := by
  simp [AllBlank]

theorem AllBlank.append (hcs : AllBlank cs) (hds : AllBlank ds) : AllBlank (cs ++ ds) := by
  intro c hc
  rcases List.mem_append.mp hc with h | h
  · exact hcs c h
  · exact hds c h

theorem AllBlank.reverse (hcs : AllBlank cs) : AllBlank cs.reverse :=
  fun c hc => hcs c (List.mem_reverse.mp hc)

theorem AllBlank.of_isPrefix (hds : AllBlank ds) (h : cs <+: ds) : AllBlank cs :=
  fun c hc => hds c (h.subset hc)

theorem AllBlank.not_mem (hcs : AllBlank cs) (hc : isBlank c = false) : c ∉ cs := by
  intro h
  rw [hcs c h] at hc
  cases hc

/-! At the start -/

theorem trimStart_append_of_allBlank (h : AllBlank pre) (cs : List Char) :
    trimStart (pre ++ cs) = trimStart cs :=
  List.dropWhile_append_of_pos h

theorem trimStart_cons_of_not_blank (hc : isBlank c = false) (cs : List Char) :
    trimStart (c :: cs) = c :: cs := by
  rw [trimStart, List.dropWhile_cons_of_neg (by simp [hc])]

theorem trimStart_eq_nil_iff : trimStart cs = [] ↔ AllBlank cs :=
  List.dropWhile_eq_nil_iff

theorem exists_trimStart (cs : List Char) : ∃ pre, AllBlank pre ∧ cs = pre ++ trimStart cs := by
  refine ⟨cs.takeWhile isBlank, fun c hc => List.mem_takeWhile_imp hc, ?_⟩
  exact List.takeWhile_append_dropWhile.symm

theorem not_blank_of_trimStart (h : trimStart cs = c :: ds) : isBlank c = false := by
  have hne : trimStart cs ≠ [] := by simp [h]
  have hhead := List.head_dropWhile_not isBlank hne
  have hc : (trimStart cs).head hne = c := by simp [h]
  rw [← hc]
  exact hhead

theorem trimStart_append_of_ne_nil (h : trimStart cs ≠ []) (ds : List Char) :
    trimStart (cs ++ ds) = trimStart cs ++ ds := by
  have hne : ¬(cs.dropWhile isBlank).isEmpty = true := by
    rw [List.isEmpty_iff]
    exact h
  rw [trimStart, List.dropWhile_append, if_neg hne, trimStart]

/-! At the end -/

theorem trimEnd_eq_rdropWhile (cs : List Char) : trimEnd cs = cs.rdropWhile isBlank :=
  rfl

theorem trimEnd_append_of_allBlank (h : AllBlank post) (cs : List Char) :
    trimEnd (cs ++ post) = trimEnd cs := by
  rw [trimEnd, List.reverse_append, List.dropWhile_append_of_pos h.reverse, trimEnd]

theorem trimEnd_eq_nil_iff : trimEnd cs = [] ↔ AllBlank cs := by
  rw [trimEnd_eq_rdropWhile]
  exact List.rdropWhile_eq_nil_iff

theorem exists_trimEnd (cs : List Char) : ∃ post, AllBlank post ∧ cs = trimEnd cs ++ post := by
  refine ⟨cs.rtakeWhile isBlank, fun c hc => List.mem_rtakeWhile_imp hc, ?_⟩
  exact (List.rdropWhile_append_rtakeWhile ..).symm

/-- What is removed at the end stays within the last part, if there is something in it. -/
theorem trimEnd_append_of_ne_nil (h : trimEnd ds ≠ []) (cs : List Char) :
    trimEnd (cs ++ ds) = cs ++ trimEnd ds := by
  have hne : ¬(ds.reverse.dropWhile isBlank).isEmpty = true := by
    rw [List.isEmpty_iff]
    intro hnil
    exact h (by rw [trimEnd, hnil, List.reverse_nil])
  rw [trimEnd, List.reverse_append, List.dropWhile_append, if_neg hne, List.reverse_append,
    List.reverse_reverse, trimEnd]

theorem trimEnd_append_cons_of_not_blank (hc : isBlank c = false) (cs ds : List Char) :
    trimEnd (cs ++ c :: ds) = cs ++ c :: trimEnd ds := by
  have hsingle : trimEnd [c] = [c] := by
    rw [trimEnd_eq_rdropWhile, List.rdropWhile_singleton, if_neg (by simp [hc])]
  have hcons : trimEnd (c :: ds) = c :: trimEnd ds := by
    by_cases hds : trimEnd ds = []
    · have hblank := trimEnd_append_of_allBlank (trimEnd_eq_nil_iff.mp hds) [c]
      rw [hds, ← hsingle]
      exact hblank
    · exact trimEnd_append_of_ne_nil hds [c]
  rw [trimEnd_append_of_ne_nil (by simp [hcons]), hcons]

/-! At both ends -/

theorem trim_append_of_allBlank (h : AllBlank pre) (cs : List Char) :
    trim (pre ++ cs) = trim cs := by
  rw [trim, trimStart_append_of_allBlank h, trim]

theorem trim_append_right_of_allBlank (h : AllBlank post) (cs : List Char) :
    trim (cs ++ post) = trim cs := by
  obtain ⟨pre, hpre, hcs⟩ := exists_trimStart cs
  cases hs : trimStart cs with
  | nil =>
    -- white space only, with or without the part added
    have hblank : AllBlank cs := trimStart_eq_nil_iff.mp hs
    rw [trim, trim, hs, trimStart_eq_nil_iff.mpr (hblank.append h)]
  | cons c ds =>
    have hc := not_blank_of_trimStart hs
    rw [hcs, List.append_assoc, trim_append_of_allBlank hpre, trim_append_of_allBlank hpre, hs]
    rw [List.cons_append, trim, trimStart_cons_of_not_blank hc, ← List.cons_append,
      trimEnd_append_of_allBlank h, trim, trimStart_cons_of_not_blank hc]

theorem trim_eq_nil_iff : trim cs = [] ↔ AllBlank cs := by
  obtain ⟨pre, hpre, hcs⟩ := exists_trimStart cs
  rw [trim, trimEnd_eq_nil_iff]
  constructor
  · intro h
    rw [hcs]
    exact hpre.append h
  · intro h c hc
    exact h c (hcs ▸ List.mem_append_right pre hc)

theorem exists_trim (cs : List Char) :
    ∃ pre post, AllBlank pre ∧ AllBlank post ∧ cs = pre ++ (trim cs ++ post) := by
  obtain ⟨pre, hpre, hs⟩ := exists_trimStart cs
  obtain ⟨post, hpost, he⟩ := exists_trimEnd (trimStart cs)
  refine ⟨pre, post, hpre, hpost, ?_⟩
  rw [trim, ← he]
  exact hs

theorem trim_subset (cs : List Char) : trim cs ⊆ cs := by
  intro c hc
  obtain ⟨pre, post, -, -, hcs⟩ := exists_trim cs
  rw [hcs]
  simp [hc]

theorem trim_cons_of_not_blank (hc : isBlank c = false) (cs : List Char) :
    trim (c :: cs) = c :: trimEnd cs := by
  rw [trim, trimStart_cons_of_not_blank hc]
  exact trimEnd_append_cons_of_not_blank hc [] cs

theorem trim_trimStart (cs : List Char) : trim (trimStart cs) = trim cs := by
  obtain ⟨pre, hpre, hcs⟩ := exists_trimStart cs
  have h := trim_append_of_allBlank hpre (trimStart cs)
  rw [← hcs] at h
  exact h.symm

theorem not_blank_of_trim (h : trim cs = c :: ds) : isBlank c = false := by
  -- what is left at the end is decided behind the first character
  cases hs : trimStart cs with
  | nil =>
    rw [trim, hs] at h
    cases h
  | cons x xs =>
    have hx := not_blank_of_trimStart hs
    have hcons := trim_cons_of_not_blank hx xs
    rw [← hs, trim_trimStart, h] at hcons
    rw [(List.cons.inj hcons).1]
    exact hx

theorem trim_trimEnd (cs : List Char) : trim (trimEnd cs) = trim cs := by
  obtain ⟨post, hpost, he⟩ := exists_trimEnd cs
  have h := trim_append_right_of_allBlank hpost (trimEnd cs)
  rw [← he] at h
  exact h.symm

theorem trim_trim (cs : List Char) : trim (trim cs) = trim cs := by
  obtain ⟨pre, post, hpre, hpost, hcs⟩ := exists_trim cs
  calc trim (trim cs) = trim (trim cs ++ post) := (trim_append_right_of_allBlank hpost _).symm
    _ = trim (pre ++ (trim cs ++ post)) := (trim_append_of_allBlank hpre _).symm
    _ = trim cs := congrArg trim hcs.symm

/-- Nothing is left of a blank text, and of no other. -/
theorem isEmpty_trimmed (s : String) : (trimmed s).isEmpty = blank s := by
  rw [Bool.eq_iff_iff, String.isEmpty_iff, trimmed, String.ofList_eq_empty_iff, trim_eq_nil_iff,
    blank, List.all_eq_true]
  exact Iff.rfl

/-! Cutting at every occurrence of a character -/

variable {sep : Char} {part first second : List Char}

theorem splitAt_eq_splitOn (sep : Char) (cs : List Char) : splitAt sep cs = cs.splitOn sep := by
  induction cs with
  | nil => rfl
  | cons c cs ih =>
    have hne : cs.splitOn sep ≠ [] := List.splitOn_ne_nil sep cs
    rw [splitAt, List.splitOn_cons_eq_if_modifyHead, ih]
    obtain ⟨part, parts, hparts⟩ := List.exists_cons_of_ne_nil hne
    simp [hparts]

theorem splitAt_ne_nil (sep : Char) (cs : List Char) : splitAt sep cs ≠ [] := by
  rw [splitAt_eq_splitOn]
  exact List.splitOn_ne_nil sep cs

theorem splitAt_append_cons (cs ds : List Char) :
    splitAt sep (cs ++ sep :: ds) = splitAt sep cs ++ splitAt sep ds := by
  induction cs with
  | nil => simp [splitAt]
  | cons c cs ih =>
    obtain ⟨part, parts, hparts⟩ := List.exists_cons_of_ne_nil (splitAt_ne_nil sep cs)
    by_cases hc : c = sep <;> simp [splitAt, ih, hc, hparts]

/-- No part holds the character at which the text is cut. -/
theorem not_mem_of_mem_splitAt (h : part ∈ splitAt sep cs) : sep ∉ part := by
  induction cs generalizing part with
  | nil =>
    obtain rfl := List.mem_singleton.mp h
    simp
  | cons c cs ih =>
    rw [splitAt] at h
    split at h
    · rcases List.mem_cons.mp h with rfl | h
      · simp
      · exact ih h
    · rename_i hc
      split at h
      · obtain rfl := List.mem_singleton.mp h
        simpa using Ne.symm hc
      · rename_i next parts hparts
        rcases List.mem_cons.mp h with rfl | h
        · rw [List.mem_cons, not_or]
          exact ⟨Ne.symm hc, ih (hparts ▸ List.mem_cons_self)⟩
        · exact ih (hparts ▸ List.mem_cons_of_mem _ h)

theorem splitAt_eq_singleton_iff : splitAt sep cs = [part] ↔ cs = part ∧ sep ∉ cs := by
  constructor
  · intro h
    have hsep : sep ∉ part := not_mem_of_mem_splitAt (h ▸ List.mem_cons_self)
    have hjoin : [sep].intercalate (cs.splitOn sep) = cs := List.intercalate_splitOn sep
    rw [← splitAt_eq_splitOn, h] at hjoin
    have hcs : cs = part := by simpa using hjoin.symm
    exact ⟨hcs, hcs ▸ hsep⟩
  · rintro ⟨rfl, hsep⟩
    rw [splitAt_eq_splitOn, List.splitOn_eq_singleton hsep]

theorem splitAt_eq_pair_iff :
    splitAt sep cs = [first, second] ↔
      cs = first ++ sep :: second ∧ sep ∉ first ∧ sep ∉ second := by
  constructor
  · intro h
    have hfirst : sep ∉ first := not_mem_of_mem_splitAt (h ▸ List.mem_cons_self)
    have hsecond : sep ∉ second :=
      not_mem_of_mem_splitAt (h ▸ List.mem_cons_of_mem _ List.mem_cons_self)
    have hjoin : [sep].intercalate (cs.splitOn sep) = cs := List.intercalate_splitOn sep
    rw [← splitAt_eq_splitOn, h] at hjoin
    exact ⟨by simpa using hjoin.symm, hfirst, hsecond⟩
  · rintro ⟨rfl, hfirst, hsecond⟩
    rw [splitAt_eq_splitOn, List.splitOn_append_cons_self_of_not_mem hfirst,
      List.splitOn_eq_singleton hsecond]

/-! What follows the last occurrence of a character -/

theorem afterLast_eq_rtakeWhile (sep : Char) (cs : List Char) :
    afterLast sep cs = cs.rtakeWhile (· ≠ sep) :=
  rfl

theorem afterLast_of_not_mem (h : sep ∉ cs) : afterLast sep cs = cs := by
  rw [afterLast_eq_rtakeWhile, List.rtakeWhile_eq_self_iff]
  intro c hc
  rw [decide_eq_true_eq]
  rintro rfl
  exact h hc

theorem afterLast_append_cons (h : sep ∉ ds) (cs : List Char) :
    afterLast sep (cs ++ sep :: ds) = ds := by
  have hall : ∀ c ∈ ds.reverse, decide (c ≠ sep) = true := by
    intro c hc
    rw [decide_eq_true_eq]
    rintro rfl
    exact h (List.mem_reverse.mp hc)
  rw [afterLast, List.reverse_append, List.reverse_cons, List.append_assoc,
    List.takeWhile_append_of_pos hall]
  simp

/-! Taking a text off the front of another -/

theorem dropLeading?_eq_some_iff {ls rest : List Char} :
    dropLeading? ls cs = some rest ↔ cs = ls ++ rest := by
  induction ls generalizing cs with
  | nil => simp [dropLeading?]
  | cons l ls ih =>
    cases cs with
    | nil => simp [dropLeading?]
    | cons c cs =>
      rw [dropLeading?]
      split
      · rename_i hl
        subst hl
        simp [ih]
      · rename_i hl
        simp [Ne.symm hl]

end TransitAudit.Text
