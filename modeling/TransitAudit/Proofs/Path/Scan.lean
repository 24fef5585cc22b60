import Mathlib.Algebra.Group.Nat.Defs
import TransitAudit.Path.Parse
import TransitAudit.Proofs.Failure
import TransitAudit.Proofs.Text.Trim

/-! Cutting a text with regard to literals and brackets. One scanner follows the open brackets and
the literal that is open; a part is closed when the scanner passes over all of it without meeting
a place to cut. The parts of a text at a separator, and the groups of a text in brackets, are
exactly the ways to write it with closed parts. All of it is about the scanner's own counter, which
wraps around, and asks for no bound. -/
namespace TransitAudit.Path

/-! The counter of brackets. It shows a number of brackets up to multiples of 2^32, and the number
itself below 2^31. -/

section Counter

variable {k : Nat}

theorem counter_succ (k : Nat) : Int32.ofNat k + 1 = Int32.ofNat (k + 1) :=
  (Int32.ofNat_add k 1).symm

theorem counter_succ_sub_one (k : Nat) : Int32.ofNat (k + 1) - 1 = Int32.ofNat k := by
  rw [Int32.ofNat_add]
  exact Int32.add_sub_cancel _ _

theorem counter_eq_zero_iff_dvd : Int32.ofNat k = 0 ↔ 2 ^ 32 ∣ k := by
  rw [← Int32.toInt_inj, Int32.toInt_zero, Int32.toInt_ofNat', ← Int.dvd_iff_bmod_eq_zero]
  exact Int.natCast_dvd_natCast

theorem counter_eq_zero_iff (hk : k < 2 ^ 31) : Int32.ofNat k = 0 ↔ k = 0 := by
  rw [counter_eq_zero_iff_dvd]
  omega

theorem counter_nonneg (hk : k < 2 ^ 31) : 0 ≤ Int32.ofNat k := by
  rw [Int32.le_iff_toInt_le, Int32.toInt_ofNat_of_lt hk]
  exact Int.natCast_nonneg k

theorem counter_sub_one_neg_iff (hk : k < 2 ^ 31) : Int32.ofNat k - 1 < 0 ↔ k = 0 := by
  cases k with
  | zero => decide
  | succ k =>
    rw [counter_succ_sub_one, Int32.lt_iff_toInt_lt, Int32.toInt_ofNat_of_lt (by omega),
      Int32.toInt_zero]
    omega

end Counter

/-- What brackets count, where a text is cut outside literals and brackets, and at which counts a
bracket that closes stops the scanner. -/
structure Delimiters where
  opens : Char → Bool
  closes : Char → Bool
  cuts : Char → Bool
  stops : Int32 → Bool

namespace Delimiters

/-- Cuts at a separator outside brackets and parentheses. -/
def atTop (sep : Char) : Delimiters where
  opens c := c = '[' || c = '('
  closes c := c = ']' || c = ')'
  cuts c := c = sep
  stops depth := depth - 1 < 0

/-- Only square brackets count. -/
def groups : Delimiters where
  opens c := c = '['
  closes c := c = ']'
  cuts _ := false
  stops depth := depth = 0

variable (d : Delimiters)

/-- How many brackets are open, and the quote character of the literal that is open. -/
abbrev Nesting := Int32 × Option Char

/-- Passes over one character, unless the text is cut there or a bracket closes that is not open. -/
def advance : Nesting → Char → Option Nesting
  | (depth, some q), c => some (depth, if c = q then none else some q)
  | (depth, none), c =>
    if isQuote c then some (depth, some c)
    else if d.opens c then some (depth + 1, none)
    else if d.closes c then
      if d.stops depth then none else some (depth - 1, none)
    else if d.cuts c && depth = 0 then none
    else some (depth, none)

/-- Passes over a text. -/
def scan (n : Nesting) (cs : List Char) : Option Nesting :=
  cs.foldlM d.advance n

/-- A text that leaves nothing open and is cut nowhere. -/
def Closed (cs : List Char) : Prop :=
  d.scan (0, none) cs = some (0, none)

@[simp] theorem scan_nil (n : Nesting) : d.scan n [] = some n :=
  rfl

theorem scan_cons (n : Nesting) (c : Char) (cs : List Char) :
    d.scan n (c :: cs) = (d.advance n c).bind fun m => d.scan m cs :=
  List.foldlM_cons

/-- The characters that the scanner heeds. -/
def marks (c : Char) : Bool :=
  isQuote c || d.opens c || d.closes c || d.cuts c

variable {d}

theorem advance_of_not_marks {n : Nesting} (hn : ∀ q ∈ n.2, isQuote q = true) {c : Char}
    (hc : d.marks c = false) : d.advance n c = some n := by
  simp only [marks, Bool.or_eq_false_iff] at hc
  obtain ⟨⟨⟨hquote, hopens⟩, hcloses⟩, hcuts⟩ := hc
  obtain ⟨depth, _ | q⟩ := n
  · simp [advance, hquote, hopens, hcloses, hcuts]
  · have hne : c ≠ q := by
      rintro rfl
      rw [hn c rfl] at hquote
      cases hquote
    simp [advance, hne]

theorem quote_of_advance {n m : Nesting} (hn : ∀ q ∈ n.2, isQuote q = true) {c : Char}
    (h : d.advance n c = some m) : ∀ q ∈ m.2, isQuote q = true := by
  obtain ⟨depth, _ | q⟩ := n
  · simp only [advance] at h
    split at h
    · rename_i hquote
      obtain rfl := Option.some.inj h
      simpa using hquote
    · split_ifs at h
      all_goals
        obtain rfl := Option.some.inj h
        simp
  · obtain rfl := Option.some.inj h
    by_cases hc : c = q
    · simp [hc]
    · simpa [hc] using hn

theorem scan_filter_marks {n : Nesting} (hn : ∀ q ∈ n.2, isQuote q = true) (cs : List Char) :
    d.scan n (cs.filter d.marks) = d.scan n cs := by
  -- a character that is no mark changes nothing, in a literal or outside
  induction cs generalizing n with
  | nil => rfl
  | cons c cs ih =>
    cases hc : d.marks c with
    | true =>
      rw [List.filter_cons_of_pos hc, scan_cons, scan_cons]
      cases ha : d.advance n c with
      | none => rfl
      | some m => exact ih (quote_of_advance hn ha)
    | false =>
      rw [List.filter_cons_of_neg (by simp [hc]), scan_cons, advance_of_not_marks hn hc]
      exact ih hn

/-- Whether a text is closed depends on nothing but those characters. -/
theorem closed_congr {cs ds : List Char} (h : cs.filter d.marks = ds.filter d.marks) :
    d.Closed cs ↔ d.Closed ds := by
  have hstart : ∀ q ∈ ((0, none) : Nesting).2, isQuote q = true := by simp
  rw [Closed, Closed, ← scan_filter_marks hstart cs, h, scan_filter_marks hstart ds]

theorem scan_append (n : Nesting) (cs ds : List Char) :
    d.scan n (cs ++ ds) = (d.scan n cs).bind fun m => d.scan m ds :=
  List.foldlM_append

theorem scan_of_not_mem {depth : Int32} {q : Char} {text : List Char} (hmem : q ∉ text) :
    d.scan (depth, some q) text = some (depth, some q) := by
  induction text with
  | nil => rfl
  | cons c text ih =>
    rw [List.mem_cons, not_or] at hmem
    have hstay : d.advance (depth, some q) c = some (depth, some q) := by
      simp [advance, Ne.symm hmem.1]
    rw [scan_cons, hstay]
    exact ih hmem.2

/-- A literal is passed over with its quotes. -/
theorem scan_literal {depth : Int32} {q : Char} (hq : isQuote q = true) {text : List Char}
    (hmem : q ∉ text) (cs : List Char) :
    d.scan (depth, none) (q :: (text ++ q :: cs)) = d.scan (depth, none) cs := by
  have hopen : d.advance (depth, none) q = some (depth, some q) := by simp [advance, hq]
  have hclose : d.advance (depth, some q) q = some (depth, none) := by simp [advance]
  calc d.scan (depth, none) (q :: (text ++ q :: cs))
      = d.scan (depth, some q) (text ++ q :: cs) := by rw [scan_cons, hopen]; rfl
    _ = d.scan (depth, some q) (q :: cs) := by rw [scan_append, scan_of_not_mem hmem]; rfl
    _ = d.scan (depth, none) cs := by rw [scan_cons, hclose]; rfl

end Delimiters

/-! Parts between separators -/

section Split

variable {sep : Char} {n m : Delimiters.Nesting} {c : Char} {cs part : List Char}
  {parts : List (List Char)}

/-- The separator is none of the characters that open or close something. -/
def IsSeparator (sep : Char) : Prop :=
  isQuote sep = false ∧ sep ≠ '[' ∧ sep ≠ '(' ∧ sep ≠ ']' ∧ sep ≠ ')'

theorem IsSeparator.ne_closing (hsep : IsSeparator sep) (hc : c = ']' ∨ c = ')') : c ≠ sep := by
  obtain ⟨-, -, -, hclose, hclose'⟩ := hsep
  rcases hc with rfl | rfl
  · exact hclose.symm
  · exact hclose'.symm

/-- How the scanner goes on over a character. -/
inductive Passes (sep : Char) : Delimiters.Nesting → Char → Delimiters.Nesting → Prop
  | literal {depth q c} : Passes sep (depth, some q) c (depth, if c = q then none else some q)
  | quote {depth c} (hquote : isQuote c = true) : Passes sep (depth, none) c (depth, some c)
  | opens {depth c} (hquote : isQuote c = false) (hopens : c = '[' ∨ c = '(') :
      Passes sep (depth, none) c (depth + 1, none)
  | closes {depth c} (hquote : isQuote c = false) (hopens : ¬(c = '[' ∨ c = '('))
      (hcloses : c = ']' ∨ c = ')') (hdepth : ¬depth - 1 < 0) :
      Passes sep (depth, none) c (depth - 1, none)
  | other {depth c} (hquote : isQuote c = false) (hopens : ¬(c = '[' ∨ c = '('))
      (hcloses : ¬(c = ']' ∨ c = ')')) (hcut : ¬(c = sep ∧ depth = 0)) :
      Passes sep (depth, none) c (depth, none)

theorem advance_eq_some_iff : (Delimiters.atTop sep).advance n c = some m ↔ Passes sep n c m := by
  constructor
  · intro h
    obtain ⟨depth, _ | q⟩ := n
    · by_cases hq : isQuote c = true
      · obtain rfl : (depth, some c) = m := by simpa [Delimiters.advance, hq] using h
        exact .quote hq
      · by_cases ho : c = '[' ∨ c = '('
        · obtain rfl : (depth + 1, none) = m := by
            simpa [Delimiters.advance, Delimiters.atTop, hq, ho] using h
          exact .opens (by simpa using hq) ho
        · by_cases hc : c = ']' ∨ c = ')'
          · obtain ⟨hdepth, rfl⟩ : ¬depth - 1 < 0 ∧ (depth - 1, none) = m := by
              simpa [Delimiters.advance, Delimiters.atTop, hq, ho, hc] using h
            exact .closes (by simpa using hq) ho hc hdepth
          · obtain ⟨hcut, rfl⟩ : (c = sep → depth ≠ 0) ∧ (depth, none) = m := by
              simpa [Delimiters.advance, Delimiters.atTop, hq, ho, hc] using h
            exact .other (by simpa using hq) ho hc (by simpa using hcut)
    · obtain rfl := Option.some.inj h
      exact .literal
  · intro h
    cases h with
    | literal => rfl
    | quote hq => simp [Delimiters.advance, hq]
    | opens hq ho => simp [Delimiters.advance, Delimiters.atTop, hq, ho]
    | closes hq ho hc hdepth =>
      simpa [Delimiters.advance, Delimiters.atTop, hq, ho, hc] using hdepth
    | other hq ho hc hcut => simpa [Delimiters.advance, Delimiters.atTop, hq, ho, hc] using hcut

/-- The scanner stops at separators outside all brackets and at brackets that bring the counter
below nothing. -/
inductive Stops (sep : Char) : Delimiters.Nesting → Char → Prop
  | closes {depth c} (hquote : isQuote c = false) (hopens : ¬(c = '[' ∨ c = '('))
      (hcloses : c = ']' ∨ c = ')') (hdepth : depth - 1 < 0) : Stops sep (depth, none) c
  | cut (hquote : isQuote sep = false) (hopens : ¬(sep = '[' ∨ sep = '('))
      (hcloses : ¬(sep = ']' ∨ sep = ')')) : Stops sep (0, none) sep

theorem stops_of_advance_eq_none (h : (Delimiters.atTop sep).advance n c = none) :
    Stops sep n c := by
  have hstop {m : Delimiters.Nesting} : ¬Passes sep n c m := by
    intro hpass
    rw [advance_eq_some_iff.mpr hpass] at h
    cases h
  obtain ⟨depth, _ | q⟩ := n
  · have hquote : isQuote c = false := by
      by_contra hquote
      exact hstop (.quote (by simpa using hquote))
    have hopens : ¬(c = '[' ∨ c = '(') := fun hopens => hstop (.opens hquote hopens)
    by_cases hcloses : c = ']' ∨ c = ')'
    · refine .closes hquote hopens hcloses ?_
      by_contra hdepth
      exact hstop (.closes hquote hopens hcloses hdepth)
    · obtain ⟨rfl, rfl⟩ : c = sep ∧ depth = 0 := by
        by_contra hcut
        exact hstop (.other hquote hopens hcloses hcut)
      exact .cut hquote hopens hcloses
  · exact (hstop .literal).elim

/-- Where the scanner stops the text is cut, or else a bracket closes that is not open. -/
theorem splitFrom_cons (hsep : IsSeparator sep) (n : Delimiters.Nesting) (c : Char)
    (cs : List Char) :
    splitFrom sep n.1 n.2 (c :: cs) =
      match (Delimiters.atTop sep).advance n c with
      | some m => (splitFrom sep m.1 m.2 cs).map (onFirst c)
      | none =>
        if c = sep then
          (splitFrom sep 0 none cs).map fun (part, parts) => ([], part :: parts)
        else .error .unbalancedBrackets := by
  cases h : (Delimiters.atTop sep).advance n c with
  | some m =>
    cases advance_eq_some_iff.mp h with
    | literal => rfl
    | quote hq => simp [splitFrom, hq]
    | opens hq ho => simp [splitFrom, hq, ho]
    | closes hq ho hc hdepth => simp [splitFrom, hq, ho, hc, hdepth]
    | other hq ho hc hcut => simp [splitFrom, hq, ho, hc, hcut]
  | none =>
    cases stops_of_advance_eq_none h with
    | closes hq ho hc hdepth => simp [splitFrom, hq, ho, hc, hdepth, hsep.ne_closing hc]
    | cut hq ho hc => simp [splitFrom, hq, ho, hc]

theorem splitFrom_of_scan (hsep : IsSeparator sep)
    (h : (Delimiters.atTop sep).scan n part = some m) (cs : List Char) :
    splitFrom sep n.1 n.2 (part ++ cs) =
      (splitFrom sep m.1 m.2 cs).map fun (p, ps) => (part ++ p, ps) := by
  induction part generalizing n with
  | nil =>
    obtain rfl := Option.some.inj h
    cases hs : splitFrom sep n.1 n.2 cs <;> simp [hs, Except.map]
  | cons c part ih =>
    rw [Delimiters.scan_cons, Option.bind_eq_some_iff] at h
    obtain ⟨k, hk, h⟩ := h
    rw [List.cons_append, splitFrom_cons hsep, hk]
    change (splitFrom sep k.1 k.2 (part ++ cs)).map (onFirst c) = _
    rw [ih h]
    cases splitFrom sep m.1 m.2 cs <;> rfl

theorem splitFrom_nil_eq_ok_iff : splitFrom sep n.1 n.2 [] = .ok (part, parts) ↔
    n = (0, none) ∧ part = [] ∧ parts = [] := by
  obtain ⟨depth, _ | q⟩ := n
  · by_cases hd : depth = 0 <;> simp [splitFrom, hd, eq_comm]
  · simp [splitFrom]

theorem IsSeparator.advance_eq_none (hsep : IsSeparator sep) :
    (Delimiters.atTop sep).advance (0, none) sep = none := by
  obtain ⟨hquote, hopen, hopen', hclose, hclose'⟩ := hsep
  simp [Delimiters.advance, Delimiters.atTop, hquote, hopen, hopen', hclose, hclose']

theorem IsSeparator.eq_of_advance_eq_none (hsep : IsSeparator sep)
    (h : (Delimiters.atTop sep).advance n sep = none) : n = (0, none) := by
  cases stops_of_advance_eq_none h with
  | closes _ _ hc _ => exact absurd rfl (hsep.ne_closing hc)
  | cut => rfl

/-- A text that is cut is its parts with separators between them, and they are closed. -/
theorem closed_of_splitFrom (hsep : IsSeparator sep)
    (h : splitFrom sep n.1 n.2 cs = .ok (part, parts)) :
    (Delimiters.atTop sep).scan n part = some (0, none) ∧
      (∀ p ∈ parts, (Delimiters.atTop sep).Closed p) ∧
      cs = part ++ parts.flatMap (sep :: ·) := by
  induction cs generalizing n part parts with
  | nil =>
    obtain ⟨rfl, rfl, rfl⟩ := splitFrom_nil_eq_ok_iff.mp h
    simp
  | cons c cs ih =>
    rw [splitFrom_cons hsep] at h
    cases ha : (Delimiters.atTop sep).advance n c with
    | some m =>
      -- the character belongs to the part that is being read
      rw [ha, map_eq_ok_iff] at h
      obtain ⟨⟨p, ps⟩, hp, he⟩ := h
      obtain ⟨rfl, rfl⟩ := Prod.mk.inj he
      obtain ⟨hscan, hclosed, rfl⟩ := ih hp
      refine ⟨?_, hclosed, rfl⟩
      rw [Delimiters.scan_cons, ha]
      exact hscan
    | none =>
      -- it ends that part, so it is a separator
      rw [ha] at h
      split_ifs at h with hc
      subst hc
      obtain rfl := hsep.eq_of_advance_eq_none ha
      obtain ⟨⟨p, ps⟩, hp, he⟩ := map_eq_ok_iff.mp h
      obtain ⟨rfl, rfl⟩ := Prod.mk.inj he
      obtain ⟨hscan, hclosed, rfl⟩ := ih (n := (0, none)) hp
      exact ⟨rfl, List.forall_mem_cons.mpr ⟨hscan, hclosed⟩, rfl⟩

theorem splitFrom_of_closed (hsep : IsSeparator sep)
    (hscan : (Delimiters.atTop sep).scan n part = some (0, none))
    (hclosed : ∀ p ∈ parts, (Delimiters.atTop sep).Closed p) :
    splitFrom sep n.1 n.2 (part ++ parts.flatMap (sep :: ·)) = .ok (part, parts) := by
  rw [splitFrom_of_scan hsep hscan]
  induction parts generalizing n part with
  | nil => simp [splitFrom, Except.map]
  | cons p ps ih =>
    obtain ⟨hp, hps⟩ := List.forall_mem_cons.mp hclosed
    have hrest := ih hp hps
    have hcut := splitFrom_cons hsep (0, none) sep (p ++ ps.flatMap (sep :: ·))
    rw [hsep.advance_eq_none] at hcut
    simp only [if_true] at hcut
    rw [List.flatMap_cons, List.cons_append, hcut, splitFrom_of_scan hsep hp, hrest]
    simp [Except.map]

/-- A text is cut into closed parts in the only way there is. -/
theorem splitTopLevel_eq_ok_iff (hsep : IsSeparator sep) :
    splitTopLevel sep cs = .ok parts ↔ ∃ part rest, parts = part :: rest ∧
      (∀ p ∈ parts, (Delimiters.atTop sep).Closed p) ∧ cs = part ++ rest.flatMap (sep :: ·) := by
  rw [splitTopLevel, map_eq_ok_iff]
  constructor
  · rintro ⟨⟨part, rest⟩, h, rfl⟩
    obtain ⟨hpart, hrest, hcs⟩ := closed_of_splitFrom (n := (0, none)) hsep h
    exact ⟨part, rest, rfl, List.forall_mem_cons.mpr ⟨hpart, hrest⟩, hcs⟩
  · rintro ⟨part, rest, rfl, hclosed, hcs⟩
    obtain ⟨hpart, hrest⟩ := List.forall_mem_cons.mp hclosed
    refine ⟨(part, rest), ?_, rfl⟩
    rw [hcs]
    exact splitFrom_of_closed (n := (0, none)) hsep hpart hrest

/-! White space around a part -/

theorem marks_eq_false_of_blank (hsep : Text.isBlank sep = false) (hc : Text.isBlank c = true) :
    (Delimiters.atTop sep).marks c = false := by
  have hascii (x : Char) (hl : 0x20 < x.toNat) (hu : x.toNat < 0x85) : c ≠ x := by
    rintro rfl
    rw [Text.isBlank_eq_false hl hu] at hc
    cases hc
  have hs : c ≠ sep := by
    rintro rfl
    rw [hsep] at hc
    cases hc
  simp [Delimiters.marks, Delimiters.atTop, isQuote, hs, hascii '\x27' (by decide) (by decide),
    hascii '"' (by decide) (by decide), hascii '[' (by decide) (by decide),
    hascii '(' (by decide) (by decide), hascii ']' (by decide) (by decide),
    hascii ')' (by decide) (by decide)]

theorem closed_trim_iff (hsep : Text.isBlank sep = false) (cs : List Char) :
    (Delimiters.atTop sep).Closed (Text.trim cs) ↔ (Delimiters.atTop sep).Closed cs := by
  obtain ⟨pre, post, hpre, hpost, hcs⟩ := Text.exists_trim cs
  have hnone {ds : List Char} (hds : Text.AllBlank ds) :
      ds.filter (Delimiters.atTop sep).marks = [] := by
    rw [List.filter_eq_nil_iff]
    intro c hc
    simp [marks_eq_false_of_blank hsep (hds c hc)]
  apply Delimiters.closed_congr
  conv_rhs => rw [hcs]
  rw [List.filter_append, List.filter_append, hnone hpre, hnone hpost]
  simp

end Split

/-! Texts between slashes. Their scanner counts brackets without looking whether one closes that is
not open; it agrees with the others as long as those do not stop. -/

section Steps

variable {sep sep' c : Char} {n m : Delimiters.Nesting} {cs part : List Char}

theorem isSeparator_slash : IsSeparator '/' := by
  unfold IsSeparator isQuote
  decide

/-- The scanner of steps when so much is open. -/
def StepScan.ofNesting (n : Delimiters.Nesting) : StepScan :=
  ⟨n.1, n.2⟩

@[simp] theorem StepScan.ofNesting_zero : ofNesting (0, none) = start :=
  rfl

theorem Passes.next (h : Passes sep n c m) :
    (StepScan.ofNesting n).next c = StepScan.ofNesting m := by
  cases h with
  | literal => rfl
  | quote hq => simp [StepScan.ofNesting, StepScan.next, hq]
  | opens hq ho => simp [StepScan.ofNesting, StepScan.next, hq, ho]
  | closes hq ho hc _ => simp [StepScan.ofNesting, StepScan.next, hq, ho, hc]
  | other hq ho hc _ => simp [StepScan.ofNesting, StepScan.next, hq, ho, hc]

theorem StepScan.isTop_ofNesting : (ofNesting n).isTop = true ↔ n = (0, none) := by
  obtain ⟨depth, quote⟩ := n
  change (quote.isNone && decide (depth = 0)) = true ↔ _
  cases quote <;> simp

/-- Scanners with different separators agree but for where they cut. -/
theorem Passes.of_not_cut (h : Passes sep n c m) (hcut : ¬(c = sep' ∧ n = (0, none))) :
    Passes sep' n c m := by
  cases h with
  | literal => exact .literal
  | quote hq => exact .quote hq
  | opens hq ho => exact .opens hq ho
  | closes hq ho hc hdepth => exact .closes hq ho hc hdepth
  | other hq ho hc _ => exact .other hq ho hc (by simpa using hcut)

/-- A slash in front of a closed text belongs to no bracket and no literal. -/
theorem closed_of_slash_cons (h : (Delimiters.atTop sep).Closed ('/' :: cs)) :
    (Delimiters.atTop sep).Closed cs := by
  rw [Delimiters.Closed, Delimiters.scan_cons, Option.bind_eq_some_iff] at h
  obtain ⟨m, hm, h⟩ := h
  obtain ⟨-, rfl⟩ : sep ≠ '/' ∧ (0, none) = m := by
    simpa [Delimiters.advance, Delimiters.atTop, isQuote, eq_comm] using hm
  exact h

/-- No slash begins a closed part. -/
theorem ne_slash_of_closed (h : (Delimiters.atTop '/').Closed (c :: cs)) : c ≠ '/' := by
  rintro rfl
  rw [Delimiters.Closed, Delimiters.scan_cons, isSeparator_slash.advance_eq_none] at h
  cases h

theorem stepTextsFrom_cons (h : (Delimiters.atTop '/').advance n c = some m) (descendant : Bool)
    (raw cs : List Char) :
    stepTextsFrom (.ofNesting n) descendant raw (c :: cs) =
      stepTextsFrom (.ofNesting m) descendant (c :: raw) cs := by
  have hcut : (decide (c = '/') && (StepScan.ofNesting n).isTop) = false := by
    rw [Bool.eq_false_iff]
    intro hcut
    obtain ⟨rfl, rfl⟩ : c = '/' ∧ n = (0, none) := by
      simpa [StepScan.isTop_ofNesting] using hcut
    rw [isSeparator_slash.advance_eq_none] at h
    cases h
  rw [← (advance_eq_some_iff.mp h).next]
  conv_lhs => unfold stepTextsFrom
  rw [hcut]

theorem stepTextsFrom_append (h : (Delimiters.atTop '/').scan n part = some m) (descendant : Bool)
    (raw cs : List Char) :
    stepTextsFrom (.ofNesting n) descendant raw (part ++ cs) =
      stepTextsFrom (.ofNesting m) descendant (part.reverse ++ raw) cs := by
  induction part generalizing n raw with
  | nil =>
    obtain rfl := Option.some.inj h
    rfl
  | cons c part ih =>
    rw [Delimiters.scan_cons, Option.bind_eq_some_iff] at h
    obtain ⟨k, hk, h⟩ := h
    rw [List.cons_append, stepTextsFrom_cons hk, ih h]
    simp

theorem stepTextsFrom_closed (h : (Delimiters.atTop '/').Closed part) (descendant : Bool)
    (cs : List Char) :
    stepTextsFrom .start descendant [] (part ++ cs) =
      stepTextsFrom .start descendant part.reverse cs := by
  have happend := stepTextsFrom_append h descendant [] cs
  rw [StepScan.ofNesting_zero, List.append_nil] at happend
  exact happend

end Steps

/-! Groups in square brackets -/

section Groups

variable {n m : Delimiters.Nesting} {c : Char} {cs inner part rest : List Char}
  {groups : List (List Char)}

/-- A group with the white space in front of it. -/
structure Group where
  space : List Char
  inner : List Char

/-- The group as it is written. -/
def Group.text (g : Group) : List Char :=
  g.space ++ '[' :: (g.inner ++ [']'])

structure Group.WellFormed (g : Group) : Prop where
  space_blank : Text.AllBlank g.space
  inner_closed : Delimiters.groups.Closed g.inner

/-- Where the scanner stops the group ends. -/
theorem groupsFrom_cons (n : Delimiters.Nesting) (inner : List Char) (c : Char) (cs : List Char) :
    groupsFrom (some (n.1, n.2, inner)) (c :: cs) =
      match Delimiters.groups.advance n c with
      | some m => groupsFrom (some (m.1, m.2, c :: inner)) cs
      | none => (inner.reverse :: (groupsFrom none cs).1, (groupsFrom none cs).2) := by
  obtain ⟨depth, _ | q⟩ := n
  · by_cases hq : isQuote c = true
    · simp [groupsFrom, Delimiters.advance, hq]
    · by_cases ho : c = '['
      · subst ho
        simp [groupsFrom, Delimiters.advance, Delimiters.groups, hq]
      · by_cases hc : c = ']'
        · subst hc
          by_cases hd : depth = 0 <;>
            simp [groupsFrom, Delimiters.advance, Delimiters.groups, hq, hd]
        · simp [groupsFrom, Delimiters.advance, Delimiters.groups, hq, ho, hc]
  · rfl

theorem groups_advance_eq_none_iff :
    Delimiters.groups.advance n c = none ↔ n = (0, none) ∧ c = ']' := by
  obtain ⟨depth, _ | q⟩ := n
  · by_cases hq : isQuote c = true
    · have hc : c ≠ ']' := by
        rintro rfl
        exact absurd hq (by decide)
      simp [Delimiters.advance, hq, hc]
    · by_cases ho : c = '['
      · subst ho
        simp [Delimiters.advance, Delimiters.groups, hq]
      · by_cases hc : c = ']'
        · subst hc
          by_cases hd : depth = 0 <;> simp [Delimiters.advance, Delimiters.groups, hq, hd]
        · simp [Delimiters.advance, Delimiters.groups, hq, ho, hc]
  · simp [Delimiters.advance]

theorem groupsFrom_of_scan (h : Delimiters.groups.scan n part = some m) (inner cs : List Char) :
    groupsFrom (some (n.1, n.2, inner)) (part ++ cs) =
      groupsFrom (some (m.1, m.2, part.reverse ++ inner)) cs := by
  induction part generalizing n inner with
  | nil =>
    obtain rfl := Option.some.inj h
    rfl
  | cons c part ih =>
    rw [Delimiters.scan_cons, Option.bind_eq_some_iff] at h
    obtain ⟨k, hk, h⟩ := h
    rw [List.cons_append, groupsFrom_cons, hk]
    simp only
    rw [ih h]
    simp

/-- Inside a group: its rest is closed, and behind its bracket come the other groups. -/
theorem groupsFrom_some_eq_ok_iff :
    groupsFrom (some (n.1, n.2, inner)) cs = (groups, none) ↔
      ∃ part rest others, cs = part ++ ']' :: rest ∧
        Delimiters.groups.scan n part = some (0, none) ∧
        groups = (inner.reverse ++ part) :: others ∧ groupsFrom none rest = (others, none) := by
  constructor
  · intro h
    -- what has been read of the group is kept in reverse, so it varies with the rest
    induction cs generalizing n inner with
    | nil => simp [groupsFrom] at h
    | cons c cs ih =>
      rw [groupsFrom_cons] at h
      cases ha : Delimiters.groups.advance n c with
      | some m =>
        rw [ha] at h
        obtain ⟨part, rest, others, rfl, hscan, rfl, hrest⟩ := ih h
        refine ⟨c :: part, rest, others, rfl, ?_, by simp, hrest⟩
        rw [Delimiters.scan_cons, ha]
        exact hscan
      | none =>
        obtain ⟨rfl, rfl⟩ := groups_advance_eq_none_iff.mp ha
        rw [ha] at h
        obtain ⟨rfl, hfault⟩ := Prod.mk.inj h
        exact ⟨[], cs, _, rfl, rfl, by simp, Prod.ext rfl hfault⟩
  · rintro ⟨part, rest, others, rfl, hscan, rfl, hrest⟩
    rw [groupsFrom_of_scan hscan, groupsFrom_cons,
      groups_advance_eq_none_iff.mpr ⟨rfl, rfl⟩]
    simp [hrest]

theorem groupsFrom_of_blank (hspace : Text.AllBlank part) (cs : List Char) :
    groupsFrom none (part ++ cs) = groupsFrom none cs := by
  induction part with
  | nil => rfl
  | cons c part ih =>
    obtain ⟨hc, hpart⟩ := List.forall_mem_cons.mp hspace
    rw [List.cons_append, groupsFrom, if_pos hc]
    exact ih hpart

theorem groupsFrom_open (cs : List Char) :
    groupsFrom none ('[' :: cs) = groupsFrom (some (0, none, [])) cs := by
  have hopen := Text.isBlank_eq_false (c := '[') (by decide) (by decide)
  rw [groupsFrom, if_neg (by simp [hopen]), if_pos rfl]

theorem groupsFrom_text {g : Group} (hg : g.WellFormed) (cs : List Char) :
    groupsFrom none (g.text ++ cs) =
      (g.inner :: (groupsFrom none cs).1, (groupsFrom none cs).2) := by
  have hend := groups_advance_eq_none_iff.mpr ⟨rfl, rfl⟩
  have htext : g.text ++ cs = g.space ++ '[' :: (g.inner ++ ']' :: cs) := by simp [Group.text]
  rw [htext, groupsFrom_of_blank hg.space_blank, groupsFrom_open]
  have hscan := groupsFrom_of_scan hg.inner_closed [] (']' :: cs)
  rw [hscan, groupsFrom_cons (0, none), hend]
  simp

theorem exists_groups_of_groupsFrom (h : groupsFrom none cs = (groups, none)) :
    ∃ gs : List Group, ∃ space, cs = gs.flatMap Group.text ++ space ∧ Text.AllBlank space ∧
      (∀ g ∈ gs, g.WellFormed) ∧ groups = gs.map Group.inner := by
  -- on the length, since a group takes several characters at a time
  induction hl : cs.length using Nat.strong_induction_on generalizing cs groups with
  | _ l ih =>
    obtain ⟨space, hspace, hcs⟩ := Text.exists_trimStart cs
    rw [hcs, groupsFrom_of_blank hspace] at h
    cases ht : Text.trimStart cs with
    | nil =>
      rw [ht] at h hcs
      obtain ⟨rfl, -⟩ := Prod.mk.inj h
      exact ⟨[], space, by simpa using hcs, hspace, by simp, rfl⟩
    | cons c rest =>
      rw [ht] at h hcs
      have hc : Text.isBlank c = false := Text.not_blank_of_trimStart ht
      have hopen : c = '[' := by
        by_contra hne
        rw [groupsFrom, if_neg (by simp [hc]), if_neg hne] at h
        cases h
      subst hopen
      rw [groupsFrom_open] at h
      obtain ⟨inner, behind, others, rfl, hscan, rfl, hrest⟩ :=
        (groupsFrom_some_eq_ok_iff (n := (0, none))).mp h
      have hshort : behind.length < l := by
        rw [← hl, hcs]
        simp
        omega
      obtain ⟨gs, last, rfl, hlast, hgs, rfl⟩ := ih _ hshort hrest rfl
      refine ⟨⟨space, inner⟩ :: gs, last, ?_, hlast, ?_, by simp⟩
      · rw [hcs]
        simp [Group.text]
      · exact List.forall_mem_cons.mpr ⟨⟨hspace, hscan⟩, hgs⟩

theorem groupsFrom_of_groups {gs : List Group} (hgs : ∀ g ∈ gs, g.WellFormed)
    {space : List Char} (hspace : Text.AllBlank space) :
    groupsFrom none (gs.flatMap Group.text ++ space) = (gs.map Group.inner, none) := by
  induction gs with
  | nil =>
    have hblank := groupsFrom_of_blank hspace []
    rw [List.append_nil] at hblank
    exact hblank
  | cons g gs ih =>
    obtain ⟨hg, hgs⟩ := List.forall_mem_cons.mp hgs
    rw [List.flatMap_cons, List.append_assoc, groupsFrom_text hg, ih hgs]
    rfl

/-- A text consists of groups when it is written as well-formed ones with white space behind. -/
theorem groupsFrom_none_eq_ok_iff :
    groupsFrom none cs = (groups, none) ↔ ∃ gs : List Group, ∃ space,
      cs = gs.flatMap Group.text ++ space ∧ Text.AllBlank space ∧ (∀ g ∈ gs, g.WellFormed) ∧
        groups = gs.map Group.inner := by
  constructor
  · exact exists_groups_of_groupsFrom
  · rintro ⟨gs, space, rfl, hspace, hgs, rfl⟩
    exact groupsFrom_of_groups hgs hspace

end Groups

end TransitAudit.Path
