import Mathlib.Data.List.Basic
import Mathlib.Data.List.Infix
import TransitAudit.Proofs.Path.Layout

/-! The parts that an expression is cut into are balanced: outside literals, brackets and
parentheses match by number and none closes ahead of one that opens. The scanner that cuts an
alternative into steps counts on its own, without a look at brackets that close too early, and on
such a part it has nothing to complain about. The counters wrap around, so that the numbers match up
to multiples of 2^32; they are equal where no counter overflows. -/
namespace TransitAudit.Path

open Text

/-! What stands outside literals -/

/-- The quote character of the literal that is open behind a character. -/
def quoteAfter : Option Char → Char → Option Char
  | some q, c => if c = q then none else some q
  | none, c => if isQuote c then some c else none

/-- The quote character of the literal that is open behind a text. -/
def openQuote (quote : Option Char) (cs : List Char) : Option Char :=
  cs.foldl quoteAfter quote

/-- The characters of a text outside literals, without the quotes themselves. -/
def outside : Option Char → List Char → List Char
  | _, [] => []
  | quote, c :: cs =>
    if quote.isNone && !isQuote c then c :: outside none cs else outside (quoteAfter quote c) cs

/-- How many characters of a kind stand outside literals. -/
def countOutside (kind : Char → Prop) [DecidablePred kind] (quote : Option Char)
    (cs : List Char) : Nat :=
  (outside quote cs).countP kind

/-- How many brackets and parentheses open outside literals. -/
def openers (quote : Option Char) (cs : List Char) : Nat :=
  countOutside (fun c => c = '[' ∨ c = '(') quote cs

/-- How many brackets and parentheses close outside literals. -/
def closers (quote : Option Char) (cs : List Char) : Nat :=
  countOutside (fun c => c = ']' ∨ c = ')') quote cs

/-- All literals end. Brackets and parentheses that open are as many as those that close, up to a
multiple of 2^32, and no fewer in any prefix. -/
structure WordBalanced (cs : List Char) : Prop where
  quotes : openQuote none cs = none
  brackets : 2 ^ 32 ∣ openers none cs - closers none cs
  prefixes : ∀ pre, pre <+: cs → closers none pre ≤ openers none pre

/-- All literals end. Brackets and parentheses that open are as many as those that close, and no
fewer in any prefix. -/
structure Balanced (cs : List Char) : Prop where
  quotes : openQuote none cs = none
  brackets : openers none cs = closers none cs
  prefixes : ∀ pre, pre <+: cs → closers none pre ≤ openers none pre

/-- Fewer than 2^31 brackets and parentheses are open at any place, so no counter of 32 bits
overflows. Elsewhere a scanner that checks its arithmetic fails, and one that does not wraps around
and takes 2^32 parentheses that open for none. -/
def Shallow (cs : List Char) : Prop :=
  ∀ pre, pre <+: cs → openers none pre < closers none pre + 2 ^ 31

/-- Each separator stands in a literal, or more brackets and parentheses open than close in front
of it. -/
def FreeOf (sep : Char) (cs : List Char) : Prop :=
  ∀ pre post, cs = pre ++ sep :: post →
    openQuote none pre ≠ none ∨ closers none pre < openers none pre

section Count

variable {sep c : Char} {n m : Delimiters.Nesting} {cs pre : List Char}

variable (kind : Char → Prop) [DecidablePred kind]

theorem countOutside_cons (hquote : isQuote c = false) (cs : List Char) :
    countOutside kind none (c :: cs) = countOutside kind none cs + if kind c then 1 else 0 := by
  simp [countOutside, outside, hquote, List.countP_cons]

theorem outside_append (quote : Option Char) (cs ds : List Char) :
    outside quote (cs ++ ds) = outside quote cs ++ outside (openQuote quote cs) ds := by
  induction cs generalizing quote with
  | nil => rfl
  | cons c cs ih =>
    cases quote with
    | some q => exact ih _
    | none =>
      cases hquote : isQuote c with
      | true => simp [outside, openQuote, quoteAfter, hquote, ih]
      | false => simp [outside, openQuote, quoteAfter, hquote, ih]

theorem countOutside_append (quote : Option Char) (cs ds : List Char) :
    countOutside kind quote (cs ++ ds) =
      countOutside kind quote cs + countOutside kind (openQuote quote cs) ds := by
  rw [countOutside, outside_append, List.countP_append]
  rfl

/-- One character changes the number of open brackets by as much as it adds to the counts, and the
counter shows that number. -/
theorem Passes.count (h : Passes sep n c m) {k : Nat} (hn : n.1 = Int32.ofNat k)
    (cs : List Char) :
    openQuote n.2 (c :: cs) = openQuote m.2 cs ∧ ∃ l, m.1 = Int32.ofNat l ∧
      k + openers n.2 (c :: cs) + closers m.2 cs = l + openers m.2 cs + closers n.2 (c :: cs) := by
  cases h with
  | literal => exact ⟨rfl, k, hn, rfl⟩
  | quote hq =>
    refine ⟨by simp [openQuote, quoteAfter, hq], k, hn, ?_⟩
    simp [openers, closers, countOutside, outside, quoteAfter, hq]
  | opens hq ho =>
    have hc : ¬(c = ']' ∨ c = ')') := by rcases ho with rfl | rfl <;> decide
    refine ⟨by simp [openQuote, quoteAfter, hq], k + 1, ?_, ?_⟩
    · simpa only [← counter_succ] using congrArg (· + 1) hn
    · simp only [openers, closers, countOutside_cons _ hq, if_pos ho, if_neg hc]
      omega
  | @closes depth c hq ho hc hdepth =>
    obtain rfl : depth = Int32.ofNat k := hn
    refine ⟨by simp [openQuote, quoteAfter, hq], ?_⟩
    cases k with
    | zero => exact absurd ((counter_sub_one_neg_iff (by decide)).mpr rfl) hdepth
    | succ k =>
      refine ⟨k, counter_succ_sub_one k, ?_⟩
      simp only [openers, closers, countOutside_cons _ hq, if_neg ho, if_pos hc]
      omega
  | other hq ho hc _ =>
    refine ⟨by simp [openQuote, quoteAfter, hq], k, hn, ?_⟩
    simp only [openers, closers, countOutside_cons _ hq, if_neg ho, if_neg hc]
    omega

/-- The scanner knows which literal is open, and its counter shows by how many the brackets and
parentheses that open exceed those that close. -/
theorem count_of_scan (h : (Delimiters.atTop sep).scan n cs = some m) {k : Nat}
    (hn : n.1 = Int32.ofNat k) :
    openQuote n.2 cs = m.2 ∧
      ∃ l, m.1 = Int32.ofNat l ∧ k + openers n.2 cs = l + closers n.2 cs := by
  -- what is open in front of the text varies along with it
  induction cs generalizing n k with
  | nil =>
    obtain rfl := Option.some.inj h
    exact ⟨rfl, k, hn, rfl⟩
  | cons c cs ih =>
    rw [Delimiters.scan_cons, Option.bind_eq_some_iff] at h
    obtain ⟨n', hn', h⟩ := h
    obtain ⟨hquote, k', hk', hcount⟩ := (advance_eq_some_iff.mp hn').count hn cs
    obtain ⟨hquote', l, hl, hcount'⟩ := ih h hk'
    exact ⟨hquote.trans hquote', l, hl, by omega⟩

theorem count_of_scan_zero (h : (Delimiters.atTop sep).scan (0, none) cs = some m) :
    openQuote none cs = m.2 ∧ ∃ l, m.1 = Int32.ofNat l ∧ openers none cs = l + closers none cs := by
  simpa using count_of_scan h (k := 0) rfl

theorem exists_scan_of_prefix (h : (Delimiters.atTop sep).scan n cs = some m) (hpre : pre <+: cs) :
    ∃ k, (Delimiters.atTop sep).scan n pre = some k := by
  obtain ⟨post, rfl⟩ := hpre
  rw [Delimiters.scan_append, Option.bind_eq_some_iff] at h
  obtain ⟨k, hk, -⟩ := h
  exact ⟨k, hk⟩

theorem wordBalanced_of_closed (h : (Delimiters.atTop sep).Closed cs) : WordBalanced cs := by
  obtain ⟨hquote, l, hl, hcount⟩ := count_of_scan_zero h
  refine ⟨hquote, ?_, ?_⟩
  · rw [hcount, Nat.add_sub_cancel]
    exact counter_eq_zero_iff_dvd.mp hl.symm
  · intro pre hpre
    obtain ⟨m, hm⟩ := exists_scan_of_prefix h hpre
    obtain ⟨-, l, -, hcount⟩ := count_of_scan_zero hm
    omega

/-- Fewer than 2^31 are no other multiple of 2^32 than none. -/
theorem WordBalanced.balanced (h : WordBalanced cs) (hshallow : Shallow cs) : Balanced cs := by
  refine ⟨h.quotes, ?_, h.prefixes⟩
  have hlt := hshallow cs (List.prefix_refl cs)
  have hle := h.prefixes cs (List.prefix_refl cs)
  have hdvd := h.brackets
  omega

/-- Where a separator is passed over, the scanner is in a literal or in brackets. -/
theorem freeOf_of_closed (hsep : IsSeparator sep) (h : (Delimiters.atTop sep).Closed cs) :
    FreeOf sep cs := by
  rintro pre post rfl
  rw [Delimiters.Closed, Delimiters.scan_append, Option.bind_eq_some_iff] at h
  obtain ⟨⟨depth, quote⟩, hpre, h⟩ := h
  rw [Delimiters.scan_cons, Option.bind_eq_some_iff] at h
  obtain ⟨m, hm, -⟩ := h
  obtain ⟨hquote, l, hl, hcount⟩ := count_of_scan_zero hpre
  rw [hquote]
  -- with nothing open the scanner would have stopped at the separator
  by_contra! hfree
  obtain ⟨rfl, hle⟩ := hfree
  obtain rfl : l = 0 := by omega
  obtain rfl : depth = 0 := hl
  rw [hsep.advance_eq_none] at hm
  cases hm

/-! Texts in which no counter overflows -/

theorem length_outside_le (quote : Option Char) (cs : List Char) :
    (outside quote cs).length ≤ cs.length := by
  induction cs generalizing quote with
  | nil => exact le_rfl
  | cons c cs ih =>
    unfold outside
    split
    · exact Nat.succ_le_succ (ih none)
    · exact (ih _).trans (Nat.le_succ _)

/-- A text that could overflow a counter has 2^31 characters at least. -/
theorem Shallow.of_length (h : cs.length < 2 ^ 31) : Shallow cs := by
  intro pre hpre
  have hcount : openers none pre ≤ (outside none pre).length := List.countP_le_length
  have hlength := length_outside_le none pre
  have hle := hpre.length_le
  omega

theorem Shallow.of_append_left {ds : List Char} (h : Shallow (cs ++ ds)) : Shallow cs :=
  fun pre hpre => h pre (hpre.trans (List.prefix_append cs ds))

/-- What stands in front takes no room from the counter, since none of it closes too early. -/
theorem Shallow.of_append_right {ds : List Char} (hcs : WordBalanced cs)
    (h : Shallow (cs ++ ds)) : Shallow ds := by
  intro pre hpre
  have hlt := h (cs ++ pre) ((List.prefix_append_right_inj cs).mpr hpre)
  have hle := hcs.prefixes cs (List.prefix_refl cs)
  simp only [openers, closers, countOutside_append, hcs.quotes] at hlt hle ⊢
  omega

theorem Shallow.of_cons (hquote : isQuote c = false) (hcloses : ¬(c = ']' ∨ c = ')'))
    (h : Shallow (c :: cs)) : Shallow cs := by
  intro pre hpre
  have hlt := h (c :: pre) (List.cons_prefix_cons.mpr ⟨rfl, hpre⟩)
  simp only [openers, closers, countOutside_cons _ hquote, if_neg hcloses] at hlt ⊢
  omega

theorem Shallow.of_mem_parts {part : List Char} {rest : List (List Char)} (hsep : IsSeparator sep)
    (hbalanced : ∀ p ∈ part :: rest, WordBalanced p)
    (h : Shallow (part ++ rest.flatMap (sep :: ·))) : ∀ p ∈ part :: rest, Shallow p := by
  induction rest generalizing part with
  | nil =>
    rw [List.flatMap_nil, List.append_nil] at h
    exact List.forall_mem_singleton.mpr h
  | cons q rest ih =>
    obtain ⟨hpart, hrest⟩ := List.forall_mem_cons.mp hbalanced
    have hbehind : Shallow (sep :: (q ++ rest.flatMap (sep :: ·))) := h.of_append_right hpart
    have hcloses : ¬(sep = ']' ∨ sep = ')') := fun hc => hsep.ne_closing hc rfl
    exact List.forall_mem_cons.mpr ⟨h.of_append_left, ih hrest (hbehind.of_cons hsep.1 hcloses)⟩

theorem Shallow.of_blank_append {ds : List Char} (hcs : AllBlank cs) (h : Shallow (cs ++ ds)) :
    Shallow ds := by
  induction cs with
  | nil => exact h
  | cons c cs ih =>
    obtain ⟨hc, hcs⟩ := List.forall_mem_cons.mp hcs
    have hmark := marks_eq_false_of_blank isBlank_bar hc
    simp only [Delimiters.marks, Delimiters.atTop, Bool.or_eq_false_iff, ← not_or,
      decide_eq_false_iff_not] at hmark
    exact ih hcs (h.of_cons hmark.1.1.1 hmark.1.2)

theorem Shallow.trim (h : Shallow cs) : Shallow (Text.trim cs) := by
  obtain ⟨pre, post, hpre, -, hcs⟩ := exists_trim cs
  rw [hcs] at h
  exact (h.of_blank_append hpre).of_append_left

theorem Shallow.of_slashes {k : Nat} (h : Shallow (List.replicate k '/' ++ cs)) : Shallow cs := by
  induction k with
  | zero => exact h
  | succ k ih => exact ih (h.of_cons (by decide) (by decide))

theorem intercalate_cons_eq_flatMap (sep : Char) (part : List Char) (rest : List (List Char)) :
    [sep].intercalate (part :: rest) = part ++ rest.flatMap (sep :: ·) := by
  induction rest generalizing part with
  | nil => simp
  | cons p rest ih =>
    rw [List.intercalate_cons_cons, ih]
    simp

end Count

/-! The scanner of steps on a part of an expression -/

namespace StepScan

variable {sep : Char} {n m : Delimiters.Nesting} {s : StepScan} {cs pre : List Char}

/-- Passes over a text. The slashes that it is cut at leave the scanner as it is. -/
def after (s : StepScan) (cs : List Char) : StepScan :=
  cs.foldl next s

theorem after_ofNesting (h : (Delimiters.atTop sep).scan n cs = some m) :
    (ofNesting n).after cs = ofNesting m := by
  induction cs generalizing n with
  | nil =>
    obtain rfl := Option.some.inj h
    rfl
  | cons c cs ih =>
    rw [Delimiters.scan_cons, Option.bind_eq_some_iff] at h
    obtain ⟨k, hk, h⟩ := h
    rw [after, List.foldl_cons, (advance_eq_some_iff.mp hk).next]
    exact ih h

theorem next_slash_of_isTop (h : s.isTop = true) : s.next '/' = s := by
  obtain ⟨depth, _ | q⟩ := s
  · simp [next, isQuote]
  · cases h

/-- Without overflow the counter never shows less than nothing. -/
theorem depth_nonneg_of_closed (h : (Delimiters.atTop sep).Closed cs) (hshallow : Shallow cs)
    (hpre : pre <+: cs) : 0 ≤ (start.after pre).depth := by
  obtain ⟨m, hm⟩ := exists_scan_of_prefix h hpre
  obtain ⟨-, l, hl, hcount⟩ := count_of_scan_zero hm
  have hlt := hshallow pre hpre
  rw [← ofNesting_zero, after_ofNesting hm]
  change 0 ≤ m.1
  rw [hl]
  exact counter_nonneg (by omega)

end StepScan

section Steps

variable {sep : Char} {cs : List Char} {f : Fault}

/-- Behind a beginning of a text that it cuts, but for one that ends between two slashes, the scanner
of steps has counted what it passes over in that beginning. -/
theorem exists_stepTextsFrom_append (s : StepScan) (descendant : Bool) (raw pre : List Char)
    (hcs : cs.head? ≠ some '/') :
    ∃ texts descendant' raw', stepTextsFrom s descendant raw (pre ++ cs) =
      (texts ++ (stepTextsFrom (s.after pre) descendant' raw' cs).1,
        (stepTextsFrom (s.after pre) descendant' raw' cs).2) := by
  -- the beginning ends, two slashes, one slash, another character
  fun_induction stepTextsFrom s descendant raw pre with
  | case1 s descendant raw | case2 s descendant raw => exact ⟨[], descendant, raw, rfl⟩
  | case3 s descendant raw c pre htop ih =>
    obtain ⟨texts, descendant', raw', hrest⟩ := ih
    obtain ⟨rfl, hs⟩ : c = '/' ∧ s.isTop = true := by simpa using htop
    refine ⟨(descendant, raw.reverse) :: texts, descendant', raw', ?_⟩
    simp only [StepScan.after, List.foldl_cons, StepScan.next_slash_of_isTop hs] at hrest ⊢
    change stepTextsFrom s descendant raw ('/' :: '/' :: (pre ++ cs)) = _
    rw [stepTextsFrom, hrest]
    · rfl
    · exact htop
  | case4 s descendant raw c pre hpre htop ih =>
    obtain ⟨texts, descendant', raw', hrest⟩ := ih
    obtain ⟨rfl, hs⟩ : c = '/' ∧ s.isTop = true := by simpa using htop
    refine ⟨(descendant, raw.reverse) :: texts, descendant', raw', ?_⟩
    simp only [StepScan.after, List.foldl_cons, StepScan.next_slash_of_isTop hs] at hrest ⊢
    have hone (rest : List Char) : pre ++ cs ≠ '/' :: rest := by
      intro h
      cases pre with
      | nil => exact hcs (congrArg List.head? h)
      | cons c pre => exact hpre pre (by rw [(List.cons.inj h).1])
    change stepTextsFrom s descendant raw ('/' :: (pre ++ cs)) = _
    rw [stepTextsFrom, hrest]
    · rfl
    · exact htop
    · exact hone
  | case5 s descendant raw c pre hcut ih =>
    obtain ⟨texts, descendant', raw', hrest⟩ := ih
    refine ⟨texts, descendant', raw', ?_⟩
    rw [List.cons_append]
    conv_lhs => unfold stepTextsFrom
    rw [hcut]
    exact hrest

/-- The fault at the end of a path depends on what the scanner has counted up to there, and on
nothing about its steps. -/
theorem stepTextsFrom_fault (s : StepScan) (descendant : Bool) (raw cs : List Char) :
    (stepTextsFrom s descendant raw cs).2 = (s.after cs).fault? := by
  have hnil : ([] : List Char).head? ≠ some '/' := nofun
  obtain ⟨texts, descendant', raw', hend⟩ :=
    exists_stepTextsFrom_append s descendant raw cs hnil
  rw [List.append_nil] at hend
  rw [hend, stepTextsFrom]
  split
  · rename_i hf
    exact hf.symm
  · rename_i hf
    exact hf.symm

/-- The faults of the scanners that cut; what reads a part on its own gives neither. -/
inductive Fault.Unclosed : Fault → Prop
  | literal : Unclosed .unterminatedLiteral
  | brackets : Unclosed .unbalancedBrackets

theorem not_unclosed_of_readPredicate (h : readPredicate cs = .error f) : ¬f.Unclosed := by
  unfold readPredicate at h
  split at h
  · cases h
  · split at h
    · rename_i hposition
      unfold positionPredicate? at hposition
      split_ifs at hposition
      · obtain rfl := Option.some.inj hposition
        cases h
      · obtain rfl := Option.some.inj hposition
        cases h
        nofun
    · split_ifs at h
      cases h
      nofun

theorem not_unclosed_of_groupsFrom {state : Option (Int32 × Option Char × List Char)}
    (h : (groupsFrom state cs).2 = some f) : ¬f.Unclosed := by
  fun_induction groupsFrom state cs
  case case1 => cases h
  case case2 | case5 =>
    cases h
    nofun
  case case9 hrest _ _ ih =>
    rw [hrest] at ih
    exact ih h
  case case3 ih | case4 ih | case6 ih | case7 ih | case8 ih | case10 ih | case11 ih =>
    exact ih h

theorem not_unclosed_of_readPredicates (h : readPredicates cs = .error f) : ¬f.Unclosed := by
  rw [readPredicates, bind_eq_error_iff] at h
  rcases h with h | ⟨predicates, -, h⟩
  · obtain ⟨-, inner, -, -, -, hinner⟩ := mapM_eq_error_iff.mp h
    exact not_unclosed_of_readPredicate hinner
  · cases hfault : (groupsFrom none cs).2 with
    | none =>
      rw [hfault] at h
      cases h
    | some g =>
      rw [hfault] at h
      cases h
      exact not_unclosed_of_groupsFrom hfault

theorem not_unclosed_of_simpleStep {axis : Axis} {test : NameTest} {descendant : Bool}
    (h : simpleStep axis test descendant cs = .error f) : ¬f.Unclosed := by
  unfold simpleStep at h
  split_ifs at h
  cases h
  nofun

theorem not_unclosed_of_readStep {descendant : Bool} (h : readStep descendant cs = .error f) :
    ¬f.Unclosed := by
  unfold readStep at h
  extract_lets text at h
  clear_value text
  -- nothing, the node itself, its parent, an attribute, a name
  split at h
  · cases h
    nofun
  · exact not_unclosed_of_simpleStep h
  · exact not_unclosed_of_simpleStep h
  · extract_lets name at h
    split at h
    · exact not_unclosed_of_simpleStep h
    · cases h
      nofun
  · split at h
    · rcases bind_eq_error_iff.mp h with hpredicates | ⟨predicates, -, hret⟩
      · exact not_unclosed_of_readPredicates hpredicates
      · cases hret
    · cases h
      nofun

theorem not_unclosed_of_readSteps {descendant : Bool} (hclosed : (Delimiters.atTop sep).Closed cs)
    (h : readSteps descendant cs = .error f) : ¬f.Unclosed := by
  have hfault : (stepTextsFrom .start descendant [] cs).2 = none := by
    rw [stepTextsFrom_fault, ← StepScan.ofNesting_zero, StepScan.after_ofNesting hclosed]
    rfl
  rw [readSteps, bind_eq_error_iff] at h
  rcases h with h | ⟨steps, -, h⟩
  · obtain ⟨-, text, -, -, -, htext⟩ := mapM_eq_error_iff.mp h
    exact not_unclosed_of_readStep htext
  · rw [hfault] at h
    cases h

theorem not_unclosed_of_readBody {absolute descendant : Bool}
    (hclosed : (Delimiters.atTop sep).Closed cs)
    (h : readBody absolute descendant cs = .error f) : ¬f.Unclosed := by
  by_cases hcs : cs = []
  · subst hcs
    cases absolute <;> cases descendant <;> cases h <;> nofun
  · rw [readBody_of_ne_nil _ _ hcs, bind_eq_error_iff] at h
    rcases h with h | ⟨steps, -, hret⟩
    · exact not_unclosed_of_readSteps hclosed h
    · cases hret

theorem not_unclosed_of_readLocationPath (hclosed : (Delimiters.atTop sep).Closed cs)
    (h : readLocationPath cs = .error f) : ¬f.Unclosed := by
  unfold readLocationPath at h
  split at h
  · exact not_unclosed_of_readBody (closed_of_slash_cons (closed_of_slash_cons hclosed)) h
  · exact not_unclosed_of_readBody (closed_of_slash_cons hclosed) h
  · exact not_unclosed_of_readBody hclosed h

theorem closed_of_slashes {k : Nat}
    (h : (Delimiters.atTop sep).Closed (List.replicate k '/' ++ cs)) :
    (Delimiters.atTop sep).Closed cs := by
  induction k with
  | zero => exact h
  | succ k ih => exact ih (closed_of_slash_cons h)

end Steps

/-- A text that is cut is its parts with separators between them; each part is balanced, as far as a
counter can tell that wraps around, and the separators in it stand in literals or brackets. So the
scanner of steps, on an alternative of an expression without the white space around it, never ends
in a literal or in brackets. Where no counter overflows the parts are balanced, and wherever the
scanner of steps starts behind leading slashes it never counts more brackets that close than
open. -/
theorem split_parts_balanced :
    (∀ sep cs parts, IsSeparator sep → splitTopLevel sep cs = .ok parts →
      [sep].intercalate parts = cs ∧ (∀ part ∈ parts, WordBalanced part ∧ FreeOf sep part) ∧
      (Shallow cs → ∀ part ∈ parts, Balanced part)) ∧
    ∀ cs parts, splitTopLevel '|' (trim cs) = .ok parts → ∀ part ∈ parts,
      readLocationPath (trim part) ≠ .error .unterminatedLiteral ∧
      readLocationPath (trim part) ≠ .error .unbalancedBrackets ∧
      (Shallow (trim cs) → ∀ k body, trim part = List.replicate k '/' ++ body →
        ∀ pre, pre <+: body → 0 ≤ (StepScan.start.after pre).depth) := by
  constructor
  · intro sep cs parts hsep hsplit
    obtain ⟨part, rest, rfl, hclosed, rfl⟩ := (splitTopLevel_eq_ok_iff hsep).mp hsplit
    have hbalanced (p : List Char) (hp : p ∈ part :: rest) : WordBalanced p :=
      wordBalanced_of_closed (hclosed p hp)
    refine ⟨intercalate_cons_eq_flatMap sep part rest, fun p hp => ?_, fun hshallow p hp => ?_⟩
    · exact ⟨hbalanced p hp, freeOf_of_closed hsep (hclosed p hp)⟩
    · exact (hbalanced p hp).balanced (hshallow.of_mem_parts hsep hbalanced p hp)
  · intro cs parts hsplit part hpart
    obtain ⟨first, rest, rfl, hclosed, hcs⟩ := (splitTopLevel_eq_ok_iff isSeparator_bar).mp hsplit
    -- neither the white space nor the leading slashes are characters that are counted
    have htrim := (closed_trim_iff isBlank_bar part).mpr (hclosed part hpart)
    refine ⟨fun h => ?_, fun h => ?_, fun hshallow k body hbody pre hpre => ?_⟩
    · exact not_unclosed_of_readLocationPath htrim h .literal
    · exact not_unclosed_of_readLocationPath htrim h .brackets
    · rw [hcs] at hshallow
      have hpartShallow := hshallow.of_mem_parts isSeparator_bar
        (fun p hp => wordBalanced_of_closed (hclosed p hp)) part hpart
      have hbodyShallow := hpartShallow.trim
      rw [hbody] at htrim hbodyShallow
      exact StepScan.depth_nonneg_of_closed (closed_of_slashes htrim) hbodyShallow.of_slashes hpre

/-- Bars, a slash and brackets in literals, two kinds of brackets and white space around bars. -/
def barsInLiterals : List Char :=
  " /a[@k='x|]/y'] | //b[contains(name(), \"(|\")]/@* ".toList

/-- What stands behind the bar that is in no literal. -/
def nameWithBar : List Char :=
  " //b[contains(name(), \"(|\")]/@*".toList

theorem split_parts_balanced_of_barsInLiterals :
    IsSeparator '|' ∧
      splitTopLevel '|' (trim barsInLiterals) = .ok ["/a[@k='x|]/y'] ".toList, nameWithBar] ∧
      ['|'].intercalate ["/a[@k='x|]/y'] ".toList, nameWithBar] = trim barsInLiterals ∧
      WordBalanced nameWithBar ∧ FreeOf '|' nameWithBar ∧
      Shallow (trim barsInLiterals) ∧ Balanced nameWithBar ∧
      readLocationPath (trim nameWithBar) ≠ .error .unterminatedLiteral ∧
      readLocationPath (trim nameWithBar) ≠ .error .unbalancedBrackets ∧
      trim nameWithBar = List.replicate 2 '/' ++ "b[contains(name(), \"(|\")]/@*".toList ∧
      "b[contains(name(".toList <+: "b[contains(name(), \"(|\")]/@*".toList ∧
      0 ≤ (StepScan.start.after "b[contains(name(".toList).depth := by
  have hsplit : splitTopLevel '|' (trim barsInLiterals) =
      .ok ["/a[@k='x|]/y'] ".toList, nameWithBar] := by
    decide +kernel
  have hmem : nameWithBar ∈ ["/a[@k='x|]/y'] ".toList, nameWithBar] := by simp
  have hbody : trim nameWithBar =
      List.replicate 2 '/' ++ "b[contains(name(), \"(|\")]/@*".toList := by
    decide +kernel
  have hpre : "b[contains(name(".toList <+: "b[contains(name(), \"(|\")]/@*".toList := by
    decide +kernel
  obtain ⟨hparts, hreading⟩ := split_parts_balanced
  have hshallow : Shallow (trim barsInLiterals) := .of_length (by decide +kernel)
  obtain ⟨hjoined, hall, hexact⟩ := hparts '|' _ _ isSeparator_bar hsplit
  obtain ⟨hbalanced, hfree⟩ := hall _ hmem
  obtain ⟨hliteral, hbrackets, hdepth⟩ := hreading _ _ hsplit _ hmem
  exact ⟨isSeparator_bar, hsplit, hjoined, hbalanced, hfree, hshallow, hexact hshallow _ hmem,
    hliteral, hbrackets, hbody, hpre, hdepth hshallow 2 _ hbody _ hpre⟩

end TransitAudit.Path
