import TransitAudit.Proofs.Path.StepText

/-! What a predicate looks like. Beside positions and `last()` there is an attribute by itself, and
there are comparisons: a name, or the name of the element, and a literal in quotes. -/
namespace TransitAudit.Path

open Text

variable {c : Char} {cs name : List Char} {test : NameTest} {p : Predicate}

/-! Characters -/

/-- The code points of white space. -/
def blanks : List Nat :=
  [0x9, 0xA, 0xB, 0xC, 0xD, 0x20, 0x85, 0xA0, 0x1680, 0x2000, 0x2001, 0x2002, 0x2003, 0x2004,
    0x2005, 0x2006, 0x2007, 0x2008, 0x2009, 0x200A, 0x2028, 0x2029, 0x202F, 0x205F, 0x3000]

theorem toNat_mem_blanks (hc : isBlank c = true) : c.toNat ∈ blanks := by
  simp [isBlank, inRanges] at hc
  simp only [blanks, List.mem_cons, List.not_mem_nil]
  omega

theorem inRanges_of_blank {table : Array (Nat × Nat)} (hc : isBlank c = true)
    (htable : blanks.all (fun n => !table.toList.any fun r => r.1 ≤ n && n ≤ r.2) = true) :
    inRanges table c = false := by
  have h := List.all_eq_true.mp htable _ (toNat_mem_blanks hc)
  rw [Bool.not_eq_true'] at h
  rw [inRanges, ← Array.any_toList, ← h]

/-- No white space belongs to names. -/
theorem isNameChar_of_blank (hc : isBlank c = true) : isNameChar c = false := by
  have hascii (hl : 0x20 < c.toNat) (hu : c.toNat < 0x85) : False := by
    rw [isBlank_eq_false hl hu] at hc
    cases hc
  have hletter : isAsciiLetter c = false := by
    rw [Bool.eq_false_iff]
    intro h
    obtain ⟨hl, hu⟩ := toNat_of_isAsciiLetter h
    exact hascii (by omega) (by omega)
  have hdigit : isAsciiDigit c = false := by
    rw [Bool.eq_false_iff]
    intro h
    simp only [isAsciiDigit, Bool.and_eq_true, decide_eq_true_eq, Char.le_def,
      UInt32.le_iff_toNat_le] at h
    have hends : ('0').val.toNat = 48 ∧ ('9').val.toNat = 57 := ⟨rfl, rfl⟩
    have hval : c.toNat = c.val.toNat := rfl
    exact hascii (by omega) (by omega)
  have halphabetic : isAlphabetic c = false := by
    rw [isAlphabetic, hletter, inRanges_of_blank hc (by decide +kernel), ite_self]
  have hdecimal : isDecimalDigit c = false := by
    rw [isDecimalDigit, hdigit, inRanges_of_blank hc (by decide +kernel), ite_self]
  have hmark : inRanges markRanges c = false := inRanges_of_blank hc (by decide +kernel)
  have hjoiner : inRanges #[(0x200C, 0x200D)] c = false :=
    inRanges_of_blank hc (by decide +kernel)
  have hconnector : isConnector c = false := inRanges_of_blank hc (by decide +kernel)
  have hdot : c ≠ '.' := by
    rintro rfl
    exact hascii (by decide) (by decide)
  have hdash : c ≠ '-' := by
    rintro rfl
    exact hascii (by decide) (by decide)
  simp [isNameChar, isWord, halphabetic, hdecimal, hconnector, hjoiner, hmark, hdot, hdash]

/-- The characters of a name test. -/
theorem isTestChar_of_nameTest? (h : nameTest? cs = some test) : ∀ c ∈ cs, isTestChar c = true := by
  have hplain {xs : List Char} (hxs : isPlainName xs = true) : ∀ c ∈ xs, isTestChar c = true := by
    intro c hc
    simp [isTestChar, isNameChar_of_isPlainName hxs c hc]
  have hlocal {xs : List Char} (hxs : localTest? xs = some test) :
      ∀ c ∈ xs, isTestChar c = true := by
    rcases localTest?_eq_some_iff.mp hxs with ⟨rfl, -⟩ | ⟨hxs, -⟩
    · simp [isTestChar]
    · exact hplain hxs
  rcases nameTest?_eq_some_iff.mp h with h | ⟨label, name, rfl, hlabel, h⟩
  · exact hlocal h
  · rw [List.forall_mem_append, List.forall_mem_cons]
    exact ⟨hplain hlabel, by simp [isTestChar], hlocal h⟩

theorem isTestChar_of_blank (hc : isBlank c = true) : isTestChar c = false := by
  have hname := isNameChar_of_blank hc
  have hcolon : c ≠ ':' := by
    rintro rfl
    rw [isBlank_eq_false (by decide) (by decide)] at hc
    cases hc
  have hstar : c ≠ '*' := by
    rintro rfl
    rw [isBlank_eq_false (by decide) (by decide)] at hc
    cases hc
  simp [isTestChar, hname, hcolon, hstar]

theorem isBlank_of_isTestChar (hc : isTestChar c = true) : isBlank c = false := by
  rw [Bool.eq_false_iff]
  intro h
  rw [isTestChar_of_blank h] at hc
  cases hc

theorem trimEnd_name (hname : nameTest? name = some test) : trimEnd name = name := by
  rw [trimEnd_eq_rdropWhile, List.rdropWhile_eq_self_iff]
  intro hne
  rw [isBlank_of_isTestChar (isTestChar_of_nameTest? hname _ (List.getLast_mem hne))]
  exact Bool.false_ne_true

theorem trim_name (hname : nameTest? name = some test) : trim name = name := by
  obtain ⟨c, rest, rfl, hc⟩ := begins_of_nameTest? hname
  rw [trim, trimStart_cons_of_not_blank (isBlank_of_begins hc)]
  exact trimEnd_name hname

/-! Literals -/

theorem literal?_eq_some_iff {text : List Char} :
    literal? cs = some text ↔
      ∃ q, isQuote q = true ∧ q ∉ text ∧ cs = q :: (text ++ [q]) := by
  cases cs with
  | nil => simp [literal?]
  | cons q cs =>
    rw [literal?]
    constructor
    · intro h
      split_ifs at h with hq
      simp only [Bool.and_eq_true, decide_eq_true_eq, Bool.not_eq_true', List.contains_eq_mem,
        decide_eq_false_iff_not] at hq
      obtain ⟨⟨hquote, hlast⟩, hmem⟩ := hq
      cases h
      refine ⟨q, hquote, hmem, ?_⟩
      rw [List.dropLast_append_getLast? q hlast]
    · rintro ⟨q', hquote, hmem, heq⟩
      obtain ⟨rfl, rfl⟩ := List.cons.inj heq
      simp [hquote, hmem]

/-! Comparisons -/

/-- White space and a literal in quotes behind an operator. -/
structure Comparison where
  before : List Char
  behind : List Char
  quote : Char
  text : List Char
  before_blank : AllBlank before
  behind_blank : AllBlank behind
  isQuote_quote : isQuote quote = true
  quote_not_mem : quote ∉ text

/-- The comparison as it is written. -/
def Comparison.written (op : List Char) (c : Comparison) : List Char :=
  c.before ++ (op ++ (c.behind ++ c.quote :: (c.text ++ [c.quote])))

theorem isQuote_iff : isQuote c = true ↔ c = '\x27' ∨ c = '"' := by
  simp [isQuote]

theorem isBlank_of_isQuote (hc : isQuote c = true) : isBlank c = false := by
  rcases isQuote_iff.mp hc with rfl | rfl
  · exact isBlank_eq_false (by decide) (by decide)
  · exact isBlank_eq_false (by decide) (by decide)

theorem Comparison.literal?_behind (k : Comparison) :
    literal? (trimStart (k.behind ++ k.quote :: (k.text ++ [k.quote]))) = some k.text := by
  rw [trimStart_append_of_allBlank k.behind_blank,
    trimStart_cons_of_not_blank (isBlank_of_isQuote k.isQuote_quote)]
  exact literal?_eq_some_iff.mpr ⟨k.quote, k.isQuote_quote, k.quote_not_mem, rfl⟩

/-- A literal behind an operator that white space may surround. -/
theorem exists_comparison (op : List Char) {rest value text : List Char}
    (hop : trimStart rest = op ++ value)
    (h : literal? (trimStart value) = some text) :
    ∃ k : Comparison, rest = k.written op ∧ k.text = text := by
  obtain ⟨before, hbefore, hrest⟩ := exists_trimStart rest
  obtain ⟨behind, hbehind, hvalue⟩ := exists_trimStart value
  obtain ⟨q, hquote, hmem, hq⟩ := literal?_eq_some_iff.mp h
  refine ⟨⟨before, behind, q, text, hbefore, hbehind, hquote, hmem⟩, ?_, rfl⟩
  rw [hrest, hop, hvalue, hq]
  rfl

/-- Where a name ends. -/
theorem takeWhile_name {rest : List Char} (hname : nameTest? name = some test)
    (hrest : ∀ c ∈ rest.head?, isTestChar c = false) :
    (name ++ rest).takeWhile isTestChar = name ∧ (name ++ rest).dropWhile isTestChar = rest := by
  -- the name is taken whole, and what follows begins with another character
  have hall := isTestChar_of_nameTest? hname
  rw [List.takeWhile_append_of_pos hall, List.dropWhile_append_of_pos hall]
  cases rest with
  | nil => simp
  | cons c rest =>
    have hc : ¬isTestChar c = true := by simp [hrest c rfl]
    rw [List.takeWhile_cons_of_neg hc, List.dropWhile_cons_of_neg hc, List.append_nil]
    exact ⟨rfl, rfl⟩

theorem head_of_allBlank {space : List Char} (h : AllBlank space) :
    ∀ c ∈ space.head?, isTestChar c = false := by
  intro c hc
  exact isTestChar_of_blank (h c (List.mem_of_mem_head? hc))

theorem Comparison.head_written (k : Comparison) {c : Char} (hc : isTestChar c = false)
    (op : List Char) : ∀ x ∈ (k.written (c :: op)).head?, isTestChar x = false := by
  intro x hx
  cases hb : k.before with
  | nil =>
    rw [Comparison.written, hb] at hx
    obtain rfl : c = x := by simpa using hx
    exact hc
  | cons y before =>
    rw [Comparison.written, hb] at hx
    obtain rfl : y = x := by simpa using hx
    exact isTestChar_of_blank (k.before_blank y (hb ▸ List.mem_cons_self))

theorem Comparison.trimStart_written (k : Comparison) {c : Char} (hc : isBlank c = false)
    (op : List Char) : trimStart (k.written (c :: op)) =
      c :: (op ++ (k.behind ++ k.quote :: (k.text ++ [k.quote]))) := by
  rw [Comparison.written, trimStart_append_of_allBlank k.before_blank, List.cons_append,
    trimStart_cons_of_not_blank hc]

theorem Comparison.written_eq (k : Comparison) (op : List Char) :
    k.written op = k.before ++ (op ++ (k.behind ++ k.quote :: k.text)) ++ [k.quote] := by
  simp [Comparison.written]

theorem Comparison.trimEnd_append_written (k : Comparison) (op : List Char)
    (cs : List Char) : trimEnd (cs ++ k.written op) = cs ++ k.written op := by
  rw [k.written_eq, ← List.append_assoc,
    trimEnd_append_cons_of_not_blank (isBlank_of_isQuote k.isQuote_quote)]
  rfl

theorem isTestChar_eq_false (hc : isNameChar c = false) (hcolon : c ≠ ':') (hstar : c ≠ '*') :
    isTestChar c = false := by
  simp [isTestChar, hc, hcolon, hstar]

/-- Quotes, brackets, parentheses, and what stands between steps and between alternatives. -/
def markChars : List Char :=
  ['\x27', '"', '[', ']', '(', ')', '/', '|']

theorem isTestChar_of_mem_markChars (hc : c ∈ markChars) : isTestChar c = false := by
  have hother : markChars.all (fun x => x.toNat < 0x80 &&
      !(isAsciiLetter x || isAsciiDigit x || x == '_' || x == '.' || x == '-') &&
      x != ':' && x != '*') = true := by decide
  have h := List.all_eq_true.mp hother c hc
  simp only [Bool.and_eq_true, decide_eq_true_eq, Bool.not_eq_true', bne_iff_ne] at h
  obtain ⟨⟨⟨hsmall, hnone⟩, hcolon⟩, hstar⟩ := h
  exact isTestChar_eq_false (isNameChar_eq_false hsmall hnone) hcolon hstar

theorem isTestChar_equals : isTestChar '=' = false :=
  isTestChar_eq_false (isNameChar_eq_false (by decide) (by decide)) (by decide) (by decide)

theorem isTestChar_exclamation : isTestChar '!' = false :=
  isTestChar_eq_false (isNameChar_eq_false (by decide) (by decide)) (by decide) (by decide)

/-! Attributes and children -/

/-- What may stand behind the name of an attribute. -/
inductive AttributeTail (test : NameTest) : List Char → Predicate → Prop
  | present {space : List Char} (h : AllBlank space) : AttributeTail test space (.hasAttribute test)
  | equal (k : Comparison) :
    AttributeTail test (k.written ['=']) (.attributeIs test (String.ofList k.text))
  | differs (k : Comparison) :
    AttributeTail test (k.written ['!', '=']) (.attributeIsNot test (String.ofList k.text))

theorem AttributeTail.head {rest : List Char} (h : AttributeTail test rest p) :
    ∀ c ∈ rest.head?, isTestChar c = false := by
  cases h with
  | present h => exact head_of_allBlank h
  | equal k => exact k.head_written isTestChar_equals []
  | differs k => exact k.head_written isTestChar_exclamation ['=']

theorem attributePredicate?_eq_some_iff : attributePredicate? cs = some p ↔
    ∃ name rest test, cs = '@' :: (name ++ rest) ∧ nameTest? name = some test ∧
      AttributeTail test rest p := by
  unfold attributePredicate?
  simp only [Option.bind_eq_bind, Option.bind_eq_some_iff, dropLeading?_eq_some_iff]
  constructor
  · rintro ⟨text, rfl, test, htest, h⟩
    refine ⟨_, text.dropWhile isTestChar, test, ?_, htest, ?_⟩
    · rw [List.takeWhile_append_dropWhile]
      rfl
    · -- nothing behind the name, or one of the two operators
      split at h
      · rename_i hblank
        cases h
        exact .present (trimStart_eq_nil_iff.mp hblank)
      · rename_i value hvalue
        obtain ⟨literal, hliteral, hret⟩ := Option.bind_eq_some_iff.mp h
        cases hret
        obtain ⟨k, hk, rfl⟩ := exists_comparison ['='] hvalue hliteral
        rw [hk]
        exact .equal k
      · rename_i value hvalue
        obtain ⟨literal, hliteral, hret⟩ := Option.bind_eq_some_iff.mp h
        cases hret
        obtain ⟨k, hk, rfl⟩ := exists_comparison ['!', '='] hvalue hliteral
        rw [hk]
        exact .differs k
      · cases h
  · rintro ⟨name, rest, test, rfl, htest, h⟩
    obtain ⟨hname, hrest⟩ := takeWhile_name htest h.head
    refine ⟨name ++ rest, rfl, test, hname.symm ▸ htest, ?_⟩
    rw [hrest]
    cases h with
    | present h =>
      rw [trimStart_eq_nil_iff.mpr h]
      rfl
    | equal k =>
      rw [k.trimStart_written (isBlank_eq_false (by decide) (by decide))]
      simp [k.literal?_behind]
    | differs k =>
      rw [k.trimStart_written (isBlank_eq_false (by decide) (by decide))]
      simp [k.literal?_behind]

theorem childPredicate?_eq_some_iff : childPredicate? cs = some p ↔
    ∃ name k localName, cs = name ++ Comparison.written ['='] k ∧
      nameTest? name = some (.named localName) ∧
      p = .childIs (.named localName) (String.ofList k.text) := by
  unfold childPredicate?
  simp only [Option.bind_eq_bind, Option.bind_eq_some_iff, dropLeading?_eq_some_iff]
  constructor
  · rintro ⟨test, htest, value, hvalue, text, htext, h⟩
    obtain ⟨k, hk, rfl⟩ := exists_comparison ['='] hvalue htext
    cases test with
    | any => cases h
    | named localName =>
      cases h
      refine ⟨_, k, localName, ?_, htest, rfl⟩
      rw [← hk, List.takeWhile_append_dropWhile]
  · rintro ⟨name, k, localName, rfl, htest, rfl⟩
    obtain ⟨hname, hrest⟩ := takeWhile_name htest (k.head_written isTestChar_equals [])
    refine ⟨.named localName, hname.symm ▸ htest, _, ?_, k.text, k.literal?_behind, rfl⟩
    rw [hrest]
    exact k.trimStart_written (isBlank_eq_false (by decide) (by decide)) []

/-! Parts of names -/

theorem toList_contains : "contains(".toList = ['c', 'o', 'n', 't', 'a', 'i', 'n', 's', '('] :=
  String.toList_ofList

theorem toList_local : "local-".toList = ['l', 'o', 'c', 'a', 'l', '-'] :=
  String.toList_ofList

theorem toList_name : "name(".toList = ['n', 'a', 'm', 'e', '('] :=
  String.toList_ofList

/-- What stands in front of the literal in `contains(name(), 'text')`, with white space at four
places and `local-` or not, and the literal with what stands behind it. -/
structure NameCall where
  outer : List Char
  isLocal : Bool
  inner : List Char
  behind : List Char
  argument : List Char
  quote : Char
  text : List Char
  last : List Char
  outer_blank : AllBlank outer
  inner_blank : AllBlank inner
  behind_blank : AllBlank behind
  argument_blank : AllBlank argument
  last_blank : AllBlank last
  isQuote_quote : isQuote quote = true
  quote_not_mem : quote ∉ text

/-- What stands in front of the literal. -/
def NameCall.opening (n : NameCall) : List Char :=
  "contains(".toList ++ (n.outer ++ ((if n.isLocal then "local-".toList else []) ++
    ("name(".toList ++ (n.inner ++ ')' :: (n.behind ++ ',' :: n.argument)))))

/-- The call as it is written. -/
def NameCall.written (n : NameCall) : List Char :=
  n.opening ++ n.quote :: (n.text ++ n.quote :: (n.last ++ [')']))

/-- A text, white space behind it, and then something else. -/
def Behind (ls : List Char) (P : List Char → Prop) (cs : List Char) : Prop :=
  ∃ space rest, AllBlank space ∧ cs = ls ++ (space ++ rest) ∧ P rest

theorem behind_iff {P : List Char → Prop} {ls : List Char} (hP : ∀ r, P r → trimStart r = r) :
    Behind ls P cs ↔ ∃ r, dropLeading? ls cs = some r ∧ P (trimStart r) := by
  constructor
  · rintro ⟨space, rest, hspace, hcs, h⟩
    refine ⟨space ++ rest, dropLeading?_eq_some_iff.mpr hcs, ?_⟩
    rw [trimStart_append_of_allBlank hspace, hP rest h]
    exact h
  · rintro ⟨r, hr, h⟩
    obtain ⟨space, hspace, hrest⟩ := exists_trimStart r
    refine ⟨space, trimStart r, hspace, ?_, h⟩
    rw [← hrest]
    exact dropLeading?_eq_some_iff.mp hr

theorem trimStart_of_behind {P : List Char → Prop} {c : Char} (hc : isBlank c = false)
    (ls : List Char) (r : List Char) (h : Behind (c :: ls) P r) : trimStart r = r := by
  obtain ⟨space, rest, -, rfl, -⟩ := h
  exact trimStart_cons_of_not_blank hc _

/-- A text that may stand in front of another one. -/
theorem dropLeading?_getD_eq_some_iff {mark ls rest : List Char}
    (hdiffer : ∀ rest, dropLeading? mark (ls ++ rest) = none) :
    dropLeading? ls ((dropLeading? mark cs).getD cs) = some rest ↔
      ∃ marked : Bool, cs = (if marked then mark else []) ++ (ls ++ rest) := by
  rw [dropLeading?_eq_some_iff]
  constructor
  · intro h
    cases hm : dropLeading? mark cs with
    | none =>
      rw [hm] at h
      exact ⟨false, h⟩
    | some r =>
      rw [hm] at h
      obtain rfl : r = ls ++ rest := h
      exact ⟨true, dropLeading?_eq_some_iff.mp hm⟩
  · rintro ⟨_ | _, rfl⟩
    · simp [hdiffer]
    · have hm : dropLeading? mark (mark ++ (ls ++ rest)) = some (ls ++ rest) :=
        dropLeading?_eq_some_iff.mpr rfl
      simp [hm]

/-- A literal with a parenthesis behind it. -/
theorem literal?_trimEnd_iff {text : List Char} :
    (∃ r, dropLeading? [')'] cs.reverse = some r ∧ literal? (trimEnd r.reverse) = some text) ↔
      ∃ q last, isQuote q = true ∧ q ∉ text ∧ AllBlank last ∧
        cs = q :: (text ++ q :: (last ++ [')'])) := by
  constructor
  · rintro ⟨r, hr, h⟩
    obtain ⟨last, hlast, hr'⟩ := exists_trimEnd r.reverse
    obtain ⟨q, hquote, hmem, htext⟩ := literal?_eq_some_iff.mp h
    refine ⟨q, last, hquote, hmem, hlast, ?_⟩
    calc cs = cs.reverse.reverse := cs.reverse_reverse.symm
      _ = r.reverse ++ [')'] := by rw [dropLeading?_eq_some_iff.mp hr, List.reverse_append]; rfl
      _ = q :: (text ++ q :: (last ++ [')'])) := by rw [hr', htext]; simp
  · rintro ⟨q, last, hquote, hmem, hlast, rfl⟩
    refine ⟨(q :: (text ++ q :: last)).reverse, ?_, ?_⟩
    · rw [dropLeading?_eq_some_iff]
      simp
    · have hcut := trimEnd_append_cons_of_not_blank (isBlank_of_isQuote hquote) (q :: text) last
      rw [List.reverse_reverse, ← List.cons_append, hcut, trimEnd_eq_nil_iff.mpr hlast]
      exact literal?_eq_some_iff.mpr ⟨q, hquote, hmem, rfl⟩

theorem dropLeading?_local_name (rest : List Char) :
    dropLeading? "local-".toList ("name(".toList ++ rest) = none := by
  rw [toList_name, toList_local]
  rfl

/-- `name(` or `local-name(`, white space, and then something else. -/
def Called (P : List Char → Prop) (cs : List Char) : Prop :=
  ∃ marked : Bool, ∃ rest, cs = (if marked then "local-".toList else []) ++ rest ∧
    Behind "name(".toList P rest

theorem called_iff {P : List Char → Prop} (hP : ∀ r, P r → trimStart r = r) :
    Called P cs ↔ ∃ r, dropLeading? "name(".toList
      ((dropLeading? "local-".toList cs).getD cs) = some r ∧ P (trimStart r) := by
  simp only [dropLeading?_getD_eq_some_iff dropLeading?_local_name]
  constructor
  · rintro ⟨marked, rest, rfl, h⟩
    obtain ⟨r, hr, h⟩ := (behind_iff hP).mp h
    exact ⟨r, ⟨marked, congrArg _ (dropLeading?_eq_some_iff.mp hr)⟩, h⟩
  · rintro ⟨r, ⟨marked, rfl⟩, h⟩
    exact ⟨marked, _, rfl, (behind_iff hP).mpr ⟨r, dropLeading?_eq_some_iff.mpr rfl, h⟩⟩

theorem trimStart_of_called {P : List Char → Prop} (r : List Char) (h : Called P r) :
    trimStart r = r := by
  obtain ⟨marked, rest, rfl, h⟩ := h
  rw [toList_name] at h
  rw [toList_local]
  cases marked with
  | false => exact trimStart_of_behind (isBlank_eq_false (by decide) (by decide)) _ _ h
  | true => exact trimStart_cons_of_not_blank (isBlank_eq_false (by decide) (by decide)) _

/-- The literal of a call and what stands behind it. -/
def IsArgument (p : Predicate) (cs : List Char) : Prop :=
  ∃ q text last, isQuote q = true ∧ q ∉ text ∧ AllBlank last ∧
    cs = q :: (text ++ q :: (last ++ [')'])) ∧ p = .nameContains (String.ofList text)

theorem isArgument_iff : IsArgument p cs ↔ ∃ r, dropLeading? [')'] cs.reverse = some r ∧
    ∃ text, literal? (trimEnd r.reverse) = some text ∧
      Predicate.nameContains (String.ofList text) = p := by
  constructor
  · rintro ⟨q, text, last, hquote, hmem, hlast, hcs, rfl⟩
    obtain ⟨r, hr, htext⟩ := literal?_trimEnd_iff.mpr ⟨q, last, hquote, hmem, hlast, hcs⟩
    exact ⟨r, hr, text, htext, rfl⟩
  · rintro ⟨r, hr, text, htext, rfl⟩
    obtain ⟨q, last, hquote, hmem, hlast, hcs⟩ := literal?_trimEnd_iff.mp ⟨r, hr, htext⟩
    exact ⟨q, text, last, hquote, hmem, hlast, hcs, rfl⟩

theorem trimStart_of_isArgument (r : List Char) (h : IsArgument p r) : trimStart r = r := by
  obtain ⟨q, text, last, hquote, -, -, rfl, -⟩ := h
  exact trimStart_cons_of_not_blank (isBlank_of_isQuote hquote) _

theorem containsPredicate?_eq_some_iff_behind : containsPredicate? cs = some p ↔
    Behind "contains(".toList (Called (Behind [')'] (Behind [','] (IsArgument p)))) cs := by
  have hcomma : isBlank ',' = false := isBlank_eq_false (by decide) (by decide)
  have hclose : isBlank ')' = false := isBlank_eq_false (by decide) (by decide)
  -- each stage takes off a text and white space, and the next one begins with something else
  rw [behind_iff trimStart_of_called]
  simp only [called_iff (trimStart_of_behind hclose []), behind_iff (trimStart_of_behind hcomma []),
    behind_iff trimStart_of_isArgument, isArgument_iff]
  unfold containsPredicate?
  simp only [Option.bind_eq_bind, Option.bind_eq_some_iff, Option.pure_def, Option.some.injEq]

theorem containsPredicate?_eq_some_iff : containsPredicate? cs = some p ↔
    ∃ n : NameCall, cs = n.written ∧ p = .nameContains (String.ofList n.text) := by
  rw [containsPredicate?_eq_some_iff_behind]
  unfold NameCall.written NameCall.opening Called
  -- what the three texts say does not matter here
  generalize "contains(".toList = opening
  generalize "local-".toList = mark
  generalize "name(".toList = call
  constructor
  · rintro ⟨outer, _, houter, rfl, marked, _, rfl, inner, _, hinner, rfl, behind, _, hbehind, rfl,
      argument, _, hargument, rfl, q, text, last, hquote, hmem, hlast, rfl, rfl⟩
    refine ⟨⟨outer, marked, inner, behind, argument, q, text, last, houter, hinner, hbehind,
      hargument, hlast, hquote, hmem⟩, ?_, rfl⟩
    simp
  · rintro ⟨n, rfl, rfl⟩
    refine ⟨n.outer, _, n.outer_blank, ?_, n.isLocal, _, rfl, n.inner, _, n.inner_blank, rfl,
      n.behind, _, n.behind_blank, rfl, n.argument, _, n.argument_blank, rfl, n.quote, n.text,
      n.last, n.isQuote_quote, n.quote_not_mem, n.last_blank, rfl, rfl⟩
    simp

theorem NameCall.opening_eq (n : NameCall) : n.opening =
    ['c', 'o', 'n', 't', 'a', 'i', 'n', 's', '('] ++ (n.outer ++
      ((if n.isLocal then ['l', 'o', 'c', 'a', 'l', '-'] else []) ++
        (['n', 'a', 'm', 'e', '('] ++ (n.inner ++ ')' :: (n.behind ++ ',' :: n.argument))))) :=
  rfl

theorem NameCall.trim_written (n : NameCall) : trim n.written = n.written := by
  have hc : isBlank 'c' = false := isBlank_eq_false (by decide) (by decide)
  have hclose : isBlank ')' = false := isBlank_eq_false (by decide) (by decide)
  obtain ⟨rest, hrest⟩ : ∃ rest, n.opening = 'c' :: rest := ⟨_, n.opening_eq⟩
  have hends : n.written = 'c' :: (rest ++ n.quote :: (n.text ++ n.quote :: n.last) ++ [')']) := by
    rw [NameCall.written, hrest]
    simp
  rw [hends, trim_cons_of_not_blank hc, trimEnd_append_cons_of_not_blank hclose]
  rfl

theorem NameCall.colon_not_mem_opening (n : NameCall) : ':' ∉ n.opening := by
  have hblank {space : List Char} (h : AllBlank space) : ':' ∉ space :=
    h.not_mem (isBlank_eq_false (by decide) (by decide))
  have hlocal : ':' ∉ if n.isLocal then ['l', 'o', 'c', 'a', 'l', '-'] else [] := by
    split <;> decide
  rw [n.opening_eq]
  -- the brackets, the comma and the names are written without a colon
  simp [hlocal, hblank n.outer_blank, hblank n.inner_blank, hblank n.behind_blank,
    hblank n.argument_blank]

/-! Predicates -/

theorem attributePredicate?_eq_none (hc : c ≠ '@') (cs : List Char) :
    attributePredicate? (c :: cs) = none := by
  rw [Option.eq_none_iff_forall_ne_some]
  intro p h
  obtain ⟨name, rest, test, heq, -⟩ := attributePredicate?_eq_some_iff.mp h
  exact hc (List.cons.inj heq).1

theorem attributePredicate?_of_contains (h : containsPredicate? cs = some p) :
    attributePredicate? cs = none := by
  obtain ⟨space, rest, -, rfl, -⟩ := containsPredicate?_eq_some_iff_behind.mp h
  rw [toList_contains]
  exact attributePredicate?_eq_none (by decide) _

theorem attributePredicate?_of_child (h : childPredicate? cs = some p) :
    attributePredicate? cs = none := by
  obtain ⟨name, k, localName, rfl, htest, -⟩ := childPredicate?_eq_some_iff.mp h
  obtain ⟨c, rest, rfl, hc⟩ := begins_of_nameTest? htest
  exact attributePredicate?_eq_none (begins_ne hc (by decide)) _

/-- Behind the name of a child comes no parenthesis. -/
theorem containsPredicate?_of_child (h : childPredicate? cs = some p) :
    containsPredicate? cs = none := by
  have hopen : isTestChar '(' = false :=
    isTestChar_eq_false (isNameChar_eq_false (by decide) (by decide)) (by decide) (by decide)
  rw [Option.eq_none_iff_forall_ne_some]
  intro p' h'
  obtain ⟨space, rest, -, hcs, -⟩ := containsPredicate?_eq_some_iff_behind.mp h'
  obtain ⟨name, k, localName, hname, htest, -⟩ := childPredicate?_eq_some_iff.mp h
  have hfirst := takeWhile_name htest (k.head_written isTestChar_equals [])
  have htest' : nameTest? ['c', 'o', 'n', 't', 'a', 'i', 'n', 's'] =
      some (.named (String.ofList ['c', 'o', 'n', 't', 'a', 'i', 'n', 's'])) := by
    with_unfolding_all rfl
  have hsecond := @takeWhile_name _ _ ('(' :: (space ++ rest)) htest' (by simp [hopen])
  rw [toList_contains] at hcs
  have hrest : k.written ['='] = '(' :: (space ++ rest) := by
    -- the same text, cut behind its name in two ways
    rw [← hfirst.2, ← hname, hcs]
    exact hsecond.2
  have htrim := k.trimStart_written (isBlank_eq_false (c := '=') (by decide) (by decide)) []
  rw [hrest, trimStart_cons_of_not_blank (isBlank_eq_false (by decide) (by decide))] at htrim
  exact absurd (List.cons.inj htrim).1 (by decide)

theorem readPredicate_of_none (ha : attributePredicate? cs = none)
    (hc : containsPredicate? cs = none) (hd : childPredicate? cs = none) :
    readPredicate cs = .ok p ↔ positionPredicate? cs = some (.ok p) ∨
      positionPredicate? cs = none ∧ isLast cs = true ∧ p = .last := by
  unfold readPredicate
  rw [ha, hc, hd]
  cases hp : positionPredicate? cs with
  | some result => simp
  | none =>
    by_cases hlast : isLast cs = true
    · simp [hlast, eq_comm]
    · simp [hlast]

/-- The text of a position and of `last()` is read when nothing else is. -/
theorem readPredicate_eq_ok_iff : readPredicate cs = .ok p ↔
    attributePredicate? cs = some p ∨ containsPredicate? cs = some p ∨
      childPredicate? cs = some p ∨
      (attributePredicate? cs = none ∧ containsPredicate? cs = none ∧
        childPredicate? cs = none ∧
        (positionPredicate? cs = some (.ok p) ∨
          positionPredicate? cs = none ∧ isLast cs = true ∧ p = .last)) := by
  constructor
  · intro h
    -- the first reading that succeeds counts
    cases ha : attributePredicate? cs with
    | some q =>
      rw [readPredicate, ha] at h
      cases h
      exact .inl rfl
    | none =>
      cases hc : containsPredicate? cs with
      | some q =>
        rw [readPredicate, ha, hc] at h
        cases h
        exact .inr (.inl rfl)
      | none =>
        cases hd : childPredicate? cs with
        | some q =>
          rw [readPredicate, ha, hc, hd] at h
          cases h
          exact .inr (.inr (.inl rfl))
        | none =>
          have hrest := (readPredicate_of_none ha hc hd).mp h
          exact .inr (.inr (.inr ⟨rfl, rfl, rfl, hrest⟩))
  · rintro (ha | hc | hd | ⟨ha, hc, hd, hrest⟩)
    · simp [readPredicate, ha]
    · simp [readPredicate, attributePredicate?_of_contains hc, hc]
    · simp [readPredicate, attributePredicate?_of_child hd, containsPredicate?_of_child hd, hd]
    · exact (readPredicate_of_none ha hc hd).mpr hrest

/-- Positions and `last()` are written without a colon. -/
theorem colon_not_mem_of_positionPredicate? (h : positionPredicate? cs = some (.ok p)) :
    ':' ∉ cs ∧ ∃ number, p = .position number := by
  unfold positionPredicate? at h
  split_ifs at h with hempty hdigits
  · cases h
    refine ⟨?_, _, rfl⟩
    intro hcolon
    rw [Bool.and_eq_true, Bool.and_eq_true] at hdigits
    have hdigit := List.all_eq_true.mp hdigits.1.1 ':' hcolon
    exact absurd hdigit (by decide)
  · cases h

theorem colon_not_mem_of_isLast (h : isLast cs = true) : ':' ∉ cs := by
  have hopening : "last(".toList = ['l', 'a', 's', 't', '('] := String.toList_ofList
  unfold isLast at h
  split at h
  · rename_i rest hrest
    obtain ⟨space, hspace, htrim⟩ := exists_trimStart rest
    rw [of_decide_eq_true h] at htrim
    have hcolon := hspace.not_mem (isBlank_eq_false (c := ':') (by decide) (by decide))
    rw [dropLeading?_eq_some_iff.mp hrest, htrim, hopening]
    simp [hcolon]
  · cases h

end TransitAudit.Path
