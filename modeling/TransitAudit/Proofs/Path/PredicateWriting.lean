import Mathlib.Data.Nat.Digits.Defs
import TransitAudit.Proofs.Path.Writable

/-! Predicates as they are written. Outside its literal a written predicate holds neither a slash nor
a bar, and its brackets match, so each scanner passes over it; and it is read back from its text. -/
namespace TransitAudit.Path

open Text

/-! Texts that are never cut -/

namespace Delimiters

variable {d : Delimiters} {cs ds : List Char} {c o : Char} {k : Nat}

/-- The scanner passes over the text, whatever brackets are open, as long as its counter has room
for `k` more. -/
def Level (d : Delimiters) (k : Nat) (cs : List Char) : Prop :=
  ∀ depth : Nat, depth + k < 2 ^ 31 →
    d.scan (Int32.ofNat depth, none) cs = some (Int32.ofNat depth, none)

theorem Level.closed (h : d.Level k cs) (hk : k < 2 ^ 31) : d.Closed cs :=
  h 0 (by omega)

theorem Level.nil : d.Level k [] :=
  fun _ _ => rfl

theorem Level.append (hcs : d.Level k cs) (hds : d.Level k ds) : d.Level k (cs ++ ds) := by
  intro depth hdepth
  rw [scan_append, hcs depth hdepth]
  exact hds depth hdepth

theorem Level.succ (h : d.Level k cs) : d.Level (k + 1) cs :=
  fun depth hdepth => h depth (by omega)

theorem Level.flatMap {α : Type} {f : α → List Char} {as : List α}
    (h : ∀ a ∈ as, d.Level k (f a)) : d.Level k (as.flatMap f) := by
  induction as with
  | nil => exact .nil
  | cons a as ih =>
    obtain ⟨ha, has⟩ := List.forall_mem_cons.mp h
    exact ha.append (ih has)

theorem Level.of_not_marks (h : ∀ c ∈ cs, d.marks c = false) : d.Level k cs := by
  intro depth _
  have hnone : cs.filter d.marks = [] := by
    rw [List.filter_eq_nil_iff]
    intro c hc
    simp [h c hc]
  rw [← scan_filter_marks (by simp), hnone]
  rfl

theorem Level.literal (hq : isQuote c = true) (hmem : c ∉ cs) : d.Level k (c :: (cs ++ [c])) :=
  fun _ _ => scan_literal hq hmem []

/-- A text between brackets that the scanner counts takes one more of them. -/
theorem Level.enclosed (ho : ∀ depth, d.advance (depth, none) o = some (depth + 1, none))
    (hc : ∀ depth : Nat, depth + 1 < 2 ^ 31 →
      d.advance (Int32.ofNat (depth + 1), none) c = some (Int32.ofNat depth, none))
    (h : d.Level k cs) : d.Level (k + 1) (o :: (cs ++ [c])) := by
  intro depth hdepth
  have hinner := h (depth + 1) (by omega)
  calc d.scan (Int32.ofNat depth, none) (o :: (cs ++ [c]))
      = d.scan (Int32.ofNat (depth + 1), none) (cs ++ [c]) := by
        rw [scan_cons, ho, counter_succ]; rfl
    _ = d.scan (Int32.ofNat (depth + 1), none) [c] := by rw [scan_append, hinner]; rfl
    _ = some (Int32.ofNat depth, none) := by rw [scan_cons, hc depth (by omega)]; rfl

/-- The scanners for steps, for alternatives and for groups. -/
inductive InUse : Delimiters → Prop
  | steps : InUse (atTop '/')
  | alternatives : InUse (atTop '|')
  | groups : InUse groups

theorem InUse.marks_eq_false (hd : d.InUse) (hc : c ∉ markChars) : d.marks c = false := by
  simp only [markChars, List.mem_cons, List.not_mem_nil, or_false, not_or] at hc
  cases hd <;> simp [marks, atTop, Delimiters.groups, isQuote, hc]

theorem InUse.level_of_all (hd : d.InUse) (h : cs.all (fun c => !markChars.contains c) = true) :
    d.Level k cs := by
  apply Level.of_not_marks
  intro c hc
  have hnone := List.all_eq_true.mp h c hc
  exact hd.marks_eq_false (by simpa using hnone)

/-- No scanner stops where a bracket closes that is open. -/
theorem InUse.stops_eq_false (hd : d.InUse) (hk : k + 1 < 2 ^ 31) :
    d.stops (Int32.ofNat (k + 1)) = false := by
  cases hd with
  | steps | alternatives => simpa [atTop] using (counter_sub_one_neg_iff hk).not.mpr (by simp)
  | groups => simpa [Delimiters.groups] using (counter_eq_zero_iff hk).not.mpr (by simp)

theorem InUse.advance_closing (hd : d.InUse) (hquote : isQuote c = false)
    (hopens : d.opens c = false) (hcloses : d.closes c = true) (hk : k + 1 < 2 ^ 31) :
    d.advance (Int32.ofNat (k + 1), none) c = some (Int32.ofNat k, none) := by
  simp only [advance, hquote, hopens, hcloses, hd.stops_eq_false hk, counter_succ_sub_one,
    Bool.false_eq_true, if_false, if_true]

theorem InUse.brackets (hd : d.InUse) (h : d.Level k cs) :
    d.Level (k + 1) ('[' :: (cs ++ [']'])) := by
  apply Level.enclosed _ _ h
  · cases hd <;> simp [advance, atTop, Delimiters.groups, isQuote]
  · have hopens : d.opens ']' = false := by cases hd <;> rfl
    have hcloses : d.closes ']' = true := by cases hd <;> rfl
    exact fun depth hdepth => hd.advance_closing (by decide) hopens hcloses hdepth

theorem InUse.parentheses (hd : d.InUse) (h : d.Level k cs) :
    d.Level (k + 1) ('(' :: (cs ++ [')'])) := by
  cases hd with
  | steps =>
    apply Level.enclosed _ _ h
    · simp [advance, atTop, isQuote]
    · exact fun depth hdepth => steps.advance_closing (by decide) rfl rfl hdepth
  | alternatives =>
    apply Level.enclosed _ _ h
    · simp [advance, atTop, isQuote]
    · exact fun depth hdepth => alternatives.advance_closing (by decide) rfl rfl hdepth
  | groups =>
    -- parentheses do not count here
    have hopen : Delimiters.groups.Level (k + 1) ['('] :=
      .of_not_marks (by simp [marks, isQuote, Delimiters.groups])
    have hclose : Delimiters.groups.Level (k + 1) [')'] :=
      .of_not_marks (by simp [marks, isQuote, Delimiters.groups])
    exact hopen.append (h.succ.append hclose)

theorem InUse.level_of_isTestChar (hd : d.InUse) (h : ∀ c ∈ cs, isTestChar c = true) :
    d.Level k cs := by
  apply Level.of_not_marks
  intro c hc
  apply hd.marks_eq_false
  intro hmem
  have htest := h c hc
  rw [isTestChar_of_mem_markChars hmem] at htest
  cases htest

end Delimiters

/-! Names, literals and numbers -/

section Words

variable {t : NameTest} {v : String} {c : Char} {cs : List Char}

theorem NameTest.nameTest?_text (h : t.Writable) : nameTest? t.text.toList = some t := by
  rw [nameTest?_eq_some_iff, localTest?_eq_some_iff]
  cases t with
  | any => exact .inl (.inl ⟨String.toList_ofList, rfl⟩)
  | named name => exact .inl (.inr ⟨h, congrArg NameTest.named String.ofList_toList.symm⟩)

theorem exists_toList_quoted (h : Quotable v) :
    ∃ q, isQuote q = true ∧ q ∉ v.toList ∧ (quoted v).toList = q :: (v.toList ++ [q]) := by
  have hdouble : "\"".toList = ['"'] := String.toList_ofList
  have hsingle : "'".toList = ['\x27'] := String.toList_ofList
  by_cases hmem : '\x27' ∈ v.toList
  · -- the other quotes are left
    obtain ⟨q, hq, hnone⟩ := h
    rcases isQuote_iff.mp hq with rfl | rfl
    · exact absurd hmem hnone
    · refine ⟨'"', rfl, hnone, ?_⟩
      simp [quoted, hmem, hdouble]
  · refine ⟨'\x27', rfl, hmem, ?_⟩
    simp [quoted, hmem, hsingle]

theorem allBlank_space : AllBlank [' '] := by
  intro c hc
  obtain rfl := List.mem_singleton.mp hc
  simp [isBlank, inRanges]

/-- A comparison with single spaces around its operator. -/
theorem exists_comparison_of_quotable (h : Quotable v) :
    ∃ k : Comparison, String.ofList k.text = v ∧
      ∀ op, k.written op = ' ' :: (op ++ ' ' :: (quoted v).toList) := by
  obtain ⟨q, hq, hmem, htext⟩ := exists_toList_quoted h
  refine ⟨⟨[' '], [' '], q, v.toList, allBlank_space, allBlank_space, hq, hmem⟩,
    String.ofList_toList, ?_⟩
  intro op
  rw [htext]
  rfl

theorem isAsciiDigit_of_isDigit (hc : c.isDigit = true) : isAsciiDigit c = true := by
  simp only [Char.isDigit, Bool.and_eq_true, decide_eq_true_eq] at hc
  simp only [isAsciiDigit, Bool.and_eq_true, decide_eq_true_eq, Char.le_def]
  exact hc

theorem isDecimalDigit_of_isAsciiDigit (hc : isAsciiDigit c = true) : isDecimalDigit c = true := by
  have hsmall : c.toNat < 0x80 := by
    simp only [isAsciiDigit, Bool.and_eq_true, decide_eq_true_eq, Char.le_def,
      UInt32.le_iff_toNat_le] at hc
    have hends : ('9').val.toNat = 57 := rfl
    have hval : c.toNat = c.val.toNat := rfl
    omega
  rw [isDecimalDigit, if_pos hsmall]
  exact hc

theorem isTestChar_of_isAsciiDigit (hc : isAsciiDigit c = true) : isTestChar c = true := by
  simp [isTestChar, isNameChar, isWord, isDecimalDigit_of_isAsciiDigit hc]

theorem decimalValue_toDigits (n : Nat) : decimalValue (Nat.toDigits 10 n) = n := by
  have hvalue (cs : List Char) : decimalValue cs = Nat.ofDigitChars 10 cs 0 := by
    rw [decimalValue, Nat.ofDigitChars]
    congr 1
    funext sofar c
    rw [Nat.mul_comm]
    rfl
  rw [hvalue]
  exact Nat.ofDigitChars_toDigits (by decide) (by decide)

theorem isAsciiDigit_of_mem_toDigits {n : Nat} (hc : c ∈ Nat.toDigits 10 n) :
    isAsciiDigit c = true :=
  isAsciiDigit_of_isDigit (Nat.isDigit_of_mem_toDigits (by decide) (by decide) hc)

end Words

/-! Predicates -/

section Predicates

variable {t : NameTest} {v : String} {p : Predicate} {d : Delimiters} {cs : List Char}

theorem trim_eq_self (h : ∀ c ∈ cs, isBlank c = false) : trim cs = cs := by
  cases cs with
  | nil => rfl
  | cons c cs =>
    rw [trim_cons_of_not_blank (h c List.mem_cons_self), trimEnd_eq_rdropWhile,
      List.rdropWhile_eq_self_iff.mpr]
    intro hne
    have hlast := h _ (List.mem_cons_of_mem c (List.getLast_mem hne))
    simp [hlast]

theorem Predicate.toList_hasAttribute (t : NameTest) :
    (hasAttribute t).text.toList = '@' :: t.text.toList := by
  have hat : "@".toList = ['@'] := String.toList_ofList
  change ("@" ++ t.text).toList = _
  simp [hat]

theorem Predicate.toList_attributeIs (t : NameTest) (v : String) :
    (attributeIs t v).text.toList =
      '@' :: (t.text.toList ++ ([' ', '=', ' '] ++ (quoted v).toList)) := by
  have hat : "@".toList = ['@'] := String.toList_ofList
  have hop : " = ".toList = [' ', '=', ' '] := String.toList_ofList
  change ("@" ++ t.text ++ " = " ++ quoted v).toList = _
  simp [hat, hop]

theorem Predicate.toList_attributeIsNot (t : NameTest) (v : String) :
    (attributeIsNot t v).text.toList =
      '@' :: (t.text.toList ++ ([' ', '!', '=', ' '] ++ (quoted v).toList)) := by
  have hat : "@".toList = ['@'] := String.toList_ofList
  have hop : " != ".toList = [' ', '!', '=', ' '] := String.toList_ofList
  change ("@" ++ t.text ++ " != " ++ quoted v).toList = _
  simp [hat, hop]

theorem Predicate.toList_childIs (t : NameTest) (v : String) :
    (childIs t v).text.toList = t.text.toList ++ ([' ', '=', ' '] ++ (quoted v).toList) := by
  have hop : " = ".toList = [' ', '=', ' '] := String.toList_ofList
  change (t.text ++ " = " ++ quoted v).toList = _
  simp [hop]

theorem Predicate.toList_nameContains (v : String) :
    (nameContains v).text.toList = "contains(name(), ".toList ++ ((quoted v).toList ++ [')']) := by
  have hclose : ")".toList = [')'] := String.toList_ofList
  change ("contains(name(), " ++ quoted v ++ ")").toList = _
  simp only [String.toList_append, hclose, List.append_assoc]

theorem Predicate.toList_position (n : Nat) : (position n).text.toList = Nat.toDigits 10 n :=
  Nat.toList_repr

theorem toList_last : "last()".toList = ['l', 'a', 's', 't', '(', ')'] :=
  String.toList_ofList

theorem toList_call : "contains(name(), ".toList =
    ['c', 'o', 'n', 't', 'a', 'i', 'n', 's', '(', 'n', 'a', 'm', 'e', '(', ')', ',', ' '] :=
  String.toList_ofList

/-- A call with a single space in front of the literal. -/
theorem exists_nameCall_of_quotable (h : Quotable v) :
    ∃ n : NameCall, String.ofList n.text = v ∧
      n.written = "contains(name(), ".toList ++ ((quoted v).toList ++ [')']) := by
  obtain ⟨q, hq, hmem, htext⟩ := exists_toList_quoted h
  let n : NameCall := ⟨[], false, [], [], [' '], q, v.toList, [], .nil, .nil, .nil,
    allBlank_space, .nil, hq, hmem⟩
  have hopening : n.opening = "contains(name(), ".toList := by
    rw [n.opening_eq, toList_call]
    rfl
  have hbehind : (quoted v).toList ++ [')'] = q :: (v.toList ++ q :: [')']) := by
    rw [htext]
    simp
  refine ⟨n, String.ofList_toList, ?_⟩
  rw [NameCall.written, hopening, hbehind]
  rfl

theorem predicates_eq_none (hat : '@' ∉ cs) (hc : 'c' ∉ cs) (hequals : '=' ∉ cs) :
    attributePredicate? cs = none ∧ containsPredicate? cs = none ∧ childPredicate? cs = none := by
  refine ⟨?_, ?_, ?_⟩
  · rw [Option.eq_none_iff_forall_ne_some]
    intro p h
    obtain ⟨name, rest, test, rfl, -⟩ := attributePredicate?_eq_some_iff.mp h
    exact hat List.mem_cons_self
  · rw [Option.eq_none_iff_forall_ne_some]
    intro p h
    obtain ⟨space, rest, -, rfl, -⟩ := containsPredicate?_eq_some_iff_behind.mp h
    rw [toList_contains] at hc
    exact hc List.mem_cons_self
  · rw [Option.eq_none_iff_forall_ne_some]
    intro p h
    obtain ⟨name, k, localName, rfl, -⟩ := childPredicate?_eq_some_iff.mp h
    exact hequals (by simp [Comparison.written])

theorem readPredicate_toDigits {n : Nat} (hpos : 0 < n) (hlimit : n < positionLimit) :
    readPredicate (Nat.toDigits 10 n) = .ok (.position n) := by
  have hdigit : ∀ c ∈ Nat.toDigits 10 n, isAsciiDigit c = true :=
    fun _ => isAsciiDigit_of_mem_toDigits
  have hnone {c : Char} (hc : isAsciiDigit c = false) : c ∉ Nat.toDigits 10 n := by
    intro hmem
    rw [hdigit c hmem] at hc
    cases hc
  obtain ⟨ha, hc, hd⟩ :=
    predicates_eq_none (hnone (by decide)) (hnone (by decide)) (hnone (by decide))
  have hempty : (Nat.toDigits 10 n).isEmpty = false :=
    List.isEmpty_eq_false_iff.mpr Nat.toDigits_ne_nil
  have hdecimal : (Nat.toDigits 10 n).all isDecimalDigit = true :=
    List.all_eq_true.mpr fun c hc => isDecimalDigit_of_isAsciiDigit (hdigit c hc)
  have hascii : (Nat.toDigits 10 n).all isAsciiDigit = true := List.all_eq_true.mpr hdigit
  rw [readPredicate_of_none ha hc hd]
  left
  simp [positionPredicate?, hempty, hdecimal, hascii, decimalValue_toDigits, hpos, hlimit]

theorem readPredicate_last : readPredicate "last()".toList = .ok .last := by
  rw [toList_last]
  obtain ⟨ha, hc, hd⟩ := @predicates_eq_none ['l', 'a', 's', 't', '(', ')'] (by decide)
    (by decide) (by decide)
  have hposition : positionPredicate? ['l', 'a', 's', 't', '(', ')'] = none := by
    with_unfolding_all rfl
  have hlast : isLast ['l', 'a', 's', 't', '(', ')'] = true := by
    with_unfolding_all rfl
  exact (readPredicate_of_none ha hc hd).mpr (.inr ⟨hposition, hlast, rfl⟩)

theorem readPredicate_attribute {rest : List Char} (ht : t.Writable)
    (hrest : AttributeTail t rest p) (htrim : trimEnd (t.text.toList ++ rest) =
      t.text.toList ++ rest) :
    readPredicate (trim ('@' :: (t.text.toList ++ rest))) = .ok p := by
  have hat : isBlank '@' = false := isBlank_eq_false (by decide) (by decide)
  rw [trim_cons_of_not_blank hat, htrim]
  have hread := attributePredicate?_eq_some_iff.mpr
    ⟨t.text.toList, rest, t, rfl, NameTest.nameTest?_text ht, hrest⟩
  exact readPredicate_eq_ok_iff.mpr (.inl hread)

theorem trim_name_written {name : List Char} (hname : nameTest? name = some t) (k : Comparison)
    (op : List Char) : trim (name ++ k.written op) = name ++ k.written op := by
  obtain ⟨c, rest, rfl, hc⟩ := begins_of_nameTest? hname
  rw [List.cons_append, trim_cons_of_not_blank (isBlank_of_begins hc), k.trimEnd_append_written]

/-- What is written between the brackets of a predicate is read as that predicate. -/
theorem Predicate.Writable.read (h : p.Writable) : readPredicate (trim p.text.toList) = .ok p := by
  cases h with
  | @hasAttribute t ht =>
    have htrim := trimEnd_name (NameTest.nameTest?_text ht)
    rw [← List.append_nil t.text.toList] at htrim
    rw [toList_hasAttribute, ← List.append_nil t.text.toList]
    exact readPredicate_attribute ht (.present .nil) htrim
  | @attributeIs t v ht hv =>
    obtain ⟨k, rfl, hk⟩ := exists_comparison_of_quotable hv
    have hread := readPredicate_attribute ht (.equal k) (k.trimEnd_append_written _ _)
    rw [toList_attributeIs]
    rw [hk] at hread
    exact hread
  | @attributeIsNot t v ht hv =>
    obtain ⟨k, rfl, hk⟩ := exists_comparison_of_quotable hv
    have hread := readPredicate_attribute ht (.differs k) (k.trimEnd_append_written _ _)
    rw [toList_attributeIsNot]
    rw [hk] at hread
    exact hread
  | @childIs name v hname hv =>
    obtain ⟨k, rfl, hk⟩ := exists_comparison_of_quotable hv
    have hread : nameTest? name.toList = some (.named name) := NameTest.nameTest?_text hname
    have htext : (Predicate.childIs (.named name) (String.ofList k.text)).text.toList =
        name.toList ++ k.written ['='] := by
      rw [toList_childIs, hk]
      rfl
    have hchild := childPredicate?_eq_some_iff.mpr ⟨name.toList, k, name, rfl, hread, rfl⟩
    rw [htext, trim_name_written hread]
    exact readPredicate_eq_ok_iff.mpr (.inr (.inr (.inl hchild)))
  | @nameContains v hv =>
    obtain ⟨n, rfl, hn⟩ := exists_nameCall_of_quotable hv
    have hcall := containsPredicate?_eq_some_iff.mpr ⟨n, rfl, rfl⟩
    rw [toList_nameContains, ← hn, n.trim_written]
    exact readPredicate_eq_ok_iff.mpr (.inr (.inl hcall))
  | @position number hpos hlimit =>
    have hblank : ∀ c ∈ Nat.toDigits 10 number, isBlank c = false := fun c hc =>
      isBlank_of_isTestChar (isTestChar_of_isAsciiDigit (isAsciiDigit_of_mem_toDigits hc))
    rw [toList_position, trim_eq_self hblank]
    exact readPredicate_toDigits hpos hlimit
  | last =>
    have hblank : trim "last()".toList = "last()".toList := by
      rw [toList_last]
      with_unfolding_all rfl
    change readPredicate (trim "last()".toList) = _
    rw [hblank]
    exact readPredicate_last

theorem Delimiters.InUse.level_name (hd : d.InUse) {k : Nat} (ht : t.Writable) :
    d.Level k t.text.toList :=
  hd.level_of_isTestChar (isTestChar_of_nameTest? (NameTest.nameTest?_text ht))

theorem level_quoted {k : Nat} (hv : Quotable v) : d.Level k (quoted v).toList := by
  obtain ⟨q, hq, hmem, htext⟩ := exists_toList_quoted hv
  rw [htext]
  exact .literal hq hmem

/-- Whatever its literal holds, no scanner stops within a written predicate. Its brackets nest twice
at most. -/
theorem Predicate.Writable.level (hd : d.InUse) (h : p.Writable) : d.Level 2 p.text.toList := by
  have hat : d.Level 2 ['@'] := hd.level_of_all (by decide)
  have hequals : d.Level 2 [' ', '=', ' '] := hd.level_of_all (by decide)
  cases h with
  | hasAttribute ht =>
    rw [toList_hasAttribute]
    exact hat.append (hd.level_name ht)
  | attributeIs ht hv =>
    rw [toList_attributeIs]
    exact hat.append ((hd.level_name ht).append (hequals.append (level_quoted hv)))
  | attributeIsNot ht hv =>
    have hdiffers : d.Level 2 [' ', '!', '=', ' '] := hd.level_of_all (by decide)
    rw [toList_attributeIsNot]
    exact hat.append ((hd.level_name ht).append (hdiffers.append (level_quoted hv)))
  | @childIs name v hname hv =>
    rw [toList_childIs]
    exact (hd.level_name hname).append (hequals.append (level_quoted hv))
  | @nameContains v hv =>
    -- the two pairs of parentheses match, one within the other
    have hcontains : d.Level 2 ['c', 'o', 'n', 't', 'a', 'i', 'n', 's'] :=
      hd.level_of_all (by decide)
    have hname : d.Level 1 ['n', 'a', 'm', 'e'] := hd.level_of_all (by decide)
    have hcomma : d.Level 1 [',', ' '] := hd.level_of_all (by decide)
    have hcall := hname.append ((hd.parentheses .nil).append (hcomma.append (level_quoted hv)))
    have hall := hcontains.append (hd.parentheses hcall)
    rw [toList_nameContains, toList_call]
    simpa using hall
  | position _ _ =>
    rw [toList_position]
    exact hd.level_of_isTestChar fun c hc =>
      isTestChar_of_isAsciiDigit (isAsciiDigit_of_mem_toDigits hc)
  | last =>
    have hlast : d.Level 2 ['l', 'a', 's', 't'] := hd.level_of_all (by decide)
    change d.Level 2 "last()".toList
    rw [toList_last]
    exact hlast.append (hd.parentheses .nil)

end Predicates

end TransitAudit.Path
