import TransitAudit.Proofs.Path.Literals
import TransitAudit.Proofs.Path.PredicateText

/-! Texts that differ in what their literals hold. Every scanner stops at the same places in both,
so they are cut into the same alternatives, steps and predicates, and one is accepted if the other
is. -/
namespace TransitAudit.Path

open Text

/-- Without quotes. -/
def Quoteless (cs : List Char) : Prop :=
  ∀ c ∈ cs, isQuote c = false

/-- The same characters, apart from what stands between quotes. -/
inductive Alike : List Char → List Char → Prop
  | nil : Alike [] []
  | cons {c : Char} {cs ds : List Char} (hc : isQuote c = false) (h : Alike cs ds) :
    Alike (c :: cs) (c :: ds)
  | literal {q : Char} {text text' cs ds : List Char} (hq : isQuote q = true) (htext : q ∉ text)
    (htext' : q ∉ text') (h : Alike cs ds) :
    Alike (q :: (text ++ q :: cs)) (q :: (text' ++ q :: ds))

section Texts

variable {d : Delimiters} {c q : Char} {cs ds es text : List Char}

theorem Quoteless.of_all (h : cs.all (fun c => !isQuote c) = true) : Quoteless cs := by
  intro c hc
  have hnone := List.all_eq_true.mp h c hc
  rw [Bool.not_eq_true'] at hnone
  exact hnone

theorem Quoteless.append (hcs : Quoteless cs) (hds : Quoteless ds) : Quoteless (cs ++ ds) :=
  List.forall_mem_append.mpr ⟨hcs, hds⟩

theorem Alike.append (h : Alike cs ds) {cs' ds' : List Char} (h' : Alike cs' ds') :
    Alike (cs ++ cs') (ds ++ ds') := by
  induction h with
  | nil => exact h'
  | cons hc _ ih => exact .cons hc ih
  | literal hq htext htext' _ ih =>
    simp only [List.cons_append, List.append_assoc]
    exact .literal hq htext htext' ih

theorem Alike.reverse (h : Alike cs ds) : Alike cs.reverse ds.reverse := by
  induction h with
  | nil => exact .nil
  | cons hc _ ih =>
    rw [List.reverse_cons, List.reverse_cons]
    exact ih.append (.cons hc .nil)
  | @literal q text text' cs ds hq htext htext' _ ih =>
    have hreverse (text cs : List Char) : (q :: (text ++ q :: cs)).reverse =
        cs.reverse ++ q :: (text.reverse ++ [q]) := by
      simp
    rw [hreverse, hreverse]
    exact ih.append (.literal hq (by simpa using htext) (by simpa using htext') .nil)

/-- Where there is no quote nothing differs. -/
theorem Alike.eq_of_quoteless (h : Alike cs ds) (hcs : Quoteless cs) : ds = cs := by
  induction h with
  | nil => rfl
  | cons _ _ ih =>
    obtain ⟨-, hcs⟩ := List.forall_mem_cons.mp hcs
    rw [ih hcs]
  | literal hq _ _ _ _ =>
    obtain ⟨hc, -⟩ := List.forall_mem_cons.mp hcs
    rw [hq] at hc
    cases hc

theorem alike_cons_iff (hc : isQuote c = false) :
    Alike (c :: cs) es ↔ ∃ ds, es = c :: ds ∧ Alike cs ds := by
  constructor
  · intro h
    cases h with
    | cons _ h => exact ⟨_, rfl, h⟩
    | literal hq _ _ _ =>
      rw [hq] at hc
      cases hc
  · rintro ⟨ds, rfl, h⟩
    exact .cons hc h

/-- A text is cut at a character in one way only. -/
theorem cut_inj {text' : List Char} (htext : q ∉ text) (htext' : q ∉ text')
    (h : text ++ q :: cs = text' ++ q :: ds) : text = text' ∧ cs = ds := by
  induction text generalizing text' with
  | nil =>
    cases text' with
    | nil => exact ⟨rfl, (List.cons.inj h).2⟩
    | cons c text' =>
      obtain rfl : q = c := (List.cons.inj h).1
      exact absurd List.mem_cons_self htext'
  | cons c text ih =>
    cases text' with
    | nil =>
      obtain rfl : c = q := (List.cons.inj h).1
      exact absurd List.mem_cons_self htext
    | cons c' text' =>
      obtain ⟨rfl, hrest⟩ := List.cons.inj h
      rw [List.mem_cons, not_or] at htext htext'
      obtain ⟨rfl, rfl⟩ := ih htext.2 htext'.2 hrest
      exact ⟨rfl, rfl⟩

theorem alike_literal_iff (hq : isQuote q = true) (htext : q ∉ text) :
    Alike (q :: (text ++ q :: cs)) es ↔
      ∃ text' ds, es = q :: (text' ++ q :: ds) ∧ q ∉ text' ∧ Alike cs ds := by
  constructor
  · intro h
    generalize hwhole : q :: (text ++ q :: cs) = whole at h
    cases h with
    | nil => cases hwhole
    | cons hc _ =>
      obtain rfl := (List.cons.inj hwhole).1
      rw [hq] at hc
      cases hc
    | literal _ ht ht' h =>
      obtain ⟨rfl, hrest⟩ := List.cons.inj hwhole
      obtain ⟨-, rfl⟩ := cut_inj htext ht hrest
      exact ⟨_, _, rfl, ht', h⟩
  · rintro ⟨text', ds, rfl, htext', h⟩
    exact .literal hq htext htext' h

/-- What is no quote opens no literal. -/
theorem quote_of_advance_not_quote {depth depth' : Int32} {quote : Option Char}
    (hc : isQuote c = false) (h : d.advance (depth, none) c = some (depth', quote)) :
    quote = none := by
  simp only [Delimiters.advance, hc, Bool.false_eq_true, if_false] at h
  split_ifs at h
  all_goals exact (Prod.mk.inj (Option.some.inj h)).2.symm

/-- The scanner is left in the same place. -/
theorem Alike.scan_eq (h : Alike cs ds) (depth : Int32) :
    d.scan (depth, none) ds = d.scan (depth, none) cs := by
  induction h generalizing depth with
  | nil => rfl
  | @cons c cs ds hc _ ih =>
    rw [Delimiters.scan_cons, Delimiters.scan_cons]
    cases ha : d.advance (depth, none) c with
    | none => rfl
    | some m =>
      obtain ⟨depth', quote⟩ := m
      obtain rfl := quote_of_advance_not_quote hc ha
      exact ih depth'
  | literal hq htext htext' _ ih =>
    rw [Delimiters.scan_literal hq htext', Delimiters.scan_literal hq htext]
    exact ih depth

theorem Alike.closed (h : Alike cs ds) (hcs : d.Closed cs) : d.Closed ds := by
  rw [Delimiters.Closed, h.scan_eq]
  exact hcs

/-- A literal that is left again has its second quote. -/
theorem exists_literal_of_scan {depth depth' : Int32}
    (h : d.scan (depth, some q) cs = some (depth', none)) :
    ∃ text rest, cs = text ++ q :: rest ∧ q ∉ text ∧
      d.scan (depth, none) rest = some (depth', none) := by
  induction cs with
  | nil => cases h
  | cons c cs ih =>
    rw [Delimiters.scan_cons] at h
    by_cases hc : c = q
    · subst hc
      have hclose : d.advance (depth, some c) c = some (depth, none) := by
        simp [Delimiters.advance]
      rw [hclose] at h
      exact ⟨[], cs, rfl, List.not_mem_nil, h⟩
    · have hstay : d.advance (depth, some q) c = some (depth, some q) := by
        simp [Delimiters.advance, hc]
      rw [hstay] at h
      obtain ⟨text, rest, rfl, hmem, hrest⟩ := ih h
      refine ⟨c :: text, rest, rfl, ?_, hrest⟩
      rw [List.mem_cons, not_or]
      exact ⟨Ne.symm hc, hmem⟩

/-- Where each literal is closed the text is made up of them and of other characters. -/
theorem alike_self_of_scan {depth depth' : Int32}
    (h : d.scan (depth, none) cs = some (depth', none)) : Alike cs cs := by
  -- on the length, since a literal is taken at once
  induction hl : cs.length using Nat.strong_induction_on generalizing cs depth with
  | _ l ih =>
    cases cs with
    | nil => exact .nil
    | cons c cs =>
      rw [Delimiters.scan_cons] at h
      cases hc : isQuote c with
      | false =>
        obtain ⟨⟨depth₁, quote⟩, ha, h⟩ := Option.bind_eq_some_iff.mp h
        obtain rfl := quote_of_advance_not_quote hc ha
        exact .cons hc (ih cs.length (by simp at hl; omega) h rfl)
      | true =>
        have hopen : d.advance (depth, none) c = some (depth, some c) := by
          simp [Delimiters.advance, hc]
        rw [hopen] at h
        obtain ⟨text, rest, rfl, hmem, hrest⟩ := exists_literal_of_scan h
        exact .literal hc hmem hmem (ih rest.length (by simp at hl; omega) hrest rfl)

theorem alike_self_of_closed (h : d.Closed cs) : Alike cs cs :=
  alike_self_of_scan h

/-- Behind a text without quotes. -/
theorem alike_append_iff (hcs : Quoteless cs) :
    Alike (cs ++ ds) es ↔ ∃ ds', es = cs ++ ds' ∧ Alike ds ds' := by
  induction cs generalizing es with
  | nil => simp
  | cons c cs ih =>
    obtain ⟨hc, hcs⟩ := List.forall_mem_cons.mp hcs
    rw [List.cons_append, alike_cons_iff hc]
    constructor
    · rintro ⟨es, rfl, hall⟩
      obtain ⟨ds', rfl, hrest⟩ := (ih hcs).mp hall
      exact ⟨ds', rfl, hrest⟩
    · rintro ⟨ds', rfl, hrest⟩
      exact ⟨cs ++ ds', rfl, (ih hcs).mpr ⟨ds', rfl, hrest⟩⟩

theorem Quoteless.alike_self (hcs : Quoteless cs) : Alike cs cs := by
  have h := (alike_append_iff hcs).mpr ⟨[], rfl, .nil⟩
  rw [List.append_nil] at h
  exact h

/-- Two texts are cut alike behind a part whose literals are closed. -/
theorem Alike.cut {xs : List Char} (hcs : Alike cs xs) (h : Alike (cs ++ ds) es) :
    ∃ cs' ds', es = cs' ++ ds' ∧ Alike cs cs' ∧ Alike ds ds' := by
  induction hcs generalizing es with
  | nil => exact ⟨[], es, rfl, .nil, h⟩
  | @cons c cs xs hc _ ih =>
    obtain ⟨es, rfl, hrest⟩ := (alike_cons_iff hc).mp h
    obtain ⟨cs', ds', rfl, hcs', hds'⟩ := ih hrest
    exact ⟨c :: cs', ds', rfl, .cons hc hcs', hds'⟩
  | @literal q text text₁ cs xs hq htext _ _ ih =>
    rw [List.cons_append, List.append_assoc, List.cons_append] at h
    obtain ⟨text', es, rfl, htext', hrest⟩ := (alike_literal_iff hq htext).mp h
    obtain ⟨cs', ds', rfl, hcs', hds'⟩ := ih hrest
    refine ⟨q :: (text' ++ q :: cs'), ds', ?_, .literal hq htext htext' hcs', hds'⟩
    simp

/-! White space at the ends -/

theorem isQuote_of_blank (hc : isBlank c = true) : isQuote c = false := by
  rw [Bool.eq_false_iff]
  intro hq
  rw [isBlank_of_isQuote hq] at hc
  cases hc

theorem Alike.trimStart (h : Alike cs ds) : Alike (trimStart cs) (trimStart ds) := by
  induction h with
  | nil => exact .nil
  | @cons c cs ds hc h ih =>
    cases hblank : isBlank c with
    | true =>
      have hskip (xs : List Char) : Text.trimStart (c :: xs) = Text.trimStart xs :=
        List.dropWhile_cons_of_pos hblank
      rw [hskip, hskip]
      exact ih
    | false =>
      rw [trimStart_cons_of_not_blank hblank, trimStart_cons_of_not_blank hblank]
      exact .cons hc h
  | literal hq htext htext' h _ =>
    have hblank := isBlank_of_isQuote hq
    rw [trimStart_cons_of_not_blank hblank, trimStart_cons_of_not_blank hblank]
    exact .literal hq htext htext' h

theorem Alike.trim (h : Alike cs ds) : Alike (trim cs) (trim ds) :=
  h.trimStart.reverse.trimStart.reverse

end Texts

/-! Predicates -/

section Predicates

variable {cs ds op : List Char} {c : Char} {t : NameTest} {p : Predicate}

theorem isQuote_of_isTestChar (hc : isTestChar c = true) : isQuote c = false := by
  rw [Bool.eq_false_iff]
  intro hq
  have hmark : c ∈ markChars := by
    rcases isQuote_iff.mp hq with rfl | rfl <;> simp [markChars]
  rw [isTestChar_of_mem_markChars hmark] at hc
  cases hc

theorem quoteless_of_allBlank {space : List Char} (h : AllBlank space) : Quoteless space :=
  fun c hc => isQuote_of_blank (h c hc)

theorem quoteless_of_name {name : List Char} (h : nameTest? name = some t) : Quoteless name :=
  fun c hc => isQuote_of_isTestChar (isTestChar_of_nameTest? h c hc)

theorem Comparison.exists_alike (k : Comparison) (hop : Quoteless op)
    (h : Alike (k.written op) ds) : ∃ k' : Comparison, ds = k'.written op := by
  have hbefore : Quoteless (k.before ++ (op ++ k.behind)) :=
    (quoteless_of_allBlank k.before_blank).append
      (hop.append (quoteless_of_allBlank k.behind_blank))
  have htext : k.written op =
      k.before ++ (op ++ k.behind) ++ k.quote :: (k.text ++ k.quote :: []) := by
    simp [Comparison.written]
  rw [htext] at h
  obtain ⟨ds, rfl, hliteral⟩ := (alike_append_iff hbefore).mp h
  obtain ⟨text', ds, rfl, hmem, hrest⟩ :=
    (alike_literal_iff k.isQuote_quote k.quote_not_mem).mp hliteral
  cases hrest
  refine ⟨{ k with text := text', quote_not_mem := hmem }, ?_⟩
  simp [Comparison.written]

theorem AttributeTail.exists_alike {rest : List Char} (htail : AttributeTail t rest p)
    (h : Alike rest ds) : ∃ p', AttributeTail t ds p' ∧ p'.outline = p.outline := by
  cases htail with
  | present hspace =>
    obtain rfl := h.eq_of_quoteless (quoteless_of_allBlank hspace)
    exact ⟨_, .present hspace, rfl⟩
  | equal k =>
    obtain ⟨k', rfl⟩ := k.exists_alike (.of_all (by decide)) h
    exact ⟨_, .equal k', rfl⟩
  | differs k =>
    obtain ⟨k', rfl⟩ := k.exists_alike (.of_all (by decide)) h
    exact ⟨_, .differs k', rfl⟩

theorem NameCall.exists_alike (n : NameCall) (h : Alike n.written ds) :
    ∃ n' : NameCall, ds = n'.written := by
  have hopening : Quoteless n.opening := by
    have hlocal : Quoteless (if n.isLocal then ['l', 'o', 'c', 'a', 'l', '-'] else []) := by
      cases n.isLocal <;> exact .of_all (by decide)
    have hcontains : Quoteless ['c', 'o', 'n', 't', 'a', 'i', 'n', 's', '('] :=
      .of_all (by decide)
    have hname : Quoteless ['n', 'a', 'm', 'e', '('] := .of_all (by decide)
    have hclose : Quoteless [')'] := .of_all (by decide)
    have hcomma : Quoteless [','] := .of_all (by decide)
    have hargument := hcomma.append (quoteless_of_allBlank n.argument_blank)
    have hbehind := hclose.append ((quoteless_of_allBlank n.behind_blank).append hargument)
    have hcall := hname.append ((quoteless_of_allBlank n.inner_blank).append hbehind)
    rw [n.opening_eq]
    exact hcontains.append ((quoteless_of_allBlank n.outer_blank).append (hlocal.append hcall))
  have hlast : Quoteless (n.last ++ [')']) :=
    (quoteless_of_allBlank n.last_blank).append (.of_all (by decide))
  obtain ⟨ds, rfl, hliteral⟩ := (alike_append_iff hopening).mp h
  obtain ⟨text', ds, rfl, hmem, hrest⟩ :=
    (alike_literal_iff n.isQuote_quote n.quote_not_mem).mp hliteral
  obtain rfl := hrest.eq_of_quoteless hlast
  exact ⟨{ n with text := text', quote_not_mem := hmem }, rfl⟩

theorem quoteless_of_positionPredicate? (h : positionPredicate? cs = some (.ok p)) :
    Quoteless cs := by
  unfold positionPredicate? at h
  split_ifs at h with hempty hdigits
  · rw [Bool.and_eq_true, Bool.and_eq_true] at hdigits
    intro c hc
    have hdigit := List.all_eq_true.mp hdigits.1.1 c hc
    rw [Bool.eq_false_iff]
    intro hq
    rcases isQuote_iff.mp hq with rfl | rfl
    · exact absurd hdigit (by decide)
    · exact absurd hdigit (by decide)
  · cases h

theorem quoteless_of_isLast (h : isLast cs = true) : Quoteless cs := by
  have hopening : "last(".toList = ['l', 'a', 's', 't', '('] := String.toList_ofList
  unfold isLast at h
  split at h
  · rename_i rest hrest
    obtain ⟨space, hspace, htrim⟩ := exists_trimStart rest
    rw [of_decide_eq_true h] at htrim
    rw [dropLeading?_eq_some_iff.mp hrest, htrim, hopening]
    exact .append (.of_all (by decide))
      ((quoteless_of_allBlank hspace).append (.of_all (by decide)))
  · cases h

/-- A predicate is read as one of the same kind. -/
theorem exists_readPredicate_of_alike (h : Alike cs ds) (hp : readPredicate cs = .ok p) :
    ∃ p', readPredicate ds = .ok p' ∧ p'.outline = p.outline := by
  rcases readPredicate_eq_ok_iff.mp hp with ha | hc | hd | ⟨-, -, -, hposition | ⟨-, hlast, rfl⟩⟩
  · obtain ⟨name, rest, t, rfl, hname, htail⟩ := attributePredicate?_eq_some_iff.mp ha
    have hquote : Quoteless ('@' :: name) :=
      List.forall_mem_cons.mpr ⟨by decide, quoteless_of_name hname⟩
    obtain ⟨ds, rfl, hrest⟩ := (alike_append_iff hquote).mp h
    obtain ⟨p', htail', hp'⟩ := htail.exists_alike hrest
    have hread := attributePredicate?_eq_some_iff.mpr ⟨name, ds, t, rfl, hname, htail'⟩
    exact ⟨p', readPredicate_eq_ok_iff.mpr (.inl hread), hp'⟩
  · obtain ⟨n, rfl, rfl⟩ := containsPredicate?_eq_some_iff.mp hc
    obtain ⟨n', rfl⟩ := n.exists_alike h
    have hread := containsPredicate?_eq_some_iff.mpr ⟨n', rfl, rfl⟩
    exact ⟨_, readPredicate_eq_ok_iff.mpr (.inr (.inl hread)), rfl⟩
  · obtain ⟨name, k, localName, rfl, hname, rfl⟩ := childPredicate?_eq_some_iff.mp hd
    obtain ⟨ds, rfl, hrest⟩ := (alike_append_iff (quoteless_of_name hname)).mp h
    obtain ⟨k', rfl⟩ := k.exists_alike (.of_all (by decide)) hrest
    have hread := childPredicate?_eq_some_iff.mpr ⟨name, k', localName, rfl, hname, rfl⟩
    exact ⟨_, readPredicate_eq_ok_iff.mpr (.inr (.inr (.inl hread))), rfl⟩
  · -- positions hold no literal
    obtain rfl := h.eq_of_quoteless (quoteless_of_positionPredicate? hposition)
    exact ⟨p, hp, rfl⟩
  · obtain rfl := h.eq_of_quoteless (quoteless_of_isLast hlast)
    exact ⟨_, hp, rfl⟩

end Predicates

/-! Parts in a row -/

section Rows

variable {α β γ κ : Type} {ds rest : List Char}

/-- From a text that is alike each part is read with the same outline. -/
structure OutlineKept (text : α → List Char) (R : α → β → Prop) (outline : β → γ) : Prop where
  self : ∀ a b, R a b → Alike (text a) (text a)
  part : ∀ a b ds, R a b → Alike (text a) ds →
    ∃ a' b', ds = text a' ∧ R a' b' ∧ outline b' = outline b

theorem OutlineKept.flatMap {text : α → List Char} {R : α → β → Prop} {outline : β → γ}
    (hkept : OutlineKept text R outline) {as : List α} {bs : List β} (h : List.Forall₂ R as bs)
    (ha : Alike (as.flatMap text ++ rest) ds) :
    ∃ as' bs' rest', ds = as'.flatMap text ++ rest' ∧ List.Forall₂ R as' bs' ∧
      bs'.map outline = bs.map outline ∧ Alike rest rest' := by
  induction h generalizing ds with
  | nil => exact ⟨[], [], ds, rfl, .nil, rfl, ha⟩
  | @cons a b as bs hab _ ih =>
    -- the first part is cut off, and the others are left
    rw [List.flatMap_cons, List.append_assoc] at ha
    obtain ⟨cs, ds, rfl, hfirst, hrest⟩ := (hkept.self a b hab).cut ha
    obtain ⟨a', b', rfl, hab', hb'⟩ := hkept.part a b cs hab hfirst
    obtain ⟨as', bs', rest', rfl, has', hbs', hrest'⟩ := ih hrest
    refine ⟨a' :: as', b' :: bs', rest', ?_, .cons hab' has', ?_, hrest'⟩
    · rw [List.flatMap_cons, List.append_assoc]
    · rw [List.map_cons, List.map_cons, hb', hbs']

variable {R : Part κ → β → Prop} {outline : β → γ} {lead : κ → List Char} {ps : List (Part κ)}
  {xs : List β}

/-- The same for parts whose kind stays what it is. -/
structure PartOutlineKept (R : Part κ → β → Prop) (outline : β → γ) : Prop where
  self : ∀ p x, R p x → Alike p.raw p.raw
  part : ∀ p x raw, R p x → Alike p.raw raw → ∃ x', R ⟨p.kind, raw⟩ x' ∧ outline x' = outline x

theorem PartOutlineKept.behind (hkept : PartOutlineKept R outline)
    (hlead : ∀ k, Quoteless (lead k)) :
    OutlineKept (fun p : Part κ => lead p.kind ++ p.raw) R outline where
  self p x hp := (alike_append_iff (hlead p.kind)).mpr ⟨p.raw, rfl, hkept.self p x hp⟩
  part p x ds hp h := by
    obtain ⟨raw, rfl, hraw⟩ := (alike_append_iff (hlead p.kind)).mp h
    obtain ⟨x', hx', hx⟩ := hkept.part p x raw hp hraw
    exact ⟨⟨p.kind, raw⟩, x', rfl, hx', hx⟩

theorem PartOutlineKept.layout (hkept : PartOutlineKept R outline)
    (hlead : ∀ k, Quoteless (lead k)) (h : List.Forall₂ R ps xs)
    (ha : Alike (Path.layout lead ps) ds) :
    ∃ ps' xs', ds = Path.layout lead ps' ∧ List.Forall₂ R ps' xs' ∧
      xs'.map outline = xs.map outline := by
  rw [← List.append_nil (Path.layout lead ps)] at ha
  obtain ⟨ps', xs', rest, rfl, hps, hxs, hrest⟩ := (hkept.behind hlead).flatMap h ha
  cases hrest
  exact ⟨ps', xs', List.append_nil _, hps, hxs⟩

/-- The first part of a row has nothing in front of it. -/
theorem PartOutlineKept.row (hkept : PartOutlineKept R outline)
    (hlead : ∀ k, Quoteless (lead k)) {p : Part κ}
    (h : List.Forall₂ R (p :: ps) xs) (ha : Alike (p.raw ++ Path.layout lead ps) ds) :
    ∃ raw ps' xs', ds = raw ++ Path.layout lead ps' ∧
      List.Forall₂ R (⟨p.kind, raw⟩ :: ps') xs' ∧ xs'.map outline = xs.map outline := by
  cases h with
  | @cons _ x _ xs hp hps =>
    obtain ⟨raw, ds, rfl, hraw, hrest⟩ := (hkept.self p x hp).cut ha
    obtain ⟨x', hx', hx⟩ := hkept.part p x raw hp hraw
    obtain ⟨ps', xs', rfl, hps', hxs'⟩ := hkept.layout hlead hps hrest
    refine ⟨raw, ps', x' :: xs', rfl, .cons hx' hps', ?_⟩
    rw [List.map_cons, List.map_cons, hx, hxs']

end Rows

/-! Steps -/

section Steps

variable {raw cs ds name space : List Char} {descendant : Bool} {t : NameTest} {s : Step}
  {ps : List Predicate} {path : LocationPath} {paths : List LocationPath}

theorem Group.text_eq (g : Group) : g.text = g.space ++ ['['] ++ (g.inner ++ [']']) := by
  simp [Group.text]

theorem Group.WellFormed.quoteless_opening {g : Group} (h : g.WellFormed) :
    Quoteless (g.space ++ ['[']) :=
  (quoteless_of_allBlank h.space_blank).append (.of_all (by decide))

theorem outlineKept_group : OutlineKept Group.text ReadsPredicate Predicate.outline where
  self g p hg := by
    have hinner := alike_self_of_closed hg.1.inner_closed
    rw [g.text_eq, alike_append_iff hg.1.quoteless_opening]
    exact ⟨g.inner ++ [']'], rfl, hinner.append (.cons (by decide) .nil)⟩
  part g p ds hg h := by
    rw [g.text_eq, alike_append_iff hg.1.quoteless_opening] at h
    obtain ⟨ds, rfl, hrest⟩ := h
    obtain ⟨inner, close, rfl, hinner, hclose⟩ :=
      (alike_self_of_closed hg.1.inner_closed).cut hrest
    obtain rfl := hclose.eq_of_quoteless (.of_all (by decide))
    obtain ⟨p', hp', hp⟩ := exists_readPredicate_of_alike hinner.trim hg.2
    have hclosed := hinner.closed hg.1.inner_closed
    have htext := Group.text_eq ⟨g.space, inner⟩
    exact ⟨⟨g.space, inner⟩, p', htext.symm, ⟨⟨hg.1.space_blank, hclosed⟩, hp'⟩, hp⟩

theorem quoteless_of_trim_name (h : nameTest? (trim name) = some t) :
    ∀ c ∈ name, isQuote c = false := by
  obtain ⟨pre, post, hpre, hpost, hname⟩ := exists_trim name
  rw [hname, List.forall_mem_append, List.forall_mem_append]
  exact ⟨quoteless_of_allBlank hpre, quoteless_of_name h, quoteless_of_allBlank hpost⟩

theorem trim_eq_of_alike (h : Alike cs ds) (hcs : Quoteless (trim cs)) : trim ds = trim cs :=
  h.trim.eq_of_quoteless hcs

/-- A step is read with the same axis, the same name and predicates of the same kinds. -/
theorem exists_readStep_of_alike (h : Alike raw ds) (hs : readStep descendant raw = .ok s) :
    ∃ s', readStep descendant ds = .ok s' ∧ s'.outline = s.outline := by
  rcases readStep_eq_ok_iff_layout.mp hs with ⟨htext, -⟩ | ⟨htext, -⟩ |
    ⟨pre, rest, t, hpre, rfl, htest, -⟩ |
    ⟨name, gs, space, t, ps, rfl, hopen, htest, hspace, hgs, rfl⟩
  · have htrim := trim_eq_of_alike h (htext ▸ .of_all (by decide))
    exact ⟨s, (readStep_congr htrim).trans hs, rfl⟩
  · have htrim := trim_eq_of_alike h (htext ▸ .of_all (by decide))
    exact ⟨s, (readStep_congr htrim).trans hs, rfl⟩
  · -- the name of an attribute holds no literal
    have hname : Quoteless ('@' :: rest) :=
      List.forall_mem_cons.mpr ⟨by decide, quoteless_of_trim_name htest⟩
    have hquote := (quoteless_of_allBlank hpre).append hname
    obtain rfl := h.eq_of_quoteless hquote
    exact ⟨s, hs, rfl⟩
  · obtain ⟨ds, rfl, hrest⟩ := (alike_append_iff (quoteless_of_trim_name htest)).mp h
    obtain ⟨gs', ps', space', rfl, hgs', hps', hspace'⟩ := outlineKept_group.flatMap hgs hrest
    obtain rfl := hspace'.eq_of_quoteless (quoteless_of_allBlank hspace)
    refine ⟨⟨if descendant then .descendant else .child, t, ps'⟩, ?_, ?_⟩
    · exact readStep_eq_ok_iff_layout.mpr (.inr (.inr (.inr
        ⟨name, gs', _, t, ps', rfl, hopen, htest, hspace, hgs', rfl⟩)))
    · change Step.mk _ t (ps'.map Predicate.outline) = Step.mk _ t (ps.map Predicate.outline)
      rw [hps']

theorem partOutlineKept_step : PartOutlineKept ReadsStep Step.outline where
  self _ _ hp := alike_self_of_closed hp.1
  part _ _ _ hp h := by
    obtain ⟨s', hs', hs⟩ := exists_readStep_of_alike h hp.2
    exact ⟨s', ⟨h.closed hp.1, hs'⟩, hs⟩

theorem quoteless_slashes (descends : Bool) : Quoteless (slashes descends) := by
  cases descends <;> exact .of_all (by decide)

theorem quoteless_bar (k : Unit) : Quoteless (bar k) := by
  change Quoteless ['|']
  exact .of_all (by decide)

/-- A path is read with as many steps, each with the outline it had. -/
theorem exists_readLocationPath_of_alike (h : Alike cs ds)
    (hclosed : (Delimiters.atTop '|').Closed cs) (hpath : readLocationPath (trim cs) = .ok path) :
    ∃ path', readLocationPath (trim ds) = .ok path' ∧ path'.outline = path.outline := by
  have hclosed' := h.closed hclosed
  rcases (readLocationPath_trim_eq_ok_iff hclosed).mp hpath with
    ⟨htext, rfl⟩ | ⟨pre, ps, steps, hpre, hne, rfl, hps, rfl⟩ | ⟨raw, ps, steps, rfl, hps, rfl⟩
  · rw [trim_eq_of_alike h (htext ▸ .of_all (by decide))]
    exact ⟨_, hpath, rfl⟩
  · obtain ⟨ds, rfl, hrest⟩ := (alike_append_iff (quoteless_of_allBlank hpre)).mp h
    obtain ⟨ps', steps', rfl, hps', hsteps⟩ :=
      partOutlineKept_step.layout quoteless_slashes hps hrest
    have hne' : ps' ≠ [] := by
      rintro rfl
      cases hps'
      obtain rfl : steps = [] := by simpa using hsteps.symm
      cases hps
      exact hne rfl
    refine ⟨⟨true, steps'⟩, ?_, congrArg (LocationPath.mk true) hsteps⟩
    exact (readLocationPath_trim_eq_ok_iff hclosed').mpr
      (.inr (.inl ⟨pre, ps', steps', hpre, hne', rfl, hps', rfl⟩))
  · obtain ⟨raw', ps', steps', rfl, hps', hsteps⟩ :=
      partOutlineKept_step.row quoteless_slashes hps h
    refine ⟨⟨false, steps'⟩, ?_, congrArg (LocationPath.mk false) hsteps⟩
    exact (readLocationPath_trim_eq_ok_iff hclosed').mpr
      (.inr (.inr ⟨raw', ps', steps', rfl, hps', rfl⟩))

theorem partOutlineKept_path : PartOutlineKept ReadsPath LocationPath.outline where
  self _ _ hp := alike_self_of_closed hp.1
  part _ _ _ hp h := by
    obtain ⟨path', hpath', hpath⟩ := exists_readLocationPath_of_alike h hp.1 hp.2
    exact ⟨path', ⟨h.closed hp.1, hpath'⟩, hpath⟩

/-- What literals hold has no part in how an expression is cut. -/
theorem exists_readAlternatives_of_alike (h : Alike cs ds)
    (hpaths : readAlternatives cs = .ok paths) :
    ∃ paths', readAlternatives ds = .ok paths' ∧
      paths'.map LocationPath.outline = paths.map LocationPath.outline := by
  obtain ⟨p, ps, rfl, hps⟩ := readAlternatives_eq_ok_iff.mp hpaths
  obtain ⟨raw, ps', paths', rfl, hps', hpaths'⟩ := partOutlineKept_path.row quoteless_bar hps h
  exact ⟨paths', readAlternatives_eq_ok_iff.mpr ⟨⟨p.kind, raw⟩, ps', rfl, hps'⟩, hpaths'⟩

/-- Every accepted text is made up of literals and of other characters. -/
theorem alike_self_of_readAlternatives (h : readAlternatives cs = .ok paths) : Alike cs cs := by
  obtain ⟨p, ps, rfl, hps⟩ := readAlternatives_eq_ok_iff.mp h
  cases hps with
  | cons hp hps =>
    have hrest : Alike (layout bar ps) (layout bar ps) := by
      clear h hp
      induction hps with
      | nil => exact .nil
      | cons hq _ ih =>
        rw [layout_cons]
        exact .cons (by decide) ((alike_self_of_closed hq.1).append ih)
    exact (alike_self_of_closed hp.1).append hrest

end Steps

end TransitAudit.Path
