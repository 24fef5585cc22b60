import TransitAudit.Proofs.Constraint.Extraction
import TransitAudit.Proofs.Key.VersionPosition
import TransitAudit.Proofs.Task.Batch

/-! References and the keys they name. A reference needs one key of the name it gives, with as many
fields as it has itself; the first reference without such a key makes the pairing fail. The two
constraints of a pair give tuples of one length, so the position of a version that one of them
declares lies inside the tuples of both. What a set of keys answers for a tuple that ends before
that position plays no part. -/
namespace TransitAudit

variable {s : ConstraintSet} {keyref key : Constraint} {e : AuditError}

/-! The key of a reference -/

/-- A reference gives the name of a key; one that gives none is taken to give the empty text. -/
def Constraint.Names (keyref key : Constraint) : Prop :=
  keyref.refer.getD "" = key.name

/-- What may be wrong with a reference: no key has the name it gives, several have, or the one that
has it is of another number of fields. -/
inductive KeyrefFault where
  | unnamed
  | ambiguous
  | fieldCount (key : Constraint)

namespace KeyrefFault

def reason (keyref : Constraint) : KeyrefFault → String
  | .unnamed =>
    let refer := keyref.refer.getD ""
    s!"refer \"{refer}\" does not name a key"
  | .ambiguous =>
    let refer := keyref.refer.getD ""
    s!"refer \"{refer}\" names more than one key"
  | .fieldCount key =>
    s!"has {keyref.fields.length} fields but key \"{key.name}\" has {key.fields.length}"

/-- The error names the reference. -/
def error (keyref : Constraint) (fault : KeyrefFault) : AuditError :=
  .malformedConstraint keyref.name (fault.reason keyref)

end KeyrefFault

namespace ConstraintSet

/-- One key of the set has the name that a reference gives, and no other has it. -/
def NamesOnly (s : ConstraintSet) (keyref key : Constraint) : Prop :=
  ∃ before after, s.keys = before ++ key :: after ∧ keyref.Names key ∧
    ∀ other ∈ before ++ after, ¬ keyref.Names other

/-- A key that a reference can be resolved against. -/
def PairsWith (s : ConstraintSet) (keyref key : Constraint) : Prop :=
  s.NamesOnly keyref key ∧ key.fields.length = keyref.fields.length

def Offends (s : ConstraintSet) (keyref : Constraint) : KeyrefFault → Prop
  | .unnamed => ∀ key ∈ s.keys, ¬ keyref.Names key
  | .ambiguous => ∃ first second, [first, second].Sublist s.keys ∧ keyref.Names first ∧
      keyref.Names second
  | .fieldCount key => s.NamesOnly keyref key ∧ key.fields.length ≠ keyref.fields.length

/-- The keys that a reference names, in the order of the set. -/
def keysNamed (s : ConstraintSet) (keyref : Constraint) : List Constraint :=
  s.keys.filter (·.name == keyref.refer.getD "")

theorem names_iff_beq : keyref.Names key ↔ (key.name == keyref.refer.getD "") = true := by
  rw [Constraint.Names, beq_iff_eq, eq_comm]

theorem keysNamed_eq_nil_iff : s.keysNamed keyref = [] ↔ s.Offends keyref .unnamed := by
  rw [keysNamed, List.filter_eq_nil_iff]
  exact forall₂_congr fun key _ => not_congr names_iff_beq.symm

theorem keysNamed_eq_singleton_iff : s.keysNamed keyref = [key] ↔ s.NamesOnly keyref key := by
  rw [keysNamed, List.filter_eq_cons_iff]
  simp only [NamesOnly, List.forall_mem_append, names_iff_beq, List.filter_eq_nil_iff]
  constructor
  · rintro ⟨before, after, hs, hbefore, hkey, hafter⟩
    exact ⟨before, after, hs, hkey, hbefore, hafter⟩
  · rintro ⟨before, after, hs, hkey, hbefore, hafter⟩
    exact ⟨before, after, hs, hbefore, hkey, hafter⟩

theorem exists_keysNamed_iff : (∃ first second more, s.keysNamed keyref = first :: second :: more) ↔
    s.Offends keyref .ambiguous := by
  constructor
  · rintro ⟨first, second, more, h⟩
    have hnamed : ∀ key ∈ first :: second :: more, keyref.Names key := by
      intro key hkey
      rw [← h, keysNamed, List.mem_filter] at hkey
      exact names_iff_beq.mpr hkey.2
    have hpair : [first, second].Sublist (s.keysNamed keyref) := by
      rw [h]
      exact (List.nil_sublist more).cons_cons second |>.cons_cons first
    exact ⟨first, second, hpair.trans List.filter_sublist, hnamed first (by simp),
      hnamed second (by simp)⟩
  · rintro ⟨first, second, hpair, hfirst, hsecond⟩
    have hself : [first, second].filter (·.name == keyref.refer.getD "") = [first, second] := by
      rw [List.filter_eq_self]
      intro key hkey
      rcases List.mem_pair.mp hkey with rfl | rfl
      · exact names_iff_beq.mp hfirst
      · exact names_iff_beq.mp hsecond
    have hkept : [first, second].Sublist (s.keysNamed keyref) := hself ▸ hpair.filter _
    match hk : s.keysNamed keyref with
    | [] => simp [hk] at hkept
    | [only] => simp [hk] at hkept
    | a :: b :: more => exact ⟨a, b, more, rfl⟩

theorem keyOf_eq : s.keyOf keyref = match s.keysNamed keyref with
    | [key] => if key.fields.length = keyref.fields.length then .ok ⟨keyref, key⟩
        else .error ((KeyrefFault.fieldCount key).error keyref)
    | [] => .error (KeyrefFault.unnamed.error keyref)
    | _ => .error (KeyrefFault.ambiguous.error keyref) :=
  rfl

/-- A reference has a key or a fault, and the two exclude each other. -/
theorem keyOf_cases (s : ConstraintSet) (keyref : Constraint) :
    (∃ key, s.PairsWith keyref key ∧ s.keyOf keyref = .ok ⟨keyref, key⟩) ∨
      ∃ fault, s.Offends keyref fault ∧ s.keyOf keyref = .error (fault.error keyref) := by
  rw [keyOf_eq]
  match hk : s.keysNamed keyref with
  | [] => exact .inr ⟨.unnamed, keysNamed_eq_nil_iff.mp hk, rfl⟩
  | first :: second :: more =>
    exact .inr ⟨.ambiguous, exists_keysNamed_iff.mp ⟨first, second, more, hk⟩, rfl⟩
  | [key] =>
    have hnamed := keysNamed_eq_singleton_iff.mp hk
    by_cases hl : key.fields.length = keyref.fields.length
    · exact .inl ⟨key, ⟨hnamed, hl⟩, if_pos hl⟩
    · exact .inr ⟨.fieldCount key, ⟨hnamed, hl⟩, if_neg hl⟩

theorem keyOf_of_pairsWith (h : s.PairsWith keyref key) : s.keyOf keyref = .ok ⟨keyref, key⟩ := by
  rw [keyOf_eq, keysNamed_eq_singleton_iff.mpr h.1]
  exact if_pos h.2

theorem keyOf_of_offends {fault : KeyrefFault} (h : s.Offends keyref fault) :
    s.keyOf keyref = .error (fault.error keyref) := by
  rw [keyOf_eq]
  cases fault with
  | unnamed => rw [keysNamed_eq_nil_iff.mpr h]
  | ambiguous =>
    obtain ⟨first, second, more, hk⟩ := exists_keysNamed_iff.mpr h
    rw [hk]
  | fieldCount key =>
    rw [keysNamed_eq_singleton_iff.mpr h.1]
    exact if_neg h.2

theorem keyOf_eq_ok_iff {p : KeyrefPair} :
    s.keyOf keyref = .ok p ↔ p.keyref = keyref ∧ s.PairsWith keyref p.key := by
  constructor
  · intro h
    rcases keyOf_cases s keyref with ⟨key, hpairs, hok⟩ | ⟨fault, -, herror⟩
    · obtain rfl : (⟨keyref, key⟩ : KeyrefPair) = p := Except.ok.inj (hok.symm.trans h)
      exact ⟨rfl, hpairs⟩
    · cases herror.symm.trans h
  · rintro ⟨rfl, h⟩
    exact keyOf_of_pairsWith h

theorem keyOf_eq_error_iff :
    s.keyOf keyref = .error e ↔ ∃ fault, s.Offends keyref fault ∧ e = fault.error keyref := by
  constructor
  · intro h
    rcases keyOf_cases s keyref with ⟨key, -, hok⟩ | ⟨fault, hfault, herror⟩
    · cases hok.symm.trans h
    · exact ⟨fault, hfault, Except.error.inj (h.symm.trans herror)⟩
  · rintro ⟨fault, hfault, rfl⟩
    exact keyOf_of_offends hfault

theorem exists_keyOf_iff : (∃ p, s.keyOf keyref = .ok p) ↔ ∃ key, s.PairsWith keyref key := by
  constructor
  · rintro ⟨p, hp⟩
    exact ⟨p.key, (keyOf_eq_ok_iff.mp hp).2⟩
  · rintro ⟨key, h⟩
    exact ⟨_, keyOf_of_pairsWith h⟩

/-- The references of a schema give a name. -/
theorem names_iff_of_extract {root : Node} (hs : extract root = .ok s)
    (hkeyref : keyref ∈ s.keyrefs) : keyref.Names key ↔ keyref.refer = some key.name := by
  obtain ⟨n, -, hread⟩ := exists_of_mem_forall₂ (extract_eq_ok_iff.mp hs .keyref).flip hkeyref
  have hrefer := hread.refer
  rw [if_pos rfl] at hrefer
  obtain ⟨written, -, hrefer⟩ := hrefer
  rw [Constraint.Names, hrefer, Option.getD_some, Option.some_inj]

/-! All references of a set -/

/-- Each pair holds a reference, in the order of the set, and the key that it names. -/
theorem keyrefPairs_eq_ok_iff {pairs : List KeyrefPair} : s.keyrefPairs = .ok pairs ↔
    List.Forall₂ (fun keyref p => p.keyref = keyref ∧ s.PairsWith keyref p.key) s.keyrefs
      pairs := by
  rw [keyrefPairs, mapM_eq_ok_iff]
  simp only [keyOf_eq_ok_iff]

theorem keyrefPairs_eq_error_iff : s.keyrefPairs = .error e ↔
    ∃ before keyref after fault, s.keyrefs = before ++ keyref :: after ∧
      (∀ earlier ∈ before, ∃ key, s.PairsWith earlier key) ∧ s.Offends keyref fault ∧
        e = fault.error keyref := by
  rw [keyrefPairs, mapM_eq_error_iff]
  simp only [exists_keyOf_iff, keyOf_eq_error_iff]
  constructor
  · rintro ⟨before, keyref, after, heq, hbefore, fault, hfault, he⟩
    exact ⟨before, keyref, after, fault, heq, hbefore, hfault, he⟩
  · rintro ⟨before, keyref, after, fault, heq, hbefore, hfault, he⟩
    exact ⟨before, keyref, after, heq, hbefore, fault, hfault, he⟩

theorem exists_keyrefPairs_iff :
    (∃ pairs, s.keyrefPairs = .ok pairs) ↔ ∀ keyref ∈ s.keyrefs, ∃ key, s.PairsWith keyref key := by
  constructor
  · rintro ⟨pairs, hpairs⟩ keyref hkeyref
    obtain ⟨p, -, -, hp⟩ := exists_of_mem_forall₂ (keyrefPairs_eq_ok_iff.mp hpairs) hkeyref
    exact ⟨p.key, hp⟩
  · intro h
    cases hpairs : s.keyrefPairs with
    | ok pairs => exact ⟨pairs, rfl⟩
    | error e =>
      -- the reference that the error is about would have both a key and a fault
      obtain ⟨before, keyref, after, fault, heq, -, hfault, -⟩ := keyrefPairs_eq_error_iff.mp hpairs
      obtain ⟨key, hkey⟩ := h keyref (by simp [heq])
      cases (keyOf_of_offends hfault).symm.trans (keyOf_of_pairsWith hkey)

end ConstraintSet

/-! The position of the version -/

/-- The position at which a missing version is made up for lies inside every tuple of the reference
and inside every tuple of the key. -/
structure KeyrefPair.VersionInside (p : KeyrefPair) (index : Nat) : Prop where
  reference : ∀ refs, KeyEvaluator.ofConstraint p.keyref = .ok refs →
    ∀ n, index < (refs.values n).length
  key : ∀ keys, KeyEvaluator.ofConstraint p.key = .ok keys → ∀ n, index < (keys.values n).length

theorem KeyrefPair.versionInside {p : KeyrefPair}
    (hl : p.key.fields.length = p.keyref.fields.length) {index : Nat}
    (hi : p.versionIndex? = some index) : p.VersionInside index := by
  have hlt : index < p.keyref.fields.length := by
    rw [versionIndex?, Option.orElse_eq_orElse, Option.orElse_eq_or, Option.or_eq_some_iff] at hi
    rcases hi with hi | ⟨-, hi⟩
    · exact Constraint.versionIndex?_lt hi
    · exact hl ▸ Constraint.versionIndex?_lt hi
  constructor
  · intro refs hrefs n
    rwa [KeyEvaluator.length_values hrefs]
  · intro keys hkeys n
    rwa [KeyEvaluator.length_values hkeys, hl]

/-- A way to resolve references that differs from the usual one at most for a tuple that ends before
the position of the version. -/
def KeySet.AgreesInside (resolve : KeySet → List FieldValue → Bool) : Prop :=
  ∀ (known : KeySet) (reference : List FieldValue),
    (∀ index ∈ known.versionIndex, index < reference.length) →
      resolve known reference = known.resolves reference

/-- The check on references with some way to resolve them. -/
def checkKeyrefBy (resolve : KeySet → List FieldValue → Bool) (keyref key : Constraint)
    (context : Node) : Except AuditError (List Finding) := do
  let evaluator ← KeyEvaluator.ofConstraint keyref
  let references := evaluator.select context
  if references.isEmpty then return []
  let keys ← KeySet.build key context (keyref.versionIndex? <|> key.versionIndex?)
  return references.filterMap fun n =>
    if (n.attr? "versionRef").isSome then none
    else
      let values := evaluator.values n
      if resolve keys values then none
      else some (danglingFinding keyref key evaluator values n.line)

theorem checkKeyrefBy_resolves : checkKeyrefBy KeySet.resolves = checkKeyref :=
  rfl

theorem KeySet.versionIndex_of_build {context : Node} {version : Option Nat} {known : KeySet}
    (h : KeySet.build key context version = .ok known) : known.versionIndex = version := by
  obtain ⟨keys, -, hret⟩ := bind_eq_ok_iff.mp h
  cases hret
  rfl

/-- The check on a pair never resolves a tuple that ends before the position of the version. -/
theorem checkKeyrefBy_eq {resolve : KeySet → List FieldValue → Bool}
    (hresolve : KeySet.AgreesInside resolve) {p : KeyrefPair}
    (hl : p.key.fields.length = p.keyref.fields.length) (context : Node) :
    checkKeyrefBy resolve p.keyref p.key context = checkKeyref p.keyref p.key context := by
  rw [← checkKeyrefBy_resolves, checkKeyrefBy, checkKeyrefBy]
  cases hrefs : KeyEvaluator.ofConstraint p.keyref with
  | error e => rfl
  | ok refs =>
    cases hknown : KeySet.build p.key context (p.keyref.versionIndex? <|> p.key.versionIndex?) with
    | error e => rfl
    | ok known =>
      have hsame (n : Node) : resolve known (refs.values n) = known.resolves (refs.values n) := by
        apply hresolve
        intro index hi
        have hversion : p.versionIndex? = some index := by
          rw [← hi, KeySet.versionIndex_of_build hknown]
          rfl
        exact (KeyrefPair.versionInside hl hversion).reference refs hrefs n
      change (if (refs.select context).isEmpty = true then _ else Except.ok _) =
        if (refs.select context).isEmpty = true then _ else Except.ok _
      simp only [hsame]

/-- Pairing succeeds just when each reference names exactly one key and this has as many fields, and
fails with a fault of the first reference of which that is not so. In the pairs the position of the
version lies inside all tuples. So the checks find the same with every way to resolve references
that differs outside. -/
theorem ConstraintSet.keyrefs_paired_or_first_fault (s : ConstraintSet) :
    (∀ root, extract root = .ok s → ∀ keyref ∈ s.keyrefs, ∀ key,
      keyref.Names key ↔ keyref.refer = some key.name) ∧
    ((∃ pairs, s.keyrefPairs = .ok pairs) ↔
      ∀ keyref ∈ s.keyrefs, ∃ key, s.PairsWith keyref key) ∧
    (∀ e, s.keyrefPairs = .error e ↔ ∃ before keyref after fault,
      s.keyrefs = before ++ keyref :: after ∧
        (∀ earlier ∈ before, ∃ key, s.PairsWith earlier key) ∧ s.Offends keyref fault ∧
          e = fault.error keyref) ∧
    ∀ pairs, s.keyrefPairs = .ok pairs →
      List.Forall₂ (fun keyref p => p.keyref = keyref ∧ s.PairsWith keyref p.key) s.keyrefs pairs ∧
      (∀ p ∈ pairs, ∀ index, p.versionIndex? = some index → p.VersionInside index) ∧
      ∀ resolve, KeySet.AgreesInside resolve →
        (∀ p ∈ pairs, ∀ context,
          checkKeyref p.keyref p.key context = checkKeyrefBy resolve p.keyref p.key context) ∧
        ∀ root findings, Integrity.keyrefConstraints root s = .ok findings ↔
          ∃ batches, pairs.mapM (fun p => checkKeyrefBy resolve p.keyref p.key root) = .ok batches ∧
            batches.flatten = findings := by
  refine ⟨fun root hs keyref hkeyref key => names_iff_of_extract hs hkeyref, exists_keyrefPairs_iff,
    fun e => keyrefPairs_eq_error_iff, ?_⟩
  intro pairs hpairs
  have hof := keyrefPairs_eq_ok_iff.mp hpairs
  have hl : ∀ p ∈ pairs, p.key.fields.length = p.keyref.fields.length := by
    intro p hp
    obtain ⟨keyref, -, rfl, hpair⟩ := exists_of_mem_forall₂ hof.flip hp
    exact hpair.2
  refine ⟨hof, fun p hp index hi => KeyrefPair.versionInside (hl p hp) hi, ?_⟩
  intro resolve hresolve
  have hsame : ∀ p ∈ pairs, ∀ context,
      checkKeyref p.keyref p.key context = checkKeyrefBy resolve p.keyref p.key context :=
    fun p hp context => (checkKeyrefBy_eq hresolve (hl p hp) context).symm
  refine ⟨hsame, ?_⟩
  intro root findings
  have hbatches (batches : List (List Finding)) :
      pairs.mapM (fun p => checkKeyref p.keyref p.key root) = .ok batches ↔
        pairs.mapM (fun p => checkKeyrefBy resolve p.keyref p.key root) = .ok batches := by
    rw [mapM_eq_ok_iff, mapM_eq_ok_iff]
    exact forall₂_congr_of_mem fun p hp _ => by rw [hsame p hp root]
  simp only [Integrity.keyrefConstraints_eq_ok_iff, hpairs, Except.ok.injEq, exists_eq_left',
    hbatches]

/-- Gives a fixed answer for a tuple that ends before the position of the version. -/
def KeySet.resolvesOr (outside : Bool) (known : KeySet) (reference : List FieldValue) : Bool :=
  match known.versionIndex with
  | some index => if index < reference.length then known.resolves reference else outside
  | none => known.resolves reference

theorem KeySet.agreesInside_resolvesOr (outside : Bool) : AgreesInside (resolvesOr outside) := by
  intro known reference h
  unfold resolvesOr
  cases hv : known.versionIndex with
  | none => rfl
  | some index => exact if_pos (h index hv)

def orderKey : Constraint :=
  ⟨"L", .key, "k", ["@order"], none, 2⟩

/-- A reference without a version; its second field stands where the key has one. -/
def revisionKeyref : Constraint :=
  ⟨"R", .keyref, "f", ["@ref", "@revision"], some "K", 3⟩

/-- The key gives the position of the version, and the reference has a value there. With a second
key of the same name there is no pair. -/
theorem keyref_paired_by_version_of_key :
    ConstraintSet.keyrefPairs ⟨[orderKey, versionedKey], [revisionKeyref], []⟩ =
        .ok [⟨revisionKeyref, versionedKey⟩] ∧
      KeyrefPair.versionIndex? ⟨revisionKeyref, versionedKey⟩ = some 1 ∧
      (∃ refs, KeyEvaluator.ofConstraint revisionKeyref = .ok refs ∧
        ∀ n, 1 < (refs.values n).length) ∧
      (∀ context, checkKeyref revisionKeyref versionedKey context =
        checkKeyrefBy (KeySet.resolvesOr true) revisionKeyref versionedKey context) ∧
      ConstraintSet.keyrefPairs ⟨[versionedKey, orderKey, versionedKey], [revisionKeyref], []⟩ =
        .error (.malformedConstraint "R" "refer \"K\" names more than one key") := by
  have hpairs : ConstraintSet.keyrefPairs ⟨[orderKey, versionedKey], [revisionKeyref], []⟩ =
      .ok [⟨revisionKeyref, versionedKey⟩] := by with_unfolding_all rfl
  have hi : KeyrefPair.versionIndex? ⟨revisionKeyref, versionedKey⟩ = some 1 := by
    with_unfolding_all rfl
  have hmem : (⟨revisionKeyref, versionedKey⟩ : KeyrefPair) ∈
      [(⟨revisionKeyref, versionedKey⟩ : KeyrefPair)] := List.mem_cons_self
  have hrefs : KeyEvaluator.ofConstraint revisionKeyref =
      .ok ⟨⟨"f", [⟨false, [⟨.child, .named "f", []⟩]⟩]⟩,
        [.attributeNamed "@ref" "ref", .attributeNamed "@revision" "revision"]⟩ := by
    with_unfolding_all rfl
  obtain ⟨-, -, -, hof⟩ := ConstraintSet.keyrefs_paired_or_first_fault
    ⟨[orderKey, versionedKey], [revisionKeyref], []⟩
  obtain ⟨-, hinside, hresolve⟩ := hof _ hpairs
  have hlt := (hinside _ hmem 1 hi).reference _ hrefs
  have hsame := (hresolve _ (KeySet.agreesInside_resolvesOr true)).1 _ hmem
  obtain ⟨-, -, herror, -⟩ := ConstraintSet.keyrefs_paired_or_first_fault
    ⟨[versionedKey, orderKey, versionedKey], [revisionKeyref], []⟩
  have htwo : ConstraintSet.Offends ⟨[versionedKey, orderKey, versionedKey], [revisionKeyref], []⟩
      revisionKeyref .ambiguous := ⟨versionedKey, versionedKey, by decide, rfl, rfl⟩
  have hreason : KeyrefFault.ambiguous.error revisionKeyref =
      .malformedConstraint "R" "refer \"K\" names more than one key" := by with_unfolding_all rfl
  refine ⟨hpairs, hi, ⟨_, hrefs, hlt⟩, hsame, ?_⟩
  rw [← hreason, herror]
  exact ⟨[], revisionKeyref, [], .ambiguous, rfl, by simp, htwo, rfl⟩

end TransitAudit
