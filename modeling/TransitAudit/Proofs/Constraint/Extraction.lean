import TransitAudit.Proofs.Constraint.Declaration
import TransitAudit.Proofs.Document.Reading

/-! Constraints and their declarations. Every declaration inside a schema gives one constraint, of
the kind and at the place that it has among those of its kind; or else there are no constraints, and
the error tells what the first incomplete declaration lacks, where keys come before references and
these before unique fields. -/
namespace TransitAudit

open TransitAudit.Path

variable {kind : ConstraintKind} {root n : Node}

/-! All declarations of a schema -/

/-- The declarations of one kind that stand anywhere inside a schema, in document order. -/
def ConstraintKind.declared (kind : ConstraintKind) (root : Node) : List Node :=
  root.descendants.filter fun m => kind.name == m.name

theorem ConstraintKind.nodesAt_declarations (kind : ConstraintKind) (root : Node) :
    root.nodesAt kind.declarations = .ok (kind.declared root) := by
  have hparse : PathExpr.parse kind.declarations = .ok ⟨kind.declarations,
      [⟨false, [⟨.self, .any, []⟩, ⟨.descendant, .named kind.name, []⟩]⟩]⟩ := by
    cases kind <;> with_unfolding_all rfl
  rw [Node.nodesAt_of_parse hparse]
  exact congrArg Except.ok (List.append_nil _)

/-- The kinds in the order in which their declarations are read. -/
def ConstraintKind.all : List ConstraintKind :=
  [.key, .keyref, .unique]

/-- All declarations inside a schema with their kinds. -/
def allDeclarations (root : Node) : List (ConstraintKind × Node) :=
  ConstraintKind.all.flatMap fun kind => (kind.declared root).map (Prod.mk kind)

/-- The constraints of one kind. -/
def ConstraintSet.ofKind (set : ConstraintSet) : ConstraintKind → List Constraint
  | .key => set.keys
  | .keyref => set.keyrefs
  | .unique => set.uniques

theorem mem_allDeclarations {d : ConstraintKind × Node} :
    d ∈ allDeclarations root ↔ d.2 ∈ d.1.declared root := by
  obtain ⟨kind, n⟩ := d
  cases kind <;> simp [allDeclarations, ConstraintKind.all]

/-- Reads the declarations of one kind. -/
def readKind (root : Node) (kind : ConstraintKind) : Except AuditError (List Constraint) :=
  (kind.declared root).mapM (Constraint.ofDeclaration (targetLabel? root) kind)

theorem ConstraintSet.extract_eq (root : Node) : extract root = do
    let keys ← readKind root .key
    let keyrefs ← readKind root .keyref
    let uniques ← readKind root .unique
    return ⟨keys, keyrefs, uniques⟩ := by
  unfold extract
  simp only [ConstraintKind.nodesAt_declarations]
  rfl

theorem readKind_eq_ok_iff {cs : List Constraint} : readKind root kind = .ok cs ↔
    List.Forall₂ (Constraint.ReadFrom (targetLabel? root) kind) (kind.declared root) cs := by
  simp only [readKind, mapM_eq_ok_iff, Constraint.ofDeclaration_eq_ok_iff]

/-- The constraints of a schema are those that its declarations say, kind by kind. -/
theorem ConstraintSet.extract_eq_ok_iff {set : ConstraintSet} : extract root = .ok set ↔
    ∀ kind : ConstraintKind, List.Forall₂ (Constraint.ReadFrom (targetLabel? root) kind)
      (kind.declared root) (set.ofKind kind) := by
  simp only [extract_eq, bind_eq_ok_iff, readKind_eq_ok_iff]
  constructor
  · rintro ⟨keys, hkeys, keyrefs, hkeyrefs, uniques, huniques, hret⟩
    cases hret
    intro kind
    cases kind with
    | key => exact hkeys
    | keyref => exact hkeyrefs
    | unique => exact huniques
  · intro h
    exact ⟨_, h .key, _, h .keyref, _, h .unique, rfl⟩

/-- All kinds are read one after another, as if their declarations were one list. -/
theorem ConstraintSet.map_extract (root : Node) :
    (extract root).map (fun set => set.keys ++ set.keyrefs ++ set.uniques) =
      (allDeclarations root).mapM fun d => Constraint.ofDeclaration (targetLabel? root) d.1 d.2 := by
  have hkind (kind : ConstraintKind) : ((kind.declared root).map (Prod.mk kind)).mapM
      (fun d => Constraint.ofDeclaration (targetLabel? root) d.1 d.2) = readKind root kind := by
    rw [List.mapM_map]
    rfl
  simp only [allDeclarations, ConstraintKind.all, List.flatMap_cons, List.flatMap_nil,
    List.mapM_append, List.mapM_nil, hkind, extract_eq]
  cases readKind root .key with
  | error e => rfl
  | ok keys =>
    cases readKind root .keyref with
    | error e => rfl
    | ok keyrefs =>
      cases readKind root .unique with
      | error e => rfl
      | ok uniques => simp [Except.map, bind, Except.bind, pure, Except.pure]

theorem ConstraintSet.extract_eq_error_iff {e : AuditError} : extract root = .error e ↔
    ∃ before kind n after part, allDeclarations root = before ++ (kind, n) :: after ∧
      (∀ d ∈ before, d.1.Complete d.2) ∧ kind.missing? n = some part ∧
      e = kind.fault n part := by
  rw [← map_eq_error_iff, map_extract, mapM_eq_error_iff]
  simp only [Constraint.exists_ofDeclaration_iff, Constraint.ofDeclaration_eq_error_iff]
  constructor
  · rintro ⟨before, ⟨kind, n⟩, after, heq, hbefore, part, hpart, he⟩
    exact ⟨before, kind, n, after, part, heq, hbefore, hpart, he⟩
  · rintro ⟨before, kind, n, after, part, heq, hbefore, hpart, he⟩
    exact ⟨before, (kind, n), after, heq, hbefore, part, hpart, he⟩

/-- Extraction fails just when some declaration lacks a part. -/
theorem ConstraintSet.exists_error_iff (root : Node) : (∃ e, extract root = .error e) ↔
    ∃ kind : ConstraintKind, ∃ n ∈ kind.declared root, ∃ part, kind.lacks n part = true := by
  constructor
  · rintro ⟨e, he⟩
    obtain ⟨before, kind, n, after, part, heq, -, hpart, -⟩ := extract_eq_error_iff.mp he
    have hn : (kind, n) ∈ allDeclarations root := by simp [heq]
    exact ⟨kind, n, mem_allDeclarations.mp hn, part, List.find?_some hpart⟩
  · rintro ⟨kind, n, hn, part, hpart⟩
    cases hset : extract root with
    | error e => exact ⟨e, rfl⟩
    | ok set =>
      -- the constraint that the declaration gave would be what a complete one says
      obtain ⟨c, -, hc⟩ := exists_of_mem_forall₂ (extract_eq_ok_iff.mp hset kind) hn
      have hcomplete : kind.Complete n := (Constraint.exists_ofDeclaration_iff _).mp
        ⟨c, Constraint.ofDeclaration_eq_ok_iff.mpr hc⟩
      rw [hcomplete part] at hpart
      cases hpart

/-- Extraction gives one constraint for each declaration, in the same order among those of its kind,
or fails. It fails just when some declaration lacks a part, and then the error tells the first part
that the first such declaration lacks. -/
theorem ConstraintSet.extract_all_or_first_fault (root : Node) :
    (∀ kind : ConstraintKind, root.nodesAt kind.declarations = .ok (kind.declared root)) ∧
    (∀ set, extract root = .ok set ↔ ∀ kind : ConstraintKind,
      List.Forall₂ (Constraint.ReadFrom (targetLabel? root) kind) (kind.declared root)
        (set.ofKind kind)) ∧
    ((∃ e, extract root = .error e) ↔
      ∃ kind : ConstraintKind, ∃ n ∈ kind.declared root, ∃ part, kind.lacks n part = true) ∧
    ∀ e, extract root = .error e ↔ ∃ before kind n after part,
      allDeclarations root = before ++ (kind, n) :: after ∧ (∀ d ∈ before, d.1.Complete d.2) ∧
        kind.missing? n = some part ∧ e = kind.fault n part :=
  ⟨fun kind => kind.nodesAt_declarations root, fun _ => extract_eq_ok_iff, exists_error_iff root,
    fun _ => extract_eq_error_iff⟩

/-- A unique field without a name stands in front of a reference that names no key:
`<s><unique/><keyref name='R'><selector xpath='a'/><field xpath='@i'/></keyref></s>`. -/
def incompleteSchema : ParsedDocument :=
  ⟨⟨⟨⟨0, "s", [], []⟩,
    [.element ⟨3, "unique", [], []⟩ [],
      .element ⟨12, "keyref", [⟨"name", none, "R"⟩], []⟩
        [.element ⟨29, "selector", [⟨"xpath", none, "a"⟩], []⟩ [],
          .element ⟨50, "field", [⟨"xpath", none, "@i"⟩], []⟩ []]]⟩, []⟩, ⟨#[0]⟩⟩

/-- A reference with two fields stands in front of the key that it names. -/
def completeSchema : ParsedDocument :=
  ⟨⟨⟨⟨0, "s", [], []⟩,
    [.element ⟨3, "keyref", [⟨"name", none, "R"⟩, ⟨"refer", none, "x:K"⟩], []⟩
        [.element ⟨32, "selector", [⟨"xpath", none, "a"⟩], []⟩ [],
          .element ⟨53, "field", [⟨"xpath", none, "@i"⟩], []⟩ [],
          .element ⟨72, "field", [⟨"xpath", none, "@v"⟩], []⟩ []],
      .element ⟨100, "key", [⟨"name", none, "K"⟩], []⟩
        [.element ⟨114, "selector", [⟨"xpath", none, "b"⟩], []⟩ [],
          .element ⟨135, "field", [⟨"xpath", none, "@j"⟩], []⟩ [],
          .element ⟨154, "field", [⟨"xpath", none, "@v"⟩], []⟩ []]]⟩, []⟩, ⟨#[0]⟩⟩

set_option maxRecDepth 4000 in
/-- References are read before unique fields, so the error is about the reference. Complete ones are
stored under their kinds with all their fields. -/
theorem extract_incompleteSchema_completeSchema :
    (Source.ofText "s.xsd" ("<s><unique/><keyref name='R'><selector xpath='a'/>" ++
      "<field xpath='@i'/></keyref></s>")).parse = .ok incompleteSchema ∧
    ConstraintSet.extract incompleteSchema.rootNode =
      .error (.malformedConstraint "R" "missing attribute refer") ∧
    (Source.ofText "s.xsd" ("<s><keyref name='R' refer='x:K'><selector xpath='a'/>" ++
      "<field xpath='@i'/><field xpath='@v'/></keyref><key name='K'><selector xpath='b'/>" ++
      "<field xpath='@j'/><field xpath='@v'/></key></s>")).parse = .ok completeSchema ∧
    ConstraintSet.extract completeSchema.rootNode =
      .ok ⟨[⟨"K", .key, "b", ["@j", "@v"], none, 1⟩],
        [⟨"R", .keyref, "a", ["@i", "@v"], some "K", 1⟩], []⟩ := by
  refine ⟨?_, ?_, ?_, ?_⟩
  · rw [← String.ofList_append, Source.parse_ofList]
    with_unfolding_all rfl
  · obtain ⟨-, -, -, herror⟩ :=
      ConstraintSet.extract_all_or_first_fault incompleteSchema.rootNode
    exact (herror _).mpr ⟨[], .keyref, _, _, .refer, rfl, by simp, rfl, rfl⟩
  · rw [← String.ofList_append, ← String.ofList_append, Source.parse_ofList]
    with_unfolding_all rfl
  · obtain ⟨-, hstored, -⟩ := ConstraintSet.extract_all_or_first_fault completeSchema.rootNode
    refine (hstored _).mpr fun kind => ?_
    cases kind with
    | key =>
      refine .cons ⟨rfl, rfl, ?_, ⟨_, rfl, _, rfl, rfl⟩, ?_, List.cons_ne_nil _ _, rfl⟩ .nil
      · with_unfolding_all rfl
      · exact .cons ⟨_, rfl, rfl⟩ (.cons ⟨_, rfl, rfl⟩ .nil)
    | keyref =>
      refine .cons ⟨rfl, rfl, ?_, ⟨_, rfl, _, rfl, rfl⟩, ?_, List.cons_ne_nil _ _, ?_⟩ .nil
      · with_unfolding_all rfl
      · exact .cons ⟨_, rfl, rfl⟩ (.cons ⟨_, rfl, rfl⟩ .nil)
      · exact ⟨_, rfl, rfl⟩
    | unique => exact .nil

end TransitAudit
