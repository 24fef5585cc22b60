import TransitAudit.Proofs.Schema.Holding

/-! What a request to a loader answers and changes. A request for the text of a schema changes the
kept texts only, one for its constraints these and the kept constraints, and one for its grammar the
kept grammars; the answer and what is kept for the schema afterwards depend on nothing that is kept
for other schemas. -/
namespace TransitAudit

/-! Caches -/

namespace Cache

variable {α : Type} {c d : Cache α} {identifier other : String} {value : α}
  {load : Unit → Except AuditError α}

theorem getOrLoad_empty : ((empty : Cache α).getOrLoad identifier load).answer =
    (load ()).mapError (failure identifier) := by
  have hnone : (empty : Cache α).get? identifier = none := rfl
  rw [getOrLoad_eq, hnone]
  cases load () <;> rfl

/-- The answer, and what is kept for the identifier then, depend on what is kept for it before. -/
theorem getOrLoad_congr (h : c.get? identifier = d.get? identifier) :
    (c.getOrLoad identifier load).answer = (d.getOrLoad identifier load).answer ∧
      (c.getOrLoad identifier load).cache.get? identifier =
        (d.getOrLoad identifier load).cache.get? identifier := by
  simp only [getOrLoad_eq]
  rw [← h]
  cases hkept : c.get? identifier with
  | some value => exact ⟨rfl, h⟩
  | none =>
    cases load () with
    | ok value =>
      refine ⟨rfl, ?_⟩
      simp only [insert, get?, List.lookup_cons_self]
    | error e => exact ⟨rfl, h⟩

/-- What is kept for an identifier after it was asked for is what has been answered. -/
theorem get?_eq_some_iff_answer :
    (c.getOrLoad identifier load).cache.get? identifier = some value ↔
      (c.getOrLoad identifier load).answer = .ok value := by
  cases hkept : c.get? identifier with
  | some kept =>
    rw [getOrLoad_of_some hkept, hkept]
    simp
  | none =>
    rw [getOrLoad_eq, hkept]
    cases load () with
    | ok loaded => simp [insert, get?]
    | error e => simp [hkept]

end Cache

/-! Loaders -/

namespace SchemaLoader

variable {l l' : SchemaLoader} {fs : FileSystem} {identifier path : String} {e : AuditError}

/-- The loader as it was before it was asked for anything. -/
def renewed (l : SchemaLoader) : SchemaLoader :=
  { l with sources := .empty, constraintSets := .empty, grammars := .empty }

theorem source_of_unknown (h : l.registry.resolve identifier = .error e) :
    l.source fs identifier = (.error e, l) := by
  rw [source, h]

theorem source_of_known (h : l.registry.resolve identifier = .ok path) :
    l.source fs identifier =
      ((l.sources.getOrLoad identifier fun _ => readSource fs identifier path).answer,
        { l with
          sources := (l.sources.getOrLoad identifier fun _ => readSource fs identifier path).cache })
      := by
  rw [source, h]

/-- A text that is kept is answered with whatever the files are. -/
theorem source_of_kept {found : SchemaSource} (hpath : l.registry.resolve identifier = .ok path)
    (h : l.sources.get? identifier = some found) (fs : FileSystem) :
    (l.source fs identifier).1 = .ok found := by
  rw [source_of_known hpath, Cache.getOrLoad_of_some h]

theorem source_sources_get?_eq_some {found : SchemaSource}
    (h : (l.source fs identifier).1 = .ok found) :
    (l.source fs identifier).2.sources.get? identifier = some found := by
  cases hpath : l.registry.resolve identifier with
  | error e =>
    rw [source_of_unknown hpath] at h
    cases h
  | ok path =>
    rw [source_of_known hpath] at h ⊢
    exact Cache.get?_eq_some_iff_answer.mpr h

/-- Where no constraints are kept, the answer is read from the text. -/
theorem constraints_of_text {found : SchemaSource} (h : (l.source fs identifier).1 = .ok found)
    (hset : l.constraintSets.get? identifier = none) :
    (l.constraints fs identifier).1 = found.constraints := by
  rw [constraints_of_source h]
  exact Cache.getOrLoad_of_none hset found.failsKept_constraints

theorem constraints_of_source_error (h : (l.source fs identifier).1 = .error e) :
    l.constraints fs identifier = (.error e, (l.source fs identifier).2) := by
  rw [constraints]
  generalize l.source fs identifier = asked at h
  obtain ⟨answer, next⟩ := asked
  obtain rfl : answer = .error e := h
  rfl

theorem grammar_of_unknown (h : l.registry.resolve identifier = .error e) :
    l.grammar fs identifier = (.error e, l) := by
  rw [grammar, h]

theorem grammar_of_missing (h : l.registry.resolve identifier = .ok path)
    (hmissing : fs.pathExists path = false) :
    l.grammar fs identifier = (.error (missing identifier path), l) := by
  rw [grammar, h]
  simp only [hmissing, Bool.not_false, if_true]

theorem grammar_of_known (h : l.registry.resolve identifier = .ok path)
    (hexists : fs.pathExists path = true) :
    l.grammar fs identifier = ((l.grammars.getOrLoad identifier fun _ => l.compile path).answer,
      { l with grammars := (l.grammars.getOrLoad identifier fun _ => l.compile path).cache }) := by
  rw [grammar, h]
  simp only [hexists, Bool.not_true, Bool.false_eq_true, if_false]

theorem source_frame (l : SchemaLoader) (fs : FileSystem) (identifier : String) :
    (l.source fs identifier).2 = { l with sources := (l.source fs identifier).2.sources } := by
  cases h : l.registry.resolve identifier with
  | error e => rw [source_of_unknown h]
  | ok path => rw [source_of_known h]

theorem constraints_frame (l : SchemaLoader) (fs : FileSystem) (identifier : String) :
    (l.constraints fs identifier).2 =
      { l with
        sources := (l.source fs identifier).2.sources
        constraintSets := (l.constraints fs identifier).2.constraintSets } := by
  cases h : (l.source fs identifier).1 with
  | error e =>
    rw [constraints_of_source_error h, source_frame]
  | ok found =>
    rw [constraints_of_source h, source_frame]

theorem constraints_registry (l : SchemaLoader) (fs : FileSystem) (identifier : String) :
    (l.constraints fs identifier).2.registry = l.registry := by
  have h := congrArg SchemaLoader.registry (l.constraints_frame fs identifier)
  exact h

theorem constraints_sources (l : SchemaLoader) (fs : FileSystem) (identifier : String) :
    (l.constraints fs identifier).2.sources = (l.source fs identifier).2.sources := by
  have h := congrArg SchemaLoader.sources (l.constraints_frame fs identifier)
  exact h

/-- Two loaders know the same of a schema. -/
structure SameFor (l l' : SchemaLoader) (identifier : String) : Prop where
  registry_eq : l.registry = l'.registry
  source_eq : l.sources.get? identifier = l'.sources.get? identifier
  constraintSet_eq : l.constraintSets.get? identifier = l'.constraintSets.get? identifier

theorem SameFor.source (h : l.SameFor l' identifier) (fs : FileSystem) :
    (l.source fs identifier).1 = (l'.source fs identifier).1 ∧
      (l.source fs identifier).2.sources.get? identifier =
        (l'.source fs identifier).2.sources.get? identifier := by
  cases hpath : l.registry.resolve identifier with
  | error e =>
    rw [source_of_unknown hpath, source_of_unknown (h.registry_eq ▸ hpath)]
    exact ⟨rfl, h.source_eq⟩
  | ok path =>
    rw [source_of_known hpath, source_of_known (h.registry_eq ▸ hpath)]
    exact Cache.getOrLoad_congr h.source_eq

/-- They answer the same when they are asked for its constraints, and know the same then. -/
theorem SameFor.constraints (h : l.SameFor l' identifier) (fs : FileSystem) :
    (l.constraints fs identifier).1 = (l'.constraints fs identifier).1 ∧
      (l.constraints fs identifier).2.SameFor (l'.constraints fs identifier).2 identifier := by
  obtain ⟨hanswer, hsources⟩ := h.source fs
  have hsets : (l.constraints fs identifier).1 = (l'.constraints fs identifier).1 ∧
      (l.constraints fs identifier).2.constraintSets.get? identifier =
        (l'.constraints fs identifier).2.constraintSets.get? identifier := by
    cases hfound : (l.source fs identifier).1 with
    | error e =>
      rw [constraints_of_source_error hfound, constraints_of_source_error (hanswer ▸ hfound)]
      rw [source_constraintSets, source_constraintSets]
      exact ⟨rfl, h.constraintSet_eq⟩
    | ok found =>
      rw [constraints_of_source hfound, constraints_of_source (hanswer ▸ hfound)]
      exact Cache.getOrLoad_congr h.constraintSet_eq
  refine ⟨hsets.1, ?_, ?_, hsets.2⟩
  · rw [constraints_registry, constraints_registry]
    exact h.registry_eq
  · rw [constraints_sources, constraints_sources]
    exact hsources

end SchemaLoader

end TransitAudit
