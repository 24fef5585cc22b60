import TransitAudit.Proofs.Constraint.Extraction
import TransitAudit.Schema.Loader

/-! Loaders that hold a schema. Such a loader answers with the constraints of the schema, or with
the failure to read them: a cache tells none of these failures in another way. -/
namespace TransitAudit

/-! Failures that a cache leaves as they are -/

/-- Failures that speak of a schema or of its paths. -/
def AuditError.Kept (e : AuditError) : Prop :=
  ∀ identifier, Cache.failure identifier e = e

/-- Computations all of whose failures are kept. -/
def FailsKept {α : Type} (x : Except AuditError α) : Prop :=
  ∀ e, x = .error e → e.Kept

theorem FailsKept.bind {α β : Type} {x : Except AuditError α} {f : α → Except AuditError β}
    (hx : FailsKept x) (hf : ∀ a, FailsKept (f a)) : FailsKept (x >>= f) := by
  intro e he
  rcases bind_eq_error_iff.mp he with h | ⟨a, -, h⟩
  · exact hx e h
  · exact hf a e h

/-- All that keeps the constraints of a schema from being read is a malformed declaration. -/
theorem failsKept_extract (n : Node) : FailsKept (ConstraintSet.extract n) := by
  intro e he
  obtain ⟨_, _, _, _, _, -, -, -, rfl⟩ := ConstraintSet.extract_eq_error_iff.mp he
  exact fun _ => rfl

theorem SchemaSource.failsKept_constraints (s : SchemaSource) : FailsKept s.constraints := by
  have hparse : FailsKept s.parse := by
    intro e he
    rw [SchemaSource.parse, Source.parse] at he
    cases h : Xml.parse (Source.ofText s.identifier s.text).text with
    | ok tree =>
      rw [h] at he
      cases he
    | error fault =>
      rw [h] at he
      cases he
      exact fun _ => rfl
  exact hparse.bind fun d => failsKept_extract d.rootNode

/-! Asking a cache -/

namespace Cache

variable {α : Type}

theorem getOrLoad_of_some {c : Cache α} {identifier : String} {value : α}
    (h : c.get? identifier = some value) (load : Unit → Except AuditError α) :
    c.getOrLoad identifier load = ⟨.ok value, false, c⟩ := by
  rw [getOrLoad_eq, h]

theorem getOrLoad_of_none {c : Cache α} {identifier : String} (h : c.get? identifier = none)
    {load : Unit → Except AuditError α} (hk : FailsKept (load ())) :
    (c.getOrLoad identifier load).answer = load () := by
  rw [getOrLoad_eq, h]
  cases hl : load () with
  | ok value => rfl
  | error e => exact congrArg Except.error (hk e hl identifier)

/-- What is kept for an identifier after asking was kept before or has been loaded for it. -/
theorem get?_getOrLoad {c : Cache α} {identifier other : String} {load : Unit → Except AuditError α}
    {value : α} (h : (c.getOrLoad other load).cache.get? identifier = some value) :
    c.get? identifier = some value ∨ identifier = other ∧ load () = .ok value := by
  rw [getOrLoad_eq] at h
  split at h
  · exact .inl h
  · split at h
    · rename_i loaded hl
      rw [insert, get?, List.lookup_cons] at h
      by_cases he : identifier = other
      · rw [he, beq_self_eq_true] at h
        obtain rfl : loaded = value := Option.some.inj h
        exact .inr ⟨he, hl⟩
      · rw [beq_eq_false_iff_ne.mpr he] at h
        exact .inl h
    · exact .inl h

/-- What is kept stays. -/
theorem get?_getOrLoad_of_some {c : Cache α} {identifier : String} {value : α}
    (h : c.get? identifier = some value) (other : String) (load : Unit → Except AuditError α) :
    (c.getOrLoad other load).cache.get? identifier = some value := by
  simp only [getOrLoad_eq]
  split
  · exact h
  · rename_i hnone
    split
    · have hne : identifier ≠ other := by
        intro he
        rw [he, hnone] at h
        cases h
      rw [insert, get?, List.lookup_cons, beq_eq_false_iff_ne.mpr hne]
      exact h
    · exact h

end Cache

namespace SchemaLoader

/-- Asked for the schema, the loader gives its text, and if constraints are kept for it they are
its own. -/
structure Holds (l : SchemaLoader) (fs : FileSystem) (schema : SchemaSource) : Prop where
  answers : ∃ path, (l.source fs schema.identifier).1 = .ok { schema with path }
  kept : ∀ s, l.constraintSets.get? schema.identifier = some s → schema.constraints = .ok s

/-- A loader that has not been asked before holds the schema whose file is there. -/
theorem Holds.of_file {l : SchemaLoader} {fs : FileSystem} {identifier path text : String}
    (hpath : l.registry.resolve identifier = .ok path) (htext : fs.readText path = .ok text)
    (hsource : l.sources.get? identifier = none)
    (hset : l.constraintSets.get? identifier = none) : l.Holds fs ⟨identifier, path, text⟩ := by
  constructor
  · refine ⟨path, ?_⟩
    rw [source, hpath]
    dsimp only
    rw [Cache.getOrLoad_eq, hsource, readSource, htext]
  · intro s hs
    rw [hset] at hs
    cases hs

theorem source_constraintSets (l : SchemaLoader) (fs : FileSystem) (identifier : String) :
    (l.source fs identifier).2.constraintSets = l.constraintSets := by
  unfold source
  split <;> rfl

/-- Once the text is there, the constraints are asked of the cache. -/
theorem constraints_of_source {l : SchemaLoader} {fs : FileSystem} {identifier : String}
    {found : SchemaSource} (h : (l.source fs identifier).1 = .ok found) :
    l.constraints fs identifier =
      ((l.constraintSets.getOrLoad identifier fun _ => found.constraints).answer,
        { (l.source fs identifier).2 with
          constraintSets :=
            (l.constraintSets.getOrLoad identifier fun _ => found.constraints).cache }) := by
  have hsets := l.source_constraintSets fs identifier
  rw [constraints]
  generalize l.source fs identifier = asked at h hsets
  obtain ⟨answer, next⟩ := asked
  obtain rfl : answer = .ok found := h
  dsimp only at hsets ⊢
  rw [hsets]

/-- The constraints that the loader answers with, or the failure, are those of the schema. -/
theorem Holds.constraints_eq {l : SchemaLoader} {fs : FileSystem} {schema : SchemaSource}
    (hl : l.Holds fs schema) : (l.constraints fs schema.identifier).1 = schema.constraints := by
  obtain ⟨path, hsource⟩ := hl.answers
  rw [constraints_of_source hsource]
  cases hget : l.constraintSets.get? schema.identifier with
  | some s => rw [Cache.getOrLoad_of_some hget, hl.kept s hget]
  | none => exact Cache.getOrLoad_of_none hget (SchemaSource.failsKept_constraints _)

end SchemaLoader

end TransitAudit
