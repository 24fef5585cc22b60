import TransitAudit.Proofs.Schema.Requests

/-! Loaders over files that do not change. Whatever such a loader has been asked before, it keeps
nothing but what a new loader answers with, and so it answers every request as a new one does, with
the same values and the same failures. -/
namespace TransitAudit

namespace Cache

variable {α : Type} {c : Cache α} {identifier : String} {answers : String → Except AuditError α}

/-- All that is kept for an identifier is the answer to it. -/
def Agrees (c : Cache α) (answers : String → Except AuditError α) : Prop :=
  ∀ identifier value, c.get? identifier = some value → answers identifier = .ok value

theorem agrees_empty : (empty : Cache α).Agrees answers := by
  intro identifier value h
  cases h

/-- A cache that agrees with the answers gives them, and agrees with them afterwards. -/
theorem Agrees.getOrLoad (h : c.Agrees answers) (load : Unit → Except AuditError α)
    (hload : answers identifier = (load ()).mapError (failure identifier)) :
    (c.getOrLoad identifier load).answer = answers identifier ∧
      (c.getOrLoad identifier load).cache.Agrees answers := by
  constructor
  · cases hkept : c.get? identifier with
    | some value => rw [getOrLoad_of_some hkept, h identifier value hkept]
    | none =>
      rw [Cache.getOrLoad_eq, hkept, hload]
      cases load () <;> rfl
  · -- what is kept now was kept before or has just been loaded
    intro other value hvalue
    rcases get?_getOrLoad hvalue with hkept | ⟨rfl, hloaded⟩
    · exact h other value hkept
    · rw [hload, hloaded]
      rfl

end Cache

namespace SchemaLoader

variable {l base : SchemaLoader} {fs : FileSystem} {identifier path : String}
  {found : SchemaSource}

/-- A loader keeps what a new loader answers with while the files stay as they are. -/
structure Reflects (l base : SchemaLoader) (fs : FileSystem) : Prop where
  registry_eq : l.registry = base.registry
  compile_eq : l.compile = base.compile
  sources : l.sources.Agrees fun identifier => (base.renewed.source fs identifier).1
  constraintSets : l.constraintSets.Agrees fun identifier =>
    (base.renewed.constraints fs identifier).1
  grammars : l.grammars.Agrees fun identifier => (base.renewed.grammar fs identifier).1

theorem reflects_renewed (base : SchemaLoader) (fs : FileSystem) : base.renewed.Reflects base fs :=
  ⟨rfl, rfl, Cache.agrees_empty, Cache.agrees_empty, Cache.agrees_empty⟩

/-! One request -/

theorem Reflects.source (h : l.Reflects base fs) (identifier : String) :
    (l.source fs identifier).1 = (base.renewed.source fs identifier).1 ∧
      (l.source fs identifier).2.Reflects base fs := by
  cases hpath : base.registry.resolve identifier with
  | error e =>
    have hnew : base.renewed.registry.resolve identifier = .error e := hpath
    rw [source_of_unknown hnew, source_of_unknown (h.registry_eq ▸ hpath)]
    exact ⟨rfl, h⟩
  | ok path =>
    have hnew : base.renewed.registry.resolve identifier = .ok path := hpath
    have hanswer : (base.renewed.source fs identifier).1 =
        (readSource fs identifier path).mapError (Cache.failure identifier) := by
      rw [source_of_known hnew]
      exact Cache.getOrLoad_empty
    obtain ⟨hasked, hkept⟩ :=
      h.sources.getOrLoad (fun _ => readSource fs identifier path) hanswer
    rw [source_of_known (h.registry_eq ▸ hpath)]
    exact ⟨hasked, h.registry_eq, h.compile_eq, hkept, h.constraintSets, h.grammars⟩

/-- The request for the constraints in the text that a new loader finds. -/
theorem Reflects.constraintSet (h : l.Reflects base fs)
    (hfound : (base.renewed.source fs identifier).1 = .ok found) :
    (l.constraintSets.getOrLoad identifier fun _ => found.constraints).answer =
        (base.renewed.constraints fs identifier).1 ∧
      { l with constraintSets :=
          (l.constraintSets.getOrLoad identifier fun _ => found.constraints).cache }.Reflects
        base fs := by
  have hanswer : (base.renewed.constraints fs identifier).1 =
      found.constraints.mapError (Cache.failure identifier) := by
    rw [constraints_of_source hfound]
    exact Cache.getOrLoad_empty
  obtain ⟨hasked, hkept⟩ := h.constraintSets.getOrLoad (fun _ => found.constraints) hanswer
  exact ⟨hasked, h.registry_eq, h.compile_eq, h.sources, hkept, h.grammars⟩

theorem Reflects.constraints (h : l.Reflects base fs) (identifier : String) :
    (l.constraints fs identifier).1 = (base.renewed.constraints fs identifier).1 ∧
      (l.constraints fs identifier).2.Reflects base fs := by
  obtain ⟨hanswer, hnext⟩ := h.source identifier
  cases hfound : (base.renewed.source fs identifier).1 with
  | error e =>
    rw [constraints_of_source_error hfound, constraints_of_source_error (hanswer.trans hfound)]
    exact ⟨rfl, hnext⟩
  | ok found =>
    obtain ⟨hset, hkept⟩ := hnext.constraintSet hfound
    rw [source_constraintSets] at hset hkept
    rw [constraints_of_source (hanswer.trans hfound)]
    exact ⟨hset, hkept⟩

theorem Reflects.grammar (h : l.Reflects base fs) (identifier : String) :
    (l.grammar fs identifier).1 = (base.renewed.grammar fs identifier).1 ∧
      (l.grammar fs identifier).2.Reflects base fs := by
  have hpaths : l.registry.resolve identifier = base.renewed.registry.resolve identifier := by
    rw [h.registry_eq]
    rfl
  cases hpath : base.renewed.registry.resolve identifier with
  | error e =>
    rw [grammar_of_unknown hpath, grammar_of_unknown (hpaths.trans hpath)]
    exact ⟨rfl, h⟩
  | ok path =>
    cases hexists : fs.pathExists path with
    | false =>
      rw [grammar_of_missing hpath hexists, grammar_of_missing (hpaths.trans hpath) hexists]
      exact ⟨rfl, h⟩
    | true =>
      have hanswer : (base.renewed.grammar fs identifier).1 =
          (base.compile path).mapError (Cache.failure identifier) := by
        rw [grammar_of_known hpath hexists]
        exact Cache.getOrLoad_empty
      obtain ⟨hasked, hkept⟩ :=
        h.grammars.getOrLoad (fun _ => base.compile path) hanswer
      rw [grammar_of_known (hpaths.trans hpath) hexists, h.compile_eq]
      exact ⟨hasked, h.registry_eq, rfl, h.sources, h.constraintSets, hkept⟩

end SchemaLoader

end TransitAudit
