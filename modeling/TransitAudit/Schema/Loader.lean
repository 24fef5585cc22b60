import TransitAudit.Constraint.Schema
import TransitAudit.Files.Resolve
import TransitAudit.Schema.Cache
import TransitAudit.Schema.Grammar
import TransitAudit.Schema.Registry

/-!
Loading schemas by identifier: their text, their constraints and their compiled grammars. All are
kept, so that the documents of a run share them; what failed to load is tried again the next time.
-/

namespace TransitAudit

/-- What has been loaded so far, and how a file is compiled to a grammar. -/
structure SchemaLoader where
  registry : SchemaRegistry
  compile : String → Except AuditError Grammar
  sources : Cache SchemaSource
  constraintSets : Cache ConstraintSet
  grammars : Cache Grammar

namespace SchemaLoader

/-- A checker that has no compiler for grammars. -/
def noCompiler (path : String) : Except AuditError Grammar :=
  .error (GrammarFault.schema path "schema could not be compiled").toAuditError

def ofRegistry (registry : SchemaRegistry) : SchemaLoader :=
  ⟨registry, noCompiler, .empty, .empty, .empty⟩

/-- A schema that is known but whose file is missing. -/
def missing (identifier path : String) : AuditError :=
  .schemaNotFound s!"{identifier} ({path})"

/-- Reads the file of a schema. -/
def readSource (fs : FileSystem) (identifier path : String) : Except AuditError SchemaSource :=
  match fs.readText path with
  | .ok text => .ok ⟨identifier, path, text⟩
  | .error .notFound => .error (missing identifier path)
  | .error e => .error (.io e.message)

/-- The text of a schema. -/
def source (l : SchemaLoader) (fs : FileSystem) (identifier : String) :
    Except AuditError SchemaSource × SchemaLoader :=
  match l.registry.resolve identifier with
  | .error e => (.error e, l)
  | .ok path =>
    let a := l.sources.getOrLoad identifier fun _ => readSource fs identifier path
    (a.answer, { l with sources := a.cache })

/-- The constraints of a schema. -/
def constraints (l : SchemaLoader) (fs : FileSystem) (identifier : String) :
    Except AuditError ConstraintSet × SchemaLoader :=
  match l.source fs identifier with
  | (.error e, l) => (.error e, l)
  | (.ok source, l) =>
    let a := l.constraintSets.getOrLoad identifier fun _ => source.constraints
    (a.answer, { l with constraintSets := a.cache })

/-- The compiled grammar of a schema, whose file has to be there each time. -/
def grammar (l : SchemaLoader) (fs : FileSystem) (identifier : String) :
    Except AuditError Grammar × SchemaLoader :=
  match l.registry.resolve identifier with
  | .error e => (.error e, l)
  | .ok path =>
    if !fs.pathExists path then (.error (missing identifier path), l)
    else
      let a := l.grammars.getOrLoad identifier fun _ => l.compile path
      (a.answer, { l with grammars := a.cache })

/-- What a loader may have become by itself: its caches drop entries. -/
structure Drops (l m : SchemaLoader) : Prop where
  registry_eq : m.registry = l.registry
  compile_eq : m.compile = l.compile
  sources : l.sources.Drops m.sources
  constraintSets : l.constraintSets.Drops m.constraintSets
  grammars : l.grammars.Drops m.grammars

end SchemaLoader

end TransitAudit
