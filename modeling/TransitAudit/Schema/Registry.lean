import TransitAudit.Error
import TransitAudit.Files.PathName

/-!
Identifiers of schemas and the files that they stand for. Paths are relative to one directory.
-/

namespace TransitAudit

/-- The identifier that is used when none is chosen. -/
def defaultSchema : String := "netex@1.2"

structure SchemaRegistry where
  directory : String
  versions : List (String × String)
deriving DecidableEq, Repr

namespace SchemaRegistry

/-- The identifiers that are always known, in order. -/
def builtInVersions : List (String × String) :=
  [("epip@1.1.1", "epip/1.1.1/NeTEx_publication_EPIP.xsd"),
    ("epip@1.1.1-nc", "epip/1.1.1/NeTEx_publication_EPIP-NoConstraint.xsd"),
    ("netex@1.2", "netex/1.2/NeTEx_publication.xsd"),
    ("netex@1.2-nc", "netex/1.2/NeTEx_publication-NoConstraint.xsd")]

def ofDirectory (directory : String) : SchemaRegistry :=
  ⟨directory, builtInVersions⟩

/-- Puts an entry into a list that is ordered by keys, in place of one with the same key. -/
def insertOrdered (key value : String) : List (String × String) → List (String × String)
  | [] => [(key, value)]
  | (k, v) :: rest =>
    if key = k then (key, value) :: rest
    else if key < k then (key, value) :: (k, v) :: rest
    else (k, v) :: insertOrdered key value rest

/-- Adds an identifier or gives it another path. -/
def withVersion (r : SchemaRegistry) (identifier path : String) : SchemaRegistry :=
  { r with versions := insertOrdered identifier path r.versions }

/-- The identifiers in order. -/
def identifiers (r : SchemaRegistry) : List String :=
  r.versions.map (·.1)

/-- The file that an identifier stands for. -/
def resolve (r : SchemaRegistry) (identifier : String) : Except AuditError String :=
  match r.versions.lookup identifier with
  | some path => .ok (PathName.join r.directory path)
  | none => .error (.schemaNotFound identifier)

end SchemaRegistry

end TransitAudit
