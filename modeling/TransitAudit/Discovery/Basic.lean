import TransitAudit.Error
import TransitAudit.Files.PathName
import TransitAudit.Glob.Selection
import TransitAudit.Text.Lowercase

/-!
What to look for under a path: the extensions of documents, patterns for paths, how deep to go and
whether to follow links.
-/

namespace TransitAudit

/-- How documents are found. Extensions are in lower case and without the dot; the depth counts
directories below the root as a 64-bit number. -/
structure Discovery where
  extensions : List String
  includePatterns : List String
  excludePatterns : List String
  maxDepth : Option UInt64
  followLinks : Bool
deriving DecidableEq, Repr

namespace Discovery

def default : Discovery :=
  ⟨["xml"], [], [], none, false⟩

/-- An extension as it is compared: without leading dots and in lower case. -/
def normalExtension (extension : String) : String :=
  Text.lowercase (String.ofList (extension.toList.dropWhile (· = '.')))

def withExtensions (d : Discovery) (extensions : List String) : Discovery :=
  { d with extensions := extensions.map normalExtension }

/-- Every pattern can be read. -/
def checkPatterns : List String → Except AuditError Unit
  | [] => .ok ()
  | p :: ps =>
    match SelectionLine.read? p with
    | .ok _ => checkPatterns ps
    | .error e => .error (.config s!"Invalid glob pattern '{p}': {e.message}")

/-- Only files that match one of the patterns are found. -/
def withIncludePatterns (d : Discovery) (patterns : List String) : Except AuditError Discovery := do
  checkPatterns patterns
  return { d with includePatterns := patterns }

/-- Files that match one of the patterns are not found. -/
def withExcludePatterns (d : Discovery) (patterns : List String) : Except AuditError Discovery := do
  checkPatterns patterns
  return { d with excludePatterns := patterns }

def withMaxDepth (d : Discovery) (depth : Option UInt64) : Discovery :=
  { d with maxDepth := depth }

def withFollowLinks (d : Discovery) (follow : Bool) : Discovery :=
  { d with followLinks := follow }

/-- The name ends in one of the extensions, in any case. -/
def hasExtension (d : Discovery) (path : String) : Bool :=
  match PathName.extension? path with
  | some e => d.extensions.contains (Text.lowercase e)
  | none => false

/-- Adds patterns, each with the given mark before it. -/
def addPatterns (mark : String) (s : Selection) : List String → Except AuditError Selection
  | [] => .ok s
  | p :: ps =>
    match s.add (mark ++ p) with
    | .ok s => addPatterns mark s ps
    | .error e => .error (.traversal s.root s!"invalid glob pattern '{p}': {e.message}")

/-- The patterns as a selection below a root. What is to be left out comes last and so decides. -/
def selection (d : Discovery) (root : String) : Except AuditError Selection := do
  addPatterns "!" (← addPatterns "" ⟨root, []⟩ d.includePatterns) d.excludePatterns

end Discovery

end TransitAudit
