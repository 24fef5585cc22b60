import TransitAudit.Files.PathName
import TransitAudit.Glob.Match
import TransitAudit.Glob.Read

/-!
Selecting paths below a root by patterns. Each pattern is a line that may be negated, bound to the
root by a slash, or meant for directories only; of the lines that match a path the last decides.
-/

namespace TransitAudit

/-- A pattern that takes part in a selection. -/
structure SelectionLine where
  glob : Glob
  negated : Bool
  directoriesOnly : Bool

/-- A pattern that cannot be read, as it was written, and what is wrong with it. -/
structure SelectionFault where
  line : String
  fault : GlobFault
deriving DecidableEq, Repr

def SelectionFault.message (f : SelectionFault) : String :=
  s!"error parsing glob '{f.line}': {f.fault.message}"

namespace SelectionLine

/-- Takes white space off the end, unless the last blank is escaped. -/
def withoutBlankEnd (line : List Char) : List Char :=
  if ['\\', ' '].isSuffixOf line then line else Text.trimEnd line

/-- Takes a slash off the end together with a backslash before it; tells whether there was one. -/
def withoutSlashEnd (line : List Char) : List Char × Bool :=
  match line.reverse with
  | '/' :: '\\' :: rest => (rest.reverse, true)
  | '/' :: rest => (rest.reverse, true)
  | _ => (line, false)

/-- The pattern for the path of a file, for a line that is bound to the root or not. A name
without a slash matches in every directory, and what ends in two stars matches only what is inside
a directory. -/
def pathPattern (bound : Bool) (line : List Char) : List Char :=
  let anywhere := !bound && !line.contains '/' && line ≠ ['*', '*']
  let line := if anywhere then ['*', '*', '/'] ++ line else line
  if ['/', '*', '*'].isSuffixOf line then line ++ ['/', '*'] else line

/-- Reads the rest of a line after its marks. -/
def readMarked (written : List Char) (negated bound : Bool) (line : List Char) :
    Except SelectionFault SelectionLine :=
  let (name, directoriesOnly) := withoutSlashEnd line
  match Glob.read (String.ofList (pathPattern bound name)) with
  | .ok glob => .ok ⟨glob, negated, directoriesOnly⟩
  | .error fault => .error ⟨String.ofList written, fault⟩

/-- Reads a line. A comment or a blank line holds no pattern. -/
def read? (text : String) : Except SelectionFault (Option SelectionLine) :=
  if text.toList.head? = some '#' then .ok none
  else
    let line := withoutBlankEnd text.toList
    match line with
    | [] => .ok none
    | '\\' :: '!' :: rest => (readMarked line false false ('!' :: rest)).map some
    | '\\' :: '#' :: rest => (readMarked line false false ('#' :: rest)).map some
    | '!' :: '/' :: rest => (readMarked line true true rest).map some
    | '!' :: rest => (readMarked line true false rest).map some
    | '/' :: rest => (readMarked line false true rest).map some
    | rest => (readMarked line false false rest).map some

end SelectionLine

/-- The lines that select paths below a root. -/
structure Selection where
  root : String
  lines : List SelectionLine

namespace Selection

/-- A leading dot with a slash says nothing. -/
def withoutDot (path : List Char) : List Char :=
  (Text.dropLeading? ['.', '/'] path).getD path

/-- Adds the line of a text at the end. -/
def add (s : Selection) (text : String) : Except SelectionFault Selection := do
  match ← SelectionLine.read? text with
  | some line => return { s with lines := s.lines ++ [line] }
  | none => return s

/-- A path as the patterns see it: below the root. A bare name is not cut. -/
def belowRoot (s : Selection) (path : List Char) : List Char :=
  let path := withoutDot path
  let root := withoutDot s.root.toList
  if PathName.parts (String.ofList root) = [.current] || !path.contains '/' then path
  else match Text.dropLeading? root path with
    | some ('/' :: rest) => rest
    | some rest => rest
    | none => path

/-- The last line that matches a path. -/
def deciding? (s : Selection) (path : String) (isDirectory : Bool) : Option SelectionLine :=
  let seen := String.ofList (s.belowRoot (withoutDot path.toList))
  s.lines.reverse.find? fun l => (!l.directoriesOnly || isDirectory) && l.glob.accepts seen

/-- The path is left out: its last matching line is negated, or no line matches a file although
some line asks for files. -/
def leavesOut (s : Selection) (path : String) (isDirectory : Bool) : Bool :=
  match s.deciding? path isDirectory with
  | some line => line.negated
  | none => !isDirectory && s.lines.any (!·.negated)

end Selection

end TransitAudit
