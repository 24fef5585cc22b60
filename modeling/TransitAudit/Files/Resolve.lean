import TransitAudit.Files.PathName
import TransitAudit.Files.Tree

/-!
Finding the entry that a path leads to, and reading it. Relative paths start from the working
directory. Links are followed.
-/

namespace TransitAudit

/-- Failures of reaching or reading a file. -/
inductive FileFault where
  | notFound
  | notDirectory
  | isDirectory
  | nameTooLong
  | tooManyLinks
  | nulInName
  | notText
deriving DecidableEq, Repr

namespace FileFault

def message : FileFault → String
  | notFound => "No such file or directory (os error 2)"
  | notDirectory => "Not a directory (os error 20)"
  | isDirectory => "Is a directory (os error 21)"
  | nameTooLong => "File name too long (os error 36)"
  | tooManyLinks => "Too many levels of symbolic links (os error 40)"
  | nulInName => "file name contained an unexpected NUL byte"
  | notText => "stream did not contain valid UTF-8"

end FileFault

/-- An entry together with the names that lead to it without passing a link. -/
structure FoundEntry where
  location : List String
  entry : FileEntry

namespace FileSystem

/-- Sizes in bytes of the longest path and the longest name. -/
def longestPath : Nat := 4095

def longestName : Nat := 255

/-- The number of links that may be passed on the way. -/
def linkLimit : Nat := 40

/-- The entry that names lead to without passing links. -/
def place (fs : FileSystem) (location : List String) : Except FileFault FoundEntry :=
  match fs.root.at? location with
  | some e => .ok ⟨location, e⟩
  | none => .error .notFound

/-- Where a path starts when it is met in a directory. -/
def start (fs : FileSystem) (here : FoundEntry) (path : String) : FoundEntry :=
  if PathName.isAbsolute path then ⟨[], fs.root⟩ else here

/-- Walks from a place in the tree along segments of a path. An empty segment or a dot stays where
it is, and like every other needs a directory to start from; two dots at the root stay there. -/
def follow (fs : FileSystem) (links : Nat) (here : FoundEntry) (segments : List String) :
    Except FileFault FoundEntry :=
  match segments with
  | [] => .ok here
  | s :: rest =>
    if !here.entry.isDirectory then .error .notDirectory
    else if s = "" || s = "." then follow fs links here rest
    else if s = ".." then
      match fs.place here.location.dropLast with
      | .ok above => follow fs links above rest
      | .error e => .error e
    else if longestName < s.utf8ByteSize then .error .nameTooLong
    else match here.entry.child? s with
      | none => .error .notFound
      | some (.link target) =>
        match links with
        | 0 => .error .tooManyLinks
        | links + 1 =>
          follow fs links (fs.start here target) (PathName.segments target ++ rest)
      | some e => follow fs links ⟨here.location ++ [s], e⟩ rest
termination_by (links, segments.length)

/-- The entry that a path leads to. -/
def resolve (fs : FileSystem) (path : String) : Except FileFault FoundEntry :=
  if '\x00' ∈ path.toList then .error .nulInName
  else if path = "" then .error .notFound
  else if longestPath < path.utf8ByteSize then .error .nameTooLong
  else match fs.place fs.working with
    | .ok here => fs.follow linkLimit (fs.start here path) (PathName.segments path)
    | .error e => .error e

/-- Some file or directory is at the path. -/
def pathExists (fs : FileSystem) (path : String) : Bool :=
  (fs.resolve path).isOk

/-- The text of the file at a path. -/
def readText (fs : FileSystem) (path : String) : Except FileFault String := do
  match (← fs.resolve path).entry with
  | .file contents =>
    match String.fromUTF8? contents with
    | some text => .ok text
    | none => .error .notText
  | .directory _ => .error .isDirectory
  | .link _ => .error .notFound

end FileSystem

end TransitAudit
