import TransitAudit.Discovery.Basic
import TransitAudit.Files.Resolve

/-!
Finding documents under a path. A file that is named itself only needs an extension of a document;
below a directory patterns, depth and links count as well. The paths found begin with the path
searched, and are ordered part by part.
-/

namespace TransitAudit

/-- A search below a root. -/
structure Walk where
  discovery : Discovery
  selection : Selection
  fs : FileSystem

namespace Walk

/-- Entries so many levels below the root are looked at. -/
def reaches (w : Walk) (depth : Nat) : Bool :=
  match w.discovery.maxDepth with
  | some d => depth ≤ (d + 1).toNat
  | none => true

/-- A file is found if its name has an extension of a document and the patterns keep it. -/
def findsFile (w : Walk) (path : String) : Bool :=
  !w.selection.leavesOut path false && w.discovery.hasExtension path

mutual

/-- The documents at or below an entry at a path. `location` leads to the entry without passing
links, `above` holds the locations of the directories that the walk is in, and at most `links`
links are followed one inside the other. A link to a directory that the walk is in is not
followed. -/
def below (w : Walk) (links : Nat) (above : List (List String)) (location : List String)
    (path : String) (depth : Nat) (e : FileEntry) : List String :=
  match e with
  | .file _ => if w.findsFile path then [path] else []
  | .directory entries =>
    if w.selection.leavesOut path true then []
    else within w links (location :: above) location path depth entries
  | .link _ =>
    if !w.discovery.followLinks then []
    else match w.fs.resolve ("/" ++ Text.joined "/" location) with
      | .error _ => []
      | .ok found =>
        match found.entry, links with
        | .file _, _ => if w.findsFile path then [path] else []
        | .directory entries, links + 1 =>
          if above.contains found.location || w.selection.leavesOut path true then []
          else within w links (found.location :: above) found.location path depth entries
        | _, _ => []
termination_by (links, sizeOf e)

/-- The documents at or below the entries of a directory. -/
def within (w : Walk) (links : Nat) (above : List (List String)) (location : List String)
    (path : String) (depth : Nat) (entries : List (String × FileEntry)) : List String :=
  match entries with
  | [] => []
  | (name, e) :: rest =>
    (if w.reaches (depth + 1) then
      below w links above (location ++ [name]) (PathName.join path name) (depth + 1) e
    else []) ++ within w links above location path depth rest
termination_by (links, sizeOf entries)

end

end Walk

namespace Discovery

/-- The documents in a directory at a path. A link is followed at most once inside itself, so
there are no more links to follow than directories. -/
def walk (d : Discovery) (fs : FileSystem) (path : String) (found : FoundEntry) :
    Except AuditError (List String) := do
  let w : Walk := ⟨d, ← d.selection path, fs⟩
  return w.within fs.root.directories [found.location] found.location path 0 found.entry.entries

/-- The documents at or under a path. -/
def discover (d : Discovery) (fs : FileSystem) (path : String) : Except AuditError (List String) :=
  match fs.resolve path with
  | .error e => .error (.io e.message)
  | .ok found =>
    match found.entry with
    | .file _ => .ok (if d.hasExtension path then [path] else [])
    | _ => (d.walk fs path found).map PathName.sorted

end Discovery

end TransitAudit
