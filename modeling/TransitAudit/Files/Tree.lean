/-!
A tree of files: what a directory holds by name. Writing and removing entries gives a new tree.
Paths are looked up in a tree with a working directory.
-/

namespace TransitAudit

/-- What a name in a directory stands for. -/
inductive FileEntry where
  | file (contents : ByteArray)
  | link (target : String)
  | directory (entries : List (String × FileEntry))

namespace FileEntry

/-- The entries of a directory; anything else has none. -/
def entries : FileEntry → List (String × FileEntry)
  | directory es => es
  | file _ => []
  | link _ => []

def isDirectory : FileEntry → Bool
  | directory _ => true
  | file _ => false
  | link _ => false

def ofText (text : String) : FileEntry :=
  .file text.toUTF8

def child? (e : FileEntry) (name : String) : Option FileEntry :=
  e.entries.lookup name

/-- The entry that a list of names leads to. -/
def at? (e : FileEntry) : List String → Option FileEntry
  | [] => some e
  | name :: names => (e.child? name).bind (·.at? names)

/-- Puts an entry under a name, in place of the one that was there. -/
def set (entries : List (String × FileEntry)) (name : String) (e : FileEntry) :
    List (String × FileEntry) :=
  match entries with
  | [] => [(name, e)]
  | (n, old) :: rest => if n = name then (n, e) :: rest else (n, old) :: set rest name e

/-- Puts an entry where a list of names leads to; the directories on the way are made. -/
def insert (e : FileEntry) (new : FileEntry) : List String → FileEntry
  | [] => new
  | name :: names =>
    .directory (set e.entries name (((e.child? name).getD (.directory [])).insert new names))

/-- Makes sure that a list of names leads to a directory. -/
def makeDirectory (e : FileEntry) (names : List String) : FileEntry :=
  if ((e.at? names).map isDirectory).getD false then e else e.insert (.directory []) names

/-- Takes away the entry that a list of names leads to. -/
def remove (e : FileEntry) : List String → FileEntry
  | [] => e
  | [name] => .directory (e.entries.filter (·.1 ≠ name))
  | name :: names =>
    match e.child? name with
    | some c => .directory (set e.entries name (c.remove names))
    | none => e

mutual

/-- The number of directories in the tree, itself included. -/
def directories : FileEntry → Nat
  | directory es => directoriesIn es + 1
  | file _ => 0
  | link _ => 0

def directoriesIn : List (String × FileEntry) → Nat
  | [] => 0
  | (_, e) :: es => directories e + directoriesIn es

end

end FileEntry

/-- A tree of files and the names that lead to the directory which relative paths start from. -/
structure FileSystem where
  root : FileEntry
  working : List String

end TransitAudit
