import TransitAudit.Text.Trim

/-!
Path names of files as texts: joining them, taking them apart, and their order. A path name is kept
as it was written; only its parts are compared.
-/

namespace TransitAudit

/-- A part of a path name. -/
inductive PathPart where
  | root
  | current
  | parent
  | name (text : String)
deriving DecidableEq, Repr

namespace PathPart

/-- The order of the kinds: the root comes first and a name last. -/
def rank : PathPart → Nat
  | root => 0
  | current => 1
  | parent => 2
  | name _ => 3

def text : PathPart → String
  | root => "/"
  | current => "."
  | parent => ".."
  | name t => t

def le (a b : PathPart) : Bool :=
  a.rank < b.rank || (a.rank == b.rank && a.text ≤ b.text)

end PathPart

namespace PathName

def isAbsolute (path : String) : Bool :=
  path.toList.head? = some '/'

/-- Appends a path to a directory; an absolute path stands for itself. -/
def join (directory path : String) : String :=
  if isAbsolute path then path
  else if directory.isEmpty || directory.toList.getLast? = some '/' then directory ++ path
  else directory ++ "/" ++ path

/-- What stands between the slashes of a path. -/
def segments (path : String) : List String :=
  (Text.splitAt '/' path.toList).map String.ofList

/-- The part that a segment stands for; empty segments and dots stand for none. -/
def partOf? (segment : String) : Option PathPart :=
  if segment = "" || segment = "." then none
  else if segment = ".." then some .parent
  else some (.name segment)

/-- The parts of a path. A dot counts only where it begins a relative path. -/
def parts (path : String) : List PathPart :=
  let named := (segments path).filterMap partOf?
  if isAbsolute path then .root :: named
  else if (segments path).head? = some "." then .current :: named
  else named

/-- The name of the file or directory, unless the path ends in `..` or names none. -/
def name? (path : String) : Option String :=
  match (parts path).getLast? with
  | some (.name n) => some n
  | _ => none

/-- What follows the last dot of a name. A dot that begins the name does not count. -/
def extensionOf? (name : List Char) : Option (List Char) :=
  if '.' ∈ name.tail then some (Text.afterLast '.' name) else none

def extension? (path : String) : Option String :=
  (name? path).bind fun n => (extensionOf? n.toList).map String.ofList

/-- Compares part by part; a path comes before the paths inside it. -/
def partsLe : List PathPart → List PathPart → Bool
  | [], _ => true
  | _ :: _, [] => false
  | a :: as, b :: bs => if a = b then partsLe as bs else a.le b

def le (a b : String) : Bool :=
  partsLe (parts a) (parts b)

/-- Orders paths by their parts. -/
def sorted (paths : List String) : List String :=
  paths.mergeSort le

end PathName

end TransitAudit
