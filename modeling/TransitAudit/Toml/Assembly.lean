import TransitAudit.Toml.Value

/-!
Putting the statements of a document together. Nothing can be defined twice: a header opens a table
once, a key with dots only extends tables that such keys have made, and values stay as they are.
-/

namespace TransitAudit.Toml

abbrev Entries := List (String × Entry)

/-- Sets an entry, in its old place if the key is there already. -/
def setEntry (key : String) (e : Entry) : Entries → Entries
  | [] => [(key, e)]
  | (k, old) :: rest => if k = key then (k, e) :: rest else (k, old) :: setEntry key e rest

/-- Assigns below a table, following a key with dots. `mayEnd` holds where the last part of the
key may stand. -/
def assignBelow (v : Value) (mayEnd : Bool) (entries : Entries) : List String → Except Fault Entries
  | [] => .error .malformed
  | [key] =>
    if mayEnd && (entries.lookup key).isNone then .ok (setEntry key (.value v) entries)
    else .error .defined
  | key :: path =>
    match entries.lookup key with
    | none => do return setEntry key (.table .dotted (← assignBelow v true [] path)) entries
    | some (.table .dotted es) => do
      return setEntry key (.table .dotted (← assignBelow v true es path)) entries
    | some (.table .passed es) => do
      return setEntry key (.table .passed (← assignBelow v false es path)) entries
    | some (.tables latest earlier) => do
      return setEntry key (.tables (← assignBelow v false latest path) earlier) entries
    | _ => .error .defined

/-- Assigns a key in a table. -/
def assign (path : List String) (v : Value) (entries : Entries) : Except Fault Entries :=
  assignBelow v true entries path

/-- Changes the table that the tables of a header's path lead to; tables on the way are made. -/
def within (last : Entries → String → Except Fault Entries) (entries : Entries) :
    List String → Except Fault Entries
  | [] => .error .malformed
  | [key] => last entries key
  | key :: path =>
    match entries.lookup key with
    | none => do return setEntry key (.table .passed (← within last [] path)) entries
    | some (.table origin es) => do
      return setEntry key (.table origin (← within last es path)) entries
    | some (.tables latest earlier) => do
      return setEntry key (.tables (← within last latest path) earlier) entries
    | some (.value _) => .error .defined

/-- Opens a table, which may have been passed by other headers before. -/
def openTable (entries : Entries) (key : String) : Except Fault Entries :=
  match entries.lookup key with
  | none => .ok (setEntry key (.table .header []) entries)
  | some (.table .passed es) => .ok (setEntry key (.table .header es) entries)
  | _ => .error .defined

/-- Opens the next table of a list. -/
def openNext (entries : Entries) (key : String) : Except Fault Entries :=
  match entries.lookup key with
  | none => .ok (setEntry key (.tables [] []) entries)
  | some (.tables latest earlier) => .ok (setEntry key (.tables [] (latest :: earlier)) entries)
  | _ => .error .defined

/-- Changes the table that was opened last. -/
def inOpened (change : Entries → Except Fault Entries) (entries : Entries) (key : String) :
    Except Fault Entries :=
  match entries.lookup key with
  | some (.table origin es) => do return setEntry key (.table origin (← change es)) entries
  | some (.tables latest earlier) => do
    return setEntry key (.tables (← change latest) earlier) entries
  | _ => .error .malformed

/-- Takes a statement; `opened` is the path of the last header, empty before the first. -/
def take (opened : List String) (entries : Entries) :
    Statement → Except Fault (List String × Entries)
  | .header path => do return (path, ← within openTable entries path)
  | .listHeader path => do return (path, ← within openNext entries path)
  | .assignment path v => do
    if opened.isEmpty then return (opened, ← assign path v entries)
    return (opened, ← within (inOpened (assign path v)) entries opened)

def takeAll (opened : List String) (entries : Entries) : List Statement → Except Fault Entries
  | [] => .ok entries
  | s :: rest => do
    let (opened, entries) ← take opened entries s
    takeAll opened entries rest

mutual

def Entry.toValue : Entry → Value
  | .value v => v
  | .table _ es => .table (entryValues es)
  | .tables latest earlier =>
    .array ((Value.table (entryValues latest) :: tableValues earlier).reverse)

def entryValues : Entries → List (String × Value)
  | [] => []
  | (key, e) :: rest => (key, e.toValue) :: entryValues rest

def tableValues : List Entries → List Value
  | [] => []
  | es :: rest => .table (entryValues es) :: tableValues rest

end

/-- The table that the statements of a document define. -/
def assemble (statements : List Statement) : Except Fault (List (String × Value)) :=
  (takeAll [] [] statements).map entryValues

end TransitAudit.Toml
