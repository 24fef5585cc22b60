/-!
Reading text from left to right. A cursor holds what is left to read and how far into the text
that is, in bytes; a reader takes something from a cursor or fails. Repetition ends when the
repeated reader declines or stands still, so every reader here comes to an end.
-/

namespace TransitAudit.Text

/-- A place in a text: the byte offset, the offset at which the text ends, and the rest. -/
structure Cursor where
  offset : Nat
  stop : Nat
  rest : List Char
deriving Inhabited

namespace Cursor

def ofString (s : String) : Cursor :=
  ⟨0, s.utf8ByteSize, s.toList⟩

/-- The bytes still to be read. -/
def left (c : Cursor) : Nat :=
  c.stop - c.offset

def byteSize (cs : List Char) : Nat :=
  cs.foldl (fun n c => n + c.utf8Size) 0

/-- The cursor after some characters of its rest. -/
def skip (c : Cursor) (taken rest : List Char) : Cursor :=
  { c with offset := c.offset + byteSize taken, rest }

end Cursor

abbrev Reader (ε : Type) := StateT Cursor (Except ε)

namespace Reader

variable {ε α : Type}

def offset : Reader ε Nat :=
  return (← get).offset

def rest : Reader ε (List Char) :=
  return (← get).rest

/-- The next character, which stays unread. -/
def peek : Reader ε (Option Char) :=
  return (← get).rest.head?

def atEnd : Reader ε Bool :=
  return (← get).rest.isEmpty

/-- Reads one character, if there is one. -/
def next : Reader ε (Option Char) := do
  let c ← get
  match c.rest with
  | [] => return none
  | x :: xs =>
    set (c.skip [x] xs)
    return some x

/-- Reads as long as the characters belong to a class. -/
def takeWhile (p : Char → Bool) : Reader ε (List Char) := do
  let c ← get
  let (taken, rest) := c.rest.span p
  set (c.skip taken rest)
  return taken

def startsWith (s : String) : Reader ε Bool :=
  return s.toList.isPrefixOf (← get).rest

/-- Reads the given text if it comes next, and tells whether it did. -/
def accept (s : String) : Reader ε Bool := do
  let c ← get
  if s.toList.isPrefixOf c.rest then
    set (c.skip s.toList (c.rest.drop s.toList.length))
    return true
  else
    return false

/-- Reads the given text, which has to come next. -/
def expect (s : String) (otherwise : ε) : Reader ε Unit := do
  unless ← accept s do throw otherwise

/-- Repeats a reader, which passes on a state, for as long as it gives something and moves on. -/
def collectInto {σ : Type} (step : σ → Reader ε (Option (α × σ))) (state : σ) (found : Array α)
    (c : Cursor) : Except ε (List α × Cursor) :=
  match step state c with
  | .error e => .error e
  | .ok (none, d) => .ok (found.toList, d)
  | .ok (some (a, next), d) =>
    if d.left < c.left then collectInto step next (found.push a) d
    else .ok ((found.push a).toList, d)
termination_by c.left

def collectFrom {σ : Type} (step : σ → Reader ε (Option (α × σ))) (state : σ) :
    Reader ε (List α) :=
  collectInto step state #[]

/-- Repeats a reader for as long as it gives something and moves on. -/
def collect (step : Reader ε (Option α)) : Reader ε (List α) :=
  collectFrom (fun _ => return (← step).map (·, ())) ()

/-- Runs a reader over a text. -/
def runOn (s : String) (r : Reader ε α) : Except ε α :=
  (r (Cursor.ofString s)).map (·.1)

end Reader

end TransitAudit.Text
