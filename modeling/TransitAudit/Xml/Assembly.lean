import TransitAudit.Xml.Draft

/-!
Putting a document together from its markup: references become text or elements, and attribute
values and line ends are normalised. The markup of an entity goes on where the reference stands,
so one entity may open an element that another one closes.
-/

namespace TransitAudit.Xml

open Text

/-- Text cut at its references. -/
inductive Piece where
  | literal (c : Char)
  | character (c : Char)
  | entity (name : String)
deriving DecidableEq, Repr

def readPiece : Reader Fault (Option Piece) := do
  match ← Reader.peek with
  | none => return none
  | some '&' =>
    match ← readReference with
    | .character c => return some (.character c)
    | .entity name => return some (.entity name)
  | some _ => return (← Reader.next).map .literal

def piecesOf (cs : List Char) : Except Fault (List Piece) :=
  (Reader.collect readPiece ⟨0, Cursor.byteSize cs, cs⟩).map (·.1)

/-- Follows one more reference. Only references inside entities count. -/
def countReference (inside : Bool) (references : Nat) : Except Fault Nat :=
  if !inside then .ok 0
  else if references = referenceLimit then .error .entityNesting
  else .ok (references + 1)

/-- The value of an attribute: white space characters become spaces, where the pair of a
carriage return and a line feed counts once. A character reference outside entities is kept
as it is. The number counts the references followed. -/
def attributeChars (inside : Bool) (expand : String → Nat → Except Fault (List Char × Nat)) :
    List Piece → Nat → Except Fault (List Char × Nat)
  | [], n => .ok ([], n)
  | .literal c :: ps, n => do
    let (cs, n) ← attributeChars inside expand ps n
    if c == '\r' && ps.head? == some (.literal '\n') then return (cs, n)
    return ((if isSpace c then ' ' else c) :: cs, n)
  | .character c :: ps, n => do
    if inside && c == '<' then throw .markupInAttribute
    let (cs, n) ← attributeChars inside expand ps n
    return ((if inside && isSpace c then ' ' else c) :: cs, n)
  | .entity name :: ps, n => do
    let (value, n) ← expand name n
    let (cs, n) ← attributeChars inside expand ps n
    return (value ++ cs, n)

/-- The replacement of an entity inside an attribute value, with so many levels of entities
left. -/
def expandAttribute (entities : List Entity) : Nat → String → Nat →
    Except Fault (List Char × Nat)
  | 0, _, _ => .error .entityNesting
  | levels + 1, name, n => do
    let inside := levels + 1 < nestingLimit
    let n ← countReference inside n
    let value ← findEntity entities name
    let (cs, n) ← attributeChars true (expandAttribute entities levels) (← piecesOf value.rest) n
    return (cs, if inside then n else 0)

/-- Text collected so far, in reverse; `verbatim` says that the next character is kept even if
it is a line end. -/
structure Run where
  reversed : List Char
  verbatim : Bool

namespace Run

def empty : Run := ⟨[], false⟩

/-- Adds a character; a carriage return becomes a line feed, together with a line feed that
follows it. -/
def push (run : Run) (c : Char) (last : Bool) : Run :=
  match run.reversed with
  | '\r' :: before =>
    if last && c == '\r' then ⟨'\n' :: '\n' :: before, false⟩
    else if c == '\n' then ⟨'\n' :: before, false⟩
    else ⟨c :: '\n' :: before, false⟩
  | before => ⟨(if last && c == '\r' then '\n' else c) :: before, false⟩

def content (run : Run) : List Content :=
  if run.reversed.isEmpty then [] else [.text (String.ofList run.reversed.reverse)]

end Run

/-- Adds the content that text with references stands for. -/
def addText (inside : Bool) (expand : String → Draft → Except Fault Draft) :
    List Piece → Run → Draft → Except Fault Draft
  | [], run, d => .ok (d.add run.content)
  | .literal c :: ps, run, d =>
    if run.verbatim then addText inside expand ps ⟨c :: run.reversed, false⟩ d
    else addText inside expand ps (run.push c ps.isEmpty) d
  | .character c :: ps, run, d =>
    if inside then addText inside expand ps (run.push c ps.isEmpty) d
    else addText inside expand ps ⟨c :: run.reversed, true⟩ d
  | .entity name :: ps, run, d => do
    addText inside expand ps Run.empty (← expand name (d.add run.content))

/-- The text of a CDATA section: only line ends change. -/
def sectionText : List Char → List Char
  | [] => []
  | '\r' :: '\n' :: cs => '\n' :: sectionText cs
  | '\r' :: cs => '\n' :: sectionText cs
  | c :: cs => c :: sectionText cs

/-- How references are followed at some depth of entities. -/
structure Expansion where
  inside : Bool
  inAttribute : String → Nat → Except Fault (List Char × Nat)
  inText : String → Draft → Except Fault Draft

/-- Takes the attributes of a start tag in order. -/
def declareAll (x : Expansion) : List WrittenAttribute → Draft → Except Fault Draft
  | [], d => .ok d
  | a :: rest, d => do
    let (value, n) ← attributeChars x.inside x.inAttribute (← piecesOf a.value) d.references
    declareAll x rest (← { d with references := n }.declare a.name (String.ofList value))

/-- Puts markup together; `begun` says that a start tag has come in this text, before which there
must be no end tag. -/
def assemble (x : Expansion) : List Markup → Bool → Draft → Except Fault Draft
  | [], _, d => .ok d
  | .startTag offset name written ending :: rest, _, d => do
    assemble x rest true (← (← declareAll x written d).startTag offset name ending)
  | .endTag name :: rest, begun, d => do
    unless begun do throw (.mismatchedTag name.name)
    assemble x rest begun (← d.endTag name)
  | .text raw :: rest, begun, d => do
    assemble x rest begun (← addText x.inside x.inText (← piecesOf raw) Run.empty d)
  | .section raw :: rest, begun, d =>
    assemble x rest begun (d.add [.text (String.ofList (sectionText raw))])
  | .aside :: rest, begun, d => assemble x rest begun d

/-- Goes on with an entity inside text, with so many levels of entities left. -/
def expandContent (entities : List Entity) : Nat → String → Draft → Except Fault Draft
  | 0, _, _ => .error .entityNesting
  | levels + 1, name, d => do
    let inside := levels + 1 < nestingLimit
    let n ← countReference inside d.references
    let markup ← contentOf (← findEntity entities name)
    let x := ⟨true, expandAttribute entities levels, expandContent entities levels⟩
    let d ← assemble x markup false { d with references := n }
    return if inside then d else { d with references := 0 }

/-- The document that markup writes, given the entities of its prolog. -/
def treeOf (entities : List Entity) (markup : List Markup) : Except Fault Tree := do
  let x := ⟨false, expandAttribute entities nestingLimit, expandContent entities nestingLimit⟩
  (← assemble x markup false Draft.empty).finish

end TransitAudit.Xml
