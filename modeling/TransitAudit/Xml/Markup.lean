import TransitAudit.Xml.Entity

/-!
The markup of a document as a flat sequence: tags, text, CDATA sections and what is passed
over. Text keeps its references; they are resolved when the tree is put together. Content ends
with the end tag of the element it is in, and what comes after that is not read.
-/

namespace TransitAudit.Xml

open Text

/-- An attribute as written. -/
structure WrittenAttribute where
  name : QName
  value : List Char

/-- How a start tag ends: it opens an element, it is an element by itself, or its text ends right
after its name or an attribute. -/
inductive TagEnd where
  | opening
  | empty
  | cutOff
deriving DecidableEq, Repr

inductive Markup where
  | startTag (offset : Nat) (name : QName) (attributes : List WrittenAttribute) (ending : TagEnd)
  | endTag (name : QName)
  | text (raw : List Char)
  | section (raw : List Char)
  | aside

/-- Reads allowed characters as long as they satisfy a condition on all that is left. -/
def readUntil (closing : String) : Reader Fault (List Char) := do
  let cs ← Reader.collect do
    if ← Reader.startsWith closing then return none
    match ← Reader.next with
    | none => return none
    | some c =>
      unless isAllowed c do throw (.forbiddenCharacter c.toNat)
      return some c
  Reader.expect closing .endOfText
  return cs

def readQName : Reader Fault QName := do
  let cs ← Reader.takeWhile isNameChar
  let startsWell := fun (part : List Char) => part.head?.all isNameStart
  match splitAt ':' cs with
  | [name] =>
    if name.isEmpty || !startsWell name then throw .invalidName
    return ⟨"", String.ofList name⟩
  | [label, name] =>
    if name.isEmpty || !startsWell name || !startsWell label then throw .invalidName
    return ⟨String.ofList label, String.ofList name⟩
  | _ => throw .invalidName

/-- Reads a name, an equals sign and a quoted value without `<`. -/
def readAttribute : Reader Fault WrittenAttribute := do
  let name ← readQName
  skipSpaces
  Reader.expect "=" (.expected "'='")
  skipSpaces
  let quote ← match ← Reader.next with
    | some '"' => pure '"'
    | some '\x27' => pure '\x27'
    | _ => throw (.expected "a quote")
  let value ← Reader.takeWhile fun c => c ≠ quote && c ≠ '<'
  match value.find? (!isAllowed ·) with
  | some c => throw (.forbiddenCharacter c.toNat)
  | none => pure ()
  unless (← Reader.next) == some quote do throw .markupInAttribute
  return ⟨name, value⟩

/-- Reads a comment, whose opening has been read already. -/
def readComment : Reader Fault Unit := do
  let text ← readUntil "-->"
  if occursIn ['-', '-'] text || text.getLast? == some '-' then throw .invalidComment

/-- Reads a processing instruction. -/
def readInstruction : Reader Fault Unit := do
  if ← Reader.startsWith "<?xml " then throw .misplacedDeclaration
  Reader.expect "<?" .unknownMarkup
  discard readName
  skipSpaces
  discard (readUntil "?>")

/-- Reads a start tag, whose `<` at the given offset has been read already. -/
def readStartTag (offset : Nat) : Reader Fault Markup := do
  let name ← readQName
  if name.label == "xmlns" then throw .reservedNamespace
  let attributes ← Reader.collect do
    if ← Reader.atEnd then return none
    let spaces ← Reader.takeWhile isSpace
    match ← Reader.peek with
    | none => throw .endOfText
    | some '/' => return none
    | some '>' => return none
    | some _ =>
      if spaces.isEmpty then throw (.expected "white space")
      return some (← readAttribute)
  if ← Reader.atEnd then return .startTag offset name attributes .cutOff
  if ← Reader.accept ">" then return .startTag offset name attributes .opening
  Reader.expect "/>" (.expected "'/>'")
  return .startTag offset name attributes .empty

/-- Reads an end tag, whose opening has been read already. -/
def readEndTag : Reader Fault Markup := do
  let name ← readQName
  skipSpaces
  Reader.expect ">" (.expected "'>'")
  return .endTag name

def readText : Reader Fault Markup := do
  let raw ← Reader.takeWhile (· ≠ '<')
  match raw.find? (!isAllowed ·) with
  | some c => throw (.forbiddenCharacter c.toNat)
  | none => pure ()
  if occursIn [']', ']', '>'] raw then throw .closedSection
  return .text raw

def readMarkup : Reader Fault (Option Markup) := do
  let offset ← Reader.offset
  match ← Reader.peek with
  | none => return none
  | some '<' =>
    if ← Reader.accept "<!--" then
      readComment
      return some .aside
    else if ← Reader.accept "<![CDATA[" then
      return some (.section (← readUntil "]]>"))
    else if ← Reader.startsWith "<!" then
      throw .unknownMarkup
    else if ← Reader.startsWith "<?" then
      readInstruction
      return some .aside
    else if ← Reader.accept "</" then
      return some (← readEndTag)
    else
      Reader.expect "<" .unknownMarkup
      return some (← readStartTag offset)
  | some _ => return some (← readText)

/-- How deep inside content one is after some markup; the end tag of the element that the content
is in leads out of it. -/
def Markup.depthAfter (m : Markup) (depth : Nat) : Option Nat :=
  match m, depth with
  | .startTag _ _ _ .opening, depth => some (depth + 1)
  | .endTag _, 0 => none
  | .endTag _, depth + 1 => some depth
  | _, depth => some depth

/-- Reads content together with the end tag behind it, if there is one. -/
def readContent : Reader Fault (List Markup) :=
  Reader.collectFrom (fun
    | none => return none
    | some depth => return (← readMarkup).map fun m => (m, m.depthAfter depth)) (some 0)

/-- The content that a text begins with. -/
def contentOf (c : Cursor) : Except Fault (List Markup) :=
  (readContent c).map (·.1)

end TransitAudit.Xml
