import TransitAudit.Xml.Markup

/-!
What may come before the root element: a byte order mark, the XML declaration, comments and
processing instructions, and a document type. Of the document type only its entities matter.
-/

namespace TransitAudit.Xml

open Text

/-- White space inside the XML declaration: at least some, unless the declaration ends. -/
def declarationSpaces : Reader Fault Unit := do
  let spaces ← Reader.takeWhile isSpace
  if spaces.isEmpty then
    unless (← Reader.startsWith "?>") || (← Reader.atEnd) do
      throw (.expected "white space")

/-- Reads the XML declaration; a version comes first, then optionally an encoding and the
standalone flag. -/
def readDeclaration : Reader Fault Unit := do
  Reader.expect "<?xml" .unknownMarkup
  declarationSpaces
  unless ← Reader.startsWith "version" do throw (.expected "a version")
  discard readAttribute
  declarationSpaces
  if ← Reader.startsWith "encoding" then
    discard readAttribute
    declarationSpaces
  if ← Reader.startsWith "standalone" then
    discard readAttribute
  skipSpaces
  Reader.expect "?>" (.expected "'?>'")

/-- Comments, processing instructions and white space. -/
def readAsides : Reader Fault Unit := do
  let step : Reader Fault (Option Unit) := do
    skipSpaces
    if ← Reader.accept "<!--" then
      return some (← readComment)
    else if ← Reader.startsWith "<?" then
      return some (← readInstruction)
    else
      return none
  discard (Reader.collect step)

def readQuoted : Reader Fault (List Char) := do
  let quote ← match ← Reader.next with
    | some '"' => pure '"'
    | some '\x27' => pure '\x27'
    | _ => throw (.expected "a quote")
  let cs ← Reader.takeWhile (· ≠ quote)
  unless (← Reader.next) == some quote do throw .endOfText
  return cs

/-- Passes over an external identifier and tells whether there was one. -/
def readExternalId : Reader Fault Bool := do
  if ← Reader.accept "SYSTEM" then
    expectSpaces
    discard readQuoted
    return true
  else if ← Reader.accept "PUBLIC" then
    expectSpaces
    discard readQuoted
    expectSpaces
    discard readQuoted
    return true
  else
    return false

/-- Reads the value of an entity; an external one gives nothing. -/
def readEntityValue (general : Bool) : Reader Fault (Option Cursor) := do
  match ← Reader.peek with
  | some '"' | some '\x27' =>
    let start := (← Reader.offset) + 1
    let value ← readQuoted
    return some ⟨start, start + Cursor.byteSize value, value⟩
  | _ =>
    unless ← readExternalId do throw (.expected "an entity value")
    if general then
      skipSpaces
      if ← Reader.accept "NDATA" then
        expectSpaces
        discard readName
    return none

/-- Reads an entity declaration, whose opening has been read already. -/
def readEntityDeclaration : Reader Fault (Option Entity) := do
  expectSpaces
  let parameter ← Reader.accept "%"
  if parameter then expectSpaces
  let name ← readName
  expectSpaces
  let value ← readEntityValue (!parameter)
  skipSpaces
  Reader.expect ">" (.expected "'>'")
  return value.map fun replacement => ⟨name, replacement⟩

/-- One declaration between the brackets of a document type. The closing bracket ends them. -/
def readDeclarationItem : Reader Fault (Option (Option Entity)) := do
  skipSpaces
  if ← Reader.atEnd then
    throw .endOfText
  else if ← Reader.accept "<!ENTITY" then
    return some (← readEntityDeclaration)
  else if ← Reader.accept "<!--" then
    readComment
    return some none
  else if ← Reader.startsWith "<?" then
    readInstruction
    return some none
  else if (← Reader.startsWith "<!ELEMENT") || (← Reader.startsWith "<!ATTLIST") ||
      (← Reader.startsWith "<!NOTATION") then
    discard (Reader.takeWhile (· ≠ '>'))
    Reader.expect ">" .endOfText
    return some none
  else
    Reader.expect "]" .unknownMarkup
    skipSpaces
    Reader.expect ">" (.expected "'>'")
    return none

/-- Reads a document type, whose opening has been read already. -/
def readDocumentType : Reader Fault (List Entity) := do
  expectSpaces
  discard readName
  skipSpaces
  discard readExternalId
  skipSpaces
  if ← Reader.accept ">" then return []
  Reader.expect "[" (.expected "'[' or '>'")
  return (← Reader.collect readDeclarationItem).filterMap id

/-- Reads all that comes before the root element and gives the entities declared there. -/
def readProlog : Reader Fault (List Entity) := do
  discard (Reader.accept (String.singleton (Char.ofNat 0xFEFF)))
  if ← Reader.startsWith "<?xml " then readDeclaration
  readAsides
  skipSpaces
  if ← Reader.accept "<!DOCTYPE" then readDocumentType else return []

end TransitAudit.Xml
