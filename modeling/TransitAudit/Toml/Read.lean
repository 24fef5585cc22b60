import TransitAudit.Text.Reader
import TransitAudit.Toml.Assembly
import TransitAudit.Toml.Scalar

/-!
Reading TOML documents.
-/

namespace TransitAudit.Toml

open Text

abbrev TomlReader := Reader Fault

def isSpace (c : Char) : Bool :=
  c = ' ' || c = '\t'

def skipSpaces : TomlReader Unit :=
  discard (Reader.takeWhile isSpace)

/-- Control characters other than tabs may stand nowhere. -/
def isForbidden (c : Char) : Bool :=
  (c.toNat < 0x20 && c ≠ '\t') || c.toNat = 0x7F

/-- Reads the end of a line and tells whether there was one. -/
def acceptNewline : TomlReader Bool := do
  if ← Reader.accept "\n" then return true
  Reader.accept "\r\n"

/-- Skips a comment up to the end of its line. -/
def skipComment : TomlReader Unit := do
  if ← Reader.accept "#" then
    let comment ← Reader.takeWhile fun c => c ≠ '\n' && c ≠ '\r'
    if comment.any isForbidden then throw .malformed

/-- Skips spaces and line ends. -/
def skipBlankLines : TomlReader Unit := do
  discard (Reader.collect do
    skipSpaces
    return if ← acceptNewline then some () else none)

/-- Skips spaces, comments and line ends. -/
def skipLines : TomlReader Unit := do
  discard (Reader.collect do
    skipSpaces
    skipComment
    return if ← acceptNewline then some () else none)

def hexNumber (count : Nat) : TomlReader Char := do
  let c ← get
  let ds := c.rest.take count
  if ds.length ≠ count || !ds.all isHexDigit then throw .malformed
  set (c.skip ds (c.rest.drop count))
  let n := ds.foldl (fun n c => n * 16 + hexDigitValue c) 0
  if 0x10FFFF < n || (0xD800 ≤ n && n ≤ 0xDFFF) then throw .malformed
  return Char.ofNat n

/-- Reads what follows the backslash of an escape. -/
def readEscape : TomlReader Char := do
  match ← Reader.next with
  | some 'b' => return Char.ofNat 8
  | some 't' => return '\t'
  | some 'n' => return '\n'
  | some 'f' => return Char.ofNat 12
  | some 'r' => return '\r'
  | some 'e' => return Char.ofNat 27
  | some '"' => return '"'
  | some '\\' => return '\\'
  | some 'x' => hexNumber 2
  | some 'u' => hexNumber 4
  | some 'U' => hexNumber 8
  | _ => throw .malformed

/-- Reads a string on one line after its opening quote. -/
def readBasic : TomlReader String := do
  let cs ← Reader.collect do
    match ← Reader.next with
    | none => throw .malformed
    | some '"' => return none
    | some '\\' => return some (← readEscape)
    | some c =>
      if isForbidden c then throw .malformed
      return some c
  return String.ofList cs

/-- Reads a string without escapes on one line after its opening quote. -/
def readLiteral : TomlReader String := do
  let cs ← Reader.takeWhile fun c => c ≠ '\x27' && !isForbidden c
  Reader.expect "'" .malformed
  return String.ofList cs

/-- Reads the next characters of a string over several lines, which three quotes close. Up to two
quotes may stand right before them. -/
def readPiece? (quote : Char) (escapes : Bool) : TomlReader (Option (List Char)) := do
  let quotes := ((← Reader.rest).takeWhile (· = quote)).length
  if 5 < quotes then throw .malformed
  if quotes = 3 then
    discard (Reader.takeWhile (· = quote))
    return none
  if ← acceptNewline then return some ['\n']
  match ← Reader.next with
  | none => throw .malformed
  | some '\\' =>
    if !escapes then return some ['\\']
    let rest := (← Reader.rest).dropWhile isSpace
    if ['\n'].isPrefixOf rest || ['\r', '\n'].isPrefixOf rest then
      skipBlankLines
      return some []
    return some [← readEscape]
  | some c =>
    if isForbidden c then throw .malformed
    return some [c]

/-- Reads a string over several lines after its opening quotes. A line end right after them does
not count. -/
def readPieces (quote : Char) (escapes : Bool) : TomlReader String := do
  discard acceptNewline
  return String.ofList (← Reader.collect (readPiece? quote escapes)).flatten

def readString : TomlReader String := do
  if ← Reader.accept "\"\"\"" then readPieces '"' true
  else if ← Reader.accept "'''" then readPieces '\x27' false
  else if ← Reader.accept "\"" then readBasic
  else do
    Reader.expect "'" .malformed
    readLiteral

def isBareKeyChar (c : Char) : Bool :=
  isAsciiLetter c || isAsciiDigit c || c = '_' || c = '-'

def readKeyPart : TomlReader String := do
  if ← Reader.accept "\"" then readBasic
  else if ← Reader.accept "'" then readLiteral
  else
    let cs ← Reader.takeWhile isBareKeyChar
    if cs.isEmpty then throw .malformed
    return String.ofList cs

/-- Reads a key, whose parts are separated by dots. -/
def readKey : TomlReader (List String) := do
  let first ← readKeyPart
  let rest ← Reader.collect do
    skipSpaces
    if !(← Reader.accept ".") then return none
    skipSpaces
    return some (← readKeyPart)
  return first :: rest

def isScalarChar (c : Char) : Bool :=
  isAsciiLetter c || isAsciiDigit c || c = '_' || c = '+' || c = '-' || c = '.' || c = ':'

/-- Reads a number, a date or a time. A space may separate a date from its time. -/
def readScalar : TomlReader Value := do
  let cs ← Reader.takeWhile isScalarChar
  let c ← get
  let cs ←
    match afterDate? cs, c.rest with
    | some [], ' ' :: d :: _ =>
      if isAsciiDigit d then
        discard Reader.next
        let more ← Reader.takeWhile isScalarChar
        pure (cs ++ ' ' :: more)
      else pure cs
    | _, _ => pure cs
  match scalar? cs with
  | some v => return v
  | none => throw .malformed

/-- Reads members or elements up to a closing bracket; a comma may follow the last. -/
def readSequence {α : Type} (closing : String) (element : TomlReader α) : TomlReader (List α) := do
  skipLines
  if ← Reader.accept closing then return []
  let first ← element
  let rest ← Reader.collect do
    skipLines
    if ← Reader.accept closing then return none
    Reader.expect "," .malformed
    skipLines
    if ← Reader.accept closing then return none
    return some (← element)
  return first :: rest

/-- Reads a value without parts. -/
def readFlat : TomlReader Value := do
  match ← Reader.peek with
  | some '"' => return .string (← readString)
  | some '\x27' => return .string (← readString)
  | some 't' =>
    Reader.expect "true" .malformed
    return .bool true
  | some 'f' =>
    Reader.expect "false" .malformed
    return .bool false
  | _ => readScalar

/-- So many arrays and tables may stand one inside the other. -/
def depthLimit : Nat := 80

/-- Reads a value with so many levels of arrays and tables left. -/
def readValue : Nat → TomlReader Value
  | 0 => readFlat
  | depth + 1 => do
    match ← Reader.peek with
    | some '[' =>
      discard Reader.next
      return .array (← readSequence "]" (readValue depth))
    | some '\x7b' =>
      discard Reader.next
      let members ← readSequence "\x7d" do
        let path ← readKey
        skipSpaces
        Reader.expect "=" .malformed
        skipSpaces
        return Statement.assignment path (← readValue depth)
      match assemble members with
      | .ok table => return .table table
      | .error e => throw e
    | _ => readFlat

/-- Reads the statement that begins here. -/
def readStatement : TomlReader Statement := do
  if ← Reader.accept "[[" then
    skipSpaces
    let path ← readKey
    skipSpaces
    Reader.expect "]]" .malformed
    return .listHeader path
  else if ← Reader.accept "[" then
    skipSpaces
    let path ← readKey
    skipSpaces
    Reader.expect "]" .malformed
    return .header path
  else do
    let path ← readKey
    skipSpaces
    Reader.expect "=" .malformed
    skipSpaces
    return .assignment path (← readValue depthLimit)

/-- Reads what may follow a statement on its line. -/
def readLineEnd : TomlReader Unit := do
  skipSpaces
  skipComment
  unless ← acceptNewline do
    unless ← Reader.atEnd do throw .malformed

/-- Reads statements up to the end, each on a line of its own. -/
def readStatements : TomlReader (List Statement) :=
  Reader.collect do
    skipLines
    if ← Reader.atEnd then return none
    let s ← readStatement
    readLineEnd
    return some s

/-- Reads a document; a byte order mark may stand in front. -/
def parse (text : String) : Except Fault (List (String × Value)) :=
  Reader.runOn text do
    discard (Reader.accept "\uFEFF")
    match assemble (← readStatements) with
    | .ok table => return table
    | .error e => throw e

end TransitAudit.Toml
