import TransitAudit.Decimal.Layout
import TransitAudit.Json.Value

/-!
Writing JSON, on one line or with two spaces for each level. Members are written in the order in
which they are given. Quotes, backslashes and control characters are escaped, nothing else. What
is unreadable is written as null.
-/

namespace TransitAudit.Json

def hexDigit (n : Nat) : Char :=
  Char.ofNat (if n < 10 then 48 + n else 87 + n)

def escapeChar (c : Char) : List Char :=
  if c == '"' then ['\\', '"']
  else if c == '\\' then ['\\', '\\']
  else if c == '\n' then ['\\', 'n']
  else if c == '\r' then ['\\', 'r']
  else if c == '\t' then ['\\', 't']
  else if c.toNat == 8 then ['\\', 'b']
  else if c.toNat == 12 then ['\\', 'f']
  else if c.toNat < 0x20 then
    ['\\', 'u', '0', '0', hexDigit (c.toNat / 16), hexDigit (c.toNat % 16)]
  else [c]

def quoted (s : String) : String :=
  "\"" ++ String.ofList (s.toList.flatMap escapeChar) ++ "\""

mutual

/-- The text on one line, without spaces. -/
def Value.compact : Value → String
  | .null => "null"
  | .unreadable => "null"
  | .bool b => if b then "true" else "false"
  | .integer i => toString i
  | .real x => Decimal.data x
  | .string s => quoted s
  | .array vs => "[" ++ ",".intercalate (compactElements vs) ++ "]"
  | .object ms => "\x7b" ++ ",".intercalate (compactMembers ms) ++ "\x7d"

def compactElements : List Value → List String
  | [] => []
  | v :: vs => v.compact :: compactElements vs

def compactMembers : List (String × Value) → List String
  | [] => []
  | (n, v) :: ms => (quoted n ++ ":" ++ v.compact) :: compactMembers ms

end

def indentation (level : Nat) : String :=
  String.ofList (List.replicate (2 * level) ' ')

/-- Lines between brackets; nothing between them gives the brackets alone. -/
def bracketed (level : Nat) (opening closing : String) (items : List String) : String :=
  if items.isEmpty then opening ++ closing
  else
    let separator := ",\n" ++ indentation (level + 1)
    opening ++ "\n" ++ indentation (level + 1) ++ separator.intercalate items ++ "\n" ++
      indentation level ++ closing

mutual

/-- The text over several lines, at some level of indentation. -/
def Value.indented (level : Nat) : Value → String
  | .array vs => bracketed level "[" "]" (indentedElements (level + 1) vs)
  | .object ms => bracketed level "\x7b" "\x7d" (indentedMembers (level + 1) ms)
  | .null => "null"
  | .unreadable => "null"
  | .bool b => if b then "true" else "false"
  | .integer i => toString i
  | .real x => Decimal.data x
  | .string s => quoted s

def indentedElements (level : Nat) : List Value → List String
  | [] => []
  | v :: vs => v.indented level :: indentedElements level vs

def indentedMembers (level : Nat) : List (String × Value) → List String
  | [] => []
  | (n, v) :: ms => (quoted n ++ ": " ++ v.indented level) :: indentedMembers level ms

end

/-- The text over several lines. -/
def Value.pretty (v : Value) : String :=
  v.indented 0

end TransitAudit.Json
