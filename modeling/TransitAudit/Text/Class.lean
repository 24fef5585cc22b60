import TransitAudit.Text.Alphabetic
import TransitAudit.Text.Mark
import TransitAudit.Text.Numeric

/-!
Character classes by Unicode property. They decide what may stand in a name, what is trimmed
and what counts as a digit.
-/

namespace TransitAudit.Text

/-- Some range of the table holds the character. -/
def inRanges (table : Array (Nat × Nat)) (c : Char) : Bool :=
  table.any fun r => r.1 ≤ c.toNat && c.toNat ≤ r.2

/-- White space: the property `White_Space`. -/
def isBlank (c : Char) : Bool :=
  inRanges #[(0x9, 0xD), (0x20, 0x20), (0x85, 0x85), (0xA0, 0xA0), (0x1680, 0x1680),
    (0x2000, 0x200A), (0x2028, 0x2029), (0x202F, 0x202F), (0x205F, 0x205F), (0x3000, 0x3000)] c

def isAsciiLetter (c : Char) : Bool :=
  ('a' ≤ c && c ≤ 'z') || ('A' ≤ c && c ≤ 'Z')

def isAsciiDigit (c : Char) : Bool :=
  '0' ≤ c && c ≤ '9'

/-- A decimal digit of any script. -/
def isDecimalDigit (c : Char) : Bool :=
  if c.toNat < 0x80 then isAsciiDigit c else inRanges decimalDigitRanges c

/-- The property `Alphabetic`. -/
def isAlphabetic (c : Char) : Bool :=
  if c.toNat < 0x80 then isAsciiLetter c else inRanges alphabeticRanges c

/-- Letters and numbers, superscripts and fractions among them. -/
def isAlphanumeric (c : Char) : Bool :=
  isAlphabetic c || isDecimalDigit c || inRanges otherNumberRanges c

/-- Connector punctuation such as the underscore. -/
def isConnector (c : Char) : Bool :=
  inRanges #[(0x5F, 0x5F), (0x203F, 0x2040), (0x2054, 0x2054), (0xFE33, 0xFE34),
    (0xFE4D, 0xFE4F), (0xFF3F, 0xFF3F)] c

/-- Word characters: alphabetic characters, marks, decimal digits, connectors and the two
joiners. Other numbers, `²` for one, are not word characters. -/
def isWord (c : Char) : Bool :=
  isAlphabetic c || isDecimalDigit c || isConnector c ||
    inRanges #[(0x200C, 0x200D)] c || inRanges markRanges c

end TransitAudit.Text
