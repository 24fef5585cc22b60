import TransitAudit.Text.Reader
import TransitAudit.Text.Trim

/-!
The characters and names of XML. A qualified name is an optional label, a colon and a local
name.
-/

namespace TransitAudit.Xml

open Text

/-- White space of the markup itself. -/
def isSpace (c : Char) : Bool :=
  c == ' ' || c == '\t' || c == '\n' || c == '\r'

/-- The characters that may stand in a document. -/
def isAllowed (c : Char) : Bool :=
  if c.toNat < 0x20 then isSpace c else c.toNat ≠ 0xFFFE && c.toNat ≠ 0xFFFF

def isNameStart (c : Char) : Bool :=
  let n := c.toNat
  if n ≤ 0x80 then
    ('A' ≤ c && c ≤ 'Z') || ('a' ≤ c && c ≤ 'z') || c == ':' || c == '_'
  else
    [(0xC0, 0xD6), (0xD8, 0xF6), (0xF8, 0x2FF), (0x370, 0x37D), (0x37F, 0x1FFF),
      (0x200C, 0x200D), (0x2070, 0x218F), (0x2C00, 0x2FEF), (0x3001, 0xD7FF),
      (0xF900, 0xFDCF), (0xFDF0, 0xFFFD), (0x10000, 0xEFFFF)].any
      fun (a, b) => a ≤ n && n ≤ b

def isNameChar (c : Char) : Bool :=
  let n := c.toNat
  isNameStart c || ('0' ≤ c && c ≤ '9') || c == '-' || c == '.' || n == 0xB7 ||
    (0x300 ≤ n && n ≤ 0x36F) || (0x203F ≤ n && n ≤ 0x2040)

/-- A qualified name; a name without a label has the empty one. -/
structure QName where
  label : String
  name : String
deriving DecidableEq, Repr, Inhabited

end TransitAudit.Xml
