/-!
Glob patterns as lists of tokens, and what can be wrong with the text of one.
-/

namespace TransitAudit

/-- A part of a glob pattern. -/
inductive GlobToken where
  | literal (c : Char)
  /-- One byte other than a slash. -/
  | one
  /-- Any number of bytes other than slashes. -/
  | star
  /-- Any number of leading directories. -/
  | leading
  /-- Everything inside a directory. -/
  | inside
  /-- A slash, or directories between two slashes. -/
  | between
  | oneOf (negated : Bool) (ranges : List (Char × Char))
  | either (branches : List (List GlobToken))
deriving Repr

abbrev Glob := List GlobToken

inductive GlobFault where
  | unclosedClass
  | invalidRange (first last : Char)
  | unopenedGroup
  | unclosedGroup
  | danglingEscape
deriving DecidableEq, Repr

def GlobFault.message : GlobFault → String
  | .unclosedClass => "unclosed character class; missing ']'"
  | .invalidRange first last => s!"invalid range; '{first}' > '{last}'"
  | .unopenedGroup =>
    "unopened alternate group; missing '\x7b' (maybe escape '\x7d' with '[\x7d]'?)"
  | .unclosedGroup =>
    "unclosed alternate group; missing '\x7d' (maybe escape '\x7b' with '[\x7b]'?)"
  | .danglingEscape => "dangling '\\'"

end TransitAudit
