import TransitAudit.Text.Class

/-!
Removing white space around a text, and a few ways to cut a text at a character.
-/

namespace TransitAudit.Text

def trimStart (cs : List Char) : List Char :=
  cs.dropWhile isBlank

def trimEnd (cs : List Char) : List Char :=
  (cs.reverse.dropWhile isBlank).reverse

/-- The text without white space at either end. -/
def trim (cs : List Char) : List Char :=
  trimEnd (trimStart cs)

def trimmed (s : String) : String :=
  String.ofList (trim s.toList)

/-- The text holds nothing but white space. -/
def blank (s : String) : Bool :=
  s.toList.all isBlank

/-- Cuts at every occurrence of a character; there is always at least one part. -/
def splitAt (sep : Char) : List Char → List (List Char)
  | [] => [[]]
  | c :: cs =>
    if c = sep then [] :: splitAt sep cs
    else match splitAt sep cs with
      | [] => [[c]]
      | part :: parts => (c :: part) :: parts

/-- What follows the last occurrence of a character, the whole text when there is none. -/
def afterLast (sep : Char) (cs : List Char) : List Char :=
  (cs.reverse.takeWhile (· ≠ sep)).reverse

/-- What is left when the text begins with the given one. -/
def dropLeading? : List Char → List Char → Option (List Char)
  | [], cs => some cs
  | _ :: _, [] => none
  | l :: ls, c :: cs => if l = c then dropLeading? ls cs else none

def occursIn (part : List Char) : List Char → Bool
  | [] => part.isEmpty
  | c :: cs => part.isPrefixOf (c :: cs) || occursIn part cs

/-- Joins texts with a separator between neighbours. -/
def joined (sep : String) (parts : List String) : String :=
  sep.intercalate parts

/-- The items of a list that is separated by commas; white space around them and empty items do not
count. -/
def commaList (s : String) : List String :=
  (((splitAt ',' s.toList).map trim).filter (!·.isEmpty)).map String.ofList

end TransitAudit.Text
