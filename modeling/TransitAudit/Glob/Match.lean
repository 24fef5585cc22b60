import TransitAudit.Glob.Basic

/-!
Matching glob patterns. A pattern is matched against the bytes of a path, so that a class or a
question mark stands for a single byte. Each token gives the rests that it can leave of a text; a
pattern matches a text if it can leave nothing.
-/

namespace TransitAudit

namespace Glob

def slash : UInt8 := '/'.toUInt8

/-- The bytes that write a character. -/
def charBytes (c : Char) : List UInt8 :=
  String.utf8EncodeChar c

/-- A byte is in a range of characters: between the last byte of the first and the first byte of
the last, or one of the other bytes of either. -/
def inRange (b : UInt8) (range : Char × Char) : Bool :=
  let first := charBytes range.1
  let last := charBytes range.2
  if range.1 = range.2 then first.contains b
  else first.contains b || last.contains b ||
    (first.getLastD 0 ≤ b && b ≤ last.headD 0)

/-- What is left after each slash. -/
def afterSlashes : List UInt8 → List (List UInt8)
  | [] => []
  | b :: bs => if b = slash then bs :: afterSlashes bs else afterSlashes bs

def suffixes : List UInt8 → List (List UInt8)
  | [] => [[]]
  | b :: bs => (b :: bs) :: suffixes bs

/-- What is left after any number of bytes other than slashes. -/
def afterName : List UInt8 → List (List UInt8)
  | [] => [[]]
  | b :: bs => (b :: bs) :: if b = slash then [] else afterName bs

def withoutLeading? : List UInt8 → List UInt8 → Option (List UInt8)
  | [], text => some text
  | _ :: _, [] => none
  | l :: ls, b :: bs => if l = b then withoutLeading? ls bs else none

mutual

/-- The token stands for the empty text only because it holds no alternative. -/
def void : GlobToken → Bool
  | .either branches => allVoid branches
  | .literal _ => false
  | .one => false
  | .star => false
  | .leading => false
  | .inside => false
  | .between => false
  | .oneOf _ _ => false

def voidBranch : List GlobToken → Bool
  | [] => true
  | t :: ts => void t && voidBranch ts

def allVoid : List (List GlobToken) → Bool
  | [] => true
  | b :: bs => voidBranch b && allVoid bs

end

mutual

/-- The rests that a token can leave of a text. Branches that hold nothing are no alternatives. -/
def rests : GlobToken → List UInt8 → List (List UInt8)
  | .literal c, text => (withoutLeading? (charBytes c) text).toList
  | .one, text =>
    match text with
    | [] => []
    | b :: bs => if b = slash then [] else [bs]
  | .star, text => afterName text
  | .leading, text => text :: afterSlashes text
  | .inside, text =>
    match text with
    | [] => []
    | b :: bs => if b = slash then suffixes bs else []
  | .between, text =>
    match text with
    | [] => []
    | b :: bs => if b = slash then bs :: afterSlashes bs else []
  | .oneOf negated ranges, text =>
    match text with
    | [] => []
    | b :: bs => if ranges.any (inRange b) = !negated then [bs] else []
  | .either branches, text =>
    if allVoid branches then [text] else (branchRests branches text).eraseDups

/-- The rests that tokens one after another can leave of one of the texts. -/
def restsOfAll : List GlobToken → List (List UInt8) → List (List UInt8)
  | [], texts => texts
  | t :: ts, texts => restsOfAll ts (texts.flatMap (rests t)).eraseDups

def branchRests : List (List GlobToken) → List UInt8 → List (List UInt8)
  | [], _ => []
  | b :: bs, text =>
    (if voidBranch b then [] else restsOfAll b [text]) ++ branchRests bs text

end

/-- The pattern matches the whole text. Two stars alone match everything. -/
def acceptsBytes (g : Glob) (text : List UInt8) : Bool :=
  match g with
  | [.leading] => true
  | g => (restsOfAll g [text]).contains []

def accepts (g : Glob) (path : String) : Bool :=
  g.acceptsBytes path.toUTF8.toList

end Glob

end TransitAudit
