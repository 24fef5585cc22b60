import TransitAudit.Path.Fault
import TransitAudit.Path.Syntax
import TransitAudit.Text.Trim

/-!
Reading path expressions. A text is cut into alternatives, these into steps and the predicates
of a step into groups, each time with regard to literals and brackets and each time by a scanner
of its own; the parts are then read on their own. The scanners count brackets in a machine word of
32 bits, which wraps around.
-/

namespace TransitAudit.Path

open Text

def isQuote (c : Char) : Bool :=
  c == '\x27' || c == '"'

/-- Puts a character in front of the first of some parts. -/
def onFirst (c : Char) : List Char × List (List Char) → List Char × List (List Char)
  | (part, parts) => (c :: part, parts)

/-- Cuts at a separator outside literals, brackets and parentheses. `depth` brackets and
parentheses are open, and `quote` is the quote character of the literal that is open. -/
def splitFrom (sep : Char) : Int32 → Option Char → List Char →
    Except Fault (List Char × List (List Char))
  | depth, quote, [] =>
    if quote.isSome then .error .unterminatedLiteral
    else if depth ≠ 0 then .error .unbalancedBrackets
    else .ok ([], [])
  | depth, some q, c :: cs =>
    (splitFrom sep depth (if c = q then none else some q) cs).map (onFirst c)
  | depth, none, c :: cs =>
    if isQuote c then (splitFrom sep depth (some c) cs).map (onFirst c)
    else if c = '[' || c = '(' then (splitFrom sep (depth + 1) none cs).map (onFirst c)
    else if c = ']' || c = ')' then
      if depth - 1 < 0 then .error .unbalancedBrackets
      else (splitFrom sep (depth - 1) none cs).map (onFirst c)
    else if c = sep && depth = 0 then
      (splitFrom sep 0 none cs).map fun (part, parts) => ([], part :: parts)
    else (splitFrom sep depth none cs).map (onFirst c)

/-- The parts of a text between separators outside literals, brackets and parentheses. -/
def splitTopLevel (sep : Char) (cs : List Char) : Except Fault (List (List Char)) :=
  (splitFrom sep 0 none cs).map fun (part, parts) => part :: parts

def isNameChar (c : Char) : Bool :=
  isWord c || c == '.' || c == '-'

/-- A name without a colon: an ASCII letter or an underscore, then name characters. -/
def isPlainName : List Char → Bool
  | [] => false
  | c :: cs => (isAsciiLetter c || c == '_') && cs.all isNameChar

def localTest? (cs : List Char) : Option NameTest :=
  if cs = ['*'] then some .any
  else if isPlainName cs then some (.named (String.ofList cs))
  else none

/-- A name or `*`, with or without a namespace label. -/
def nameTest? (cs : List Char) : Option NameTest :=
  match splitAt ':' cs with
  | [name] => localTest? name
  | [label, name] => if isPlainName label then localTest? name else none
  | _ => none

/-- The text of a literal that makes up the whole of the given text. -/
def literal? : List Char → Option (List Char)
  | [] => none
  | q :: cs =>
    if isQuote q && cs.getLast? = some q && !cs.dropLast.contains q then some cs.dropLast
    else none

def isTestChar (c : Char) : Bool :=
  isNameChar c || c == ':' || c == '*'

/-- `@name`, `@name = 'text'` and `@name != 'text'`. -/
def attributePredicate? (cs : List Char) : Option Predicate := do
  let cs ← dropLeading? ['@'] cs
  let test ← nameTest? (cs.takeWhile isTestChar)
  match trimStart (cs.dropWhile isTestChar) with
  | [] => return .hasAttribute test
  | '=' :: value => return .attributeIs test (String.ofList (← literal? (trimStart value)))
  | '!' :: '=' :: value =>
    return .attributeIsNot test (String.ofList (← literal? (trimStart value)))
  | _ => none

/-- `contains(name(), 'text')`, also with `local-name()`. -/
def containsPredicate? (cs : List Char) : Option Predicate := do
  let cs := trimStart (← dropLeading? "contains(".toList cs)
  let cs := (dropLeading? "local-".toList cs).getD cs
  let cs := trimStart (← dropLeading? "name(".toList cs)
  let cs := trimStart (← dropLeading? [')'] cs)
  let cs := trimStart (← dropLeading? [','] cs)
  let cs ← dropLeading? [')'] cs.reverse
  return .nameContains (String.ofList (← literal? (trimEnd cs.reverse)))

/-- `name = 'text'`, where the name is no wildcard. -/
def childPredicate? (cs : List Char) : Option Predicate := do
  let test ← nameTest? (cs.takeWhile isTestChar)
  let value ← dropLeading? ['='] (trimStart (cs.dropWhile isTestChar))
  let text ← literal? (trimStart value)
  match test with
  | .any => none
  | .named name => return .childIs (.named name) (String.ofList text)

/-- Positions are machine words. -/
def positionLimit : Nat := Nat.pow 2 64

def decimalValue (cs : List Char) : Nat :=
  cs.foldl (fun n c => n * 10 + (c.toNat - 48)) 0

/-- A position, counted from 1, if the text consists of decimal digits. -/
def positionPredicate? (cs : List Char) : Option (Except Fault Predicate) :=
  if cs.isEmpty || !cs.all isDecimalDigit then none
  else if cs.all isAsciiDigit && 0 < decimalValue cs && decimalValue cs < positionLimit then
    some (.ok (.position (decimalValue cs)))
  else some (.error (.position (String.ofList cs)))

def isLast (cs : List Char) : Bool :=
  match dropLeading? "last(".toList cs with
  | some rest => trimStart rest = [')']
  | none => false

/-- Reads what stands between the brackets of a predicate. -/
def readPredicate (cs : List Char) : Except Fault Predicate :=
  match attributePredicate? cs <|> containsPredicate? cs <|> childPredicate? cs with
  | some p => .ok p
  | none =>
    match positionPredicate? cs with
    | some result => result
    | none => if isLast cs then .ok .last else .error (.predicate (String.ofList cs))

/-- The bracketed groups of a text that consists of such groups and white space, each without
its brackets, up to the first fault. Within a group `depth` further brackets are open and
`inner` has been read, in reverse. -/
def groupsFrom : Option (Int32 × Option Char × List Char) → List Char →
    List (List Char) × Option Fault
  | none, [] => ([], none)
  | some _, [] => ([], some .unterminatedPredicate)
  | none, c :: cs =>
    if isBlank c then groupsFrom none cs
    else if c = '[' then groupsFrom (some (0, none, [])) cs
    else ([], some (.unexpected (String.ofList (c :: cs))))
  | some (depth, some q, inner), c :: cs =>
    groupsFrom (some (depth, if c = q then none else some q, c :: inner)) cs
  | some (depth, none, inner), c :: cs =>
    if isQuote c then groupsFrom (some (depth, some c, c :: inner)) cs
    else if c = '[' then groupsFrom (some (depth + 1, none, c :: inner)) cs
    else if c = ']' then
      if depth = 0 then
        let (groups, fault) := groupsFrom none cs
        (inner.reverse :: groups, fault)
      else groupsFrom (some (depth - 1, none, c :: inner)) cs
    else groupsFrom (some (depth, none, c :: inner)) cs

/-- Reads the predicates of a step; the fault that comes first in the text counts. -/
def readPredicates (cs : List Char) : Except Fault (List Predicate) := do
  let (groups, fault) := groupsFrom none cs
  let predicates ← groups.mapM fun inner => readPredicate (trim inner)
  match fault with
  | some f => throw f
  | none => return predicates

/-- A step without predicates, which does not go down to all descendants. -/
def simpleStep (axis : Axis) (test : NameTest) (descendant : Bool) (text : List Char) :
    Except Fault Step :=
  if descendant then .error (.afterDoubleSlash (String.ofList text))
  else .ok ⟨axis, test, []⟩

/-- Reads one step; `descendant` says that two slashes stand in front of it. -/
def readStep (descendant : Bool) (raw : List Char) : Except Fault Step :=
  let text := trim raw
  match text with
  | [] => .error .emptyStep
  | ['.'] => simpleStep .self .any descendant text
  | ['.', '.'] => simpleStep .parent .any descendant text
  | '@' :: rest =>
    let name := trim rest
    match nameTest? name with
    | some test => simpleStep .attribute test descendant text
    | none => .error (.attributeName (String.ofList name))
  | _ =>
    let name := trim (text.takeWhile (· ≠ '['))
    match nameTest? name with
    | some test => do
      let predicates ← readPredicates (text.dropWhile (· ≠ '['))
      return ⟨if descendant then .descendant else .child, test, predicates⟩
    | none => .error (.nameTest (String.ofList name))

/-- What has been passed over of a path: by how many the brackets and parentheses that open exceed
those that close, and the quote character of the literal that is open. -/
structure StepScan where
  depth : Int32
  quote : Option Char

namespace StepScan

def start : StepScan :=
  ⟨0, none⟩

/-- Passes over a character. -/
def next : StepScan → Char → StepScan
  | ⟨depth, some q⟩, c => ⟨depth, if c = q then none else some q⟩
  | ⟨depth, none⟩, c =>
    if isQuote c then ⟨depth, some c⟩
    else if c = '[' || c = '(' then ⟨depth + 1, none⟩
    else if c = ']' || c = ')' then ⟨depth - 1, none⟩
    else ⟨depth, none⟩

/-- Whether a slash leads to another step here. -/
def isTop (s : StepScan) : Bool :=
  s.quote.isNone && s.depth = 0

/-- What is wrong with a path that ends here. -/
def fault? (s : StepScan) : Option Fault :=
  if s.quote.isSome then some .unterminatedLiteral
  else if s.depth ≠ 0 then some .unbalancedBrackets
  else none

end StepScan

/-- The texts of steps, each with whether two slashes stand in front of it, and the fault that ends
them, if any. -/
abbrev StepTexts :=
  List (Bool × List Char) × Option Fault

def StepTexts.cons (text : Bool × List Char) : StepTexts → StepTexts
  | (texts, fault) => (text :: texts, fault)

/-- The texts of the steps between the slashes of a path. Of the first one `raw` has been read, in
reverse. -/
def stepTextsFrom (s : StepScan) (descendant : Bool) (raw : List Char) : List Char → StepTexts
  | [] =>
    match s.fault? with
    | some f => ([], some f)
    | none => ([(descendant, raw.reverse)], none)
  | c :: cs =>
    match c = '/' && s.isTop, cs with
    | true, '/' :: cs => (stepTextsFrom s true [] cs).cons (descendant, raw.reverse)
    | true, cs => (stepTextsFrom s false [] cs).cons (descendant, raw.reverse)
    | false, cs => stepTextsFrom (s.next c) descendant (c :: raw) cs

/-- Reads the steps of a path; the fault that comes first in the text counts. -/
def readSteps (descendant : Bool) (body : List Char) : Except Fault (List Step) := do
  let (texts, fault) := stepTextsFrom .start descendant [] body
  let steps ← texts.mapM fun (descendant, raw) => readStep descendant raw
  match fault with
  | some f => throw f
  | none => return steps

/-- Reads the part of a path after its leading slashes. -/
def readBody (absolute descendant : Bool) (body : List Char) : Except Fault LocationPath := do
  if body.isEmpty then
    if absolute && !descendant then return ⟨true, []⟩ else throw .missingStep
  return ⟨absolute, ← readSteps descendant body⟩

def readLocationPath (cs : List Char) : Except Fault LocationPath :=
  match cs with
  | '/' :: '/' :: body => readBody true true body
  | '/' :: body => readBody true false body
  | body => readBody false false body

/-- Reads the alternatives of an expression. -/
def readAlternatives (cs : List Char) : Except Fault (List LocationPath) := do
  let text := trim cs
  if text.isEmpty then throw .emptyExpression
  (← splitTopLevel '|' text).mapM fun part => readLocationPath (trim part)

end TransitAudit.Path
