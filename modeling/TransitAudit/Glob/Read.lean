import TransitAudit.Glob.Basic

/-!
Reading glob patterns. Braces group alternatives and may be nested, brackets hold a class of
characters, a backslash takes the next character as it is, and two stars reach across directories
where they make up a whole part of a path.
-/

namespace TransitAudit

namespace Glob

/-- An open group of alternatives: the tokens before it and its finished branches, each with the
latest first. -/
structure OpenGroup where
  before : List GlobToken
  branches : List (List GlobToken)

/-- The state of reading: the open groups, innermost first; the tokens of the current branch,
latest first; and the last character read. -/
structure ReadState where
  groups : List OpenGroup
  current : List GlobToken
  last : Option Char

namespace ReadState

def start : ReadState :=
  ⟨[], [], none⟩

def push (s : ReadState) (t : GlobToken) : ReadState :=
  { s with current := t :: s.current }

def read (s : ReadState) (c : Char) : ReadState :=
  { s with last := some c }

/-- Opens a group. -/
def openGroup (s : ReadState) : ReadState :=
  { s with groups := ⟨s.current, []⟩ :: s.groups, current := [] }

/-- Begins the next branch of the innermost group; outside of groups a comma is a character. -/
def comma (s : ReadState) : ReadState :=
  match s.groups with
  | [] => s.push (.literal ',')
  | g :: rest =>
    { s with
      groups := { g with branches := s.current.reverse :: g.branches } :: rest
      current := [] }

/-- Closes the innermost group. -/
def closeGroup (s : ReadState) : Except GlobFault ReadState :=
  match s.groups with
  | [] => .error .unopenedGroup
  | g :: rest =>
    .ok { s with
      groups := rest
      current := .either (s.current.reverse :: g.branches).reverse :: g.before }

/-- Puts the token for two stars in place of the separator before them, unless an earlier pair of
stars already reaches that far. -/
def replaceSeparator (s : ReadState) (t : GlobToken) : ReadState :=
  match s.current with
  | .leading :: _ => s
  | .inside :: _ => s
  | _ :: rest => { s with current := t :: rest }
  | [] => { s with current := [t] }

/-- Reads a pair of stars that begins a branch; `rest` is what follows the stars. -/
def leadingStars (s : ReadState) (rest : List Char) : ReadState × List Char :=
  match rest with
  | [] => (s.push .leading, [])
  | '/' :: rest => ((s.push .leading).read '/', rest)
  | rest => ((s.push .star).push .star, rest)

/-- Reads a pair of stars after other tokens; `before` is the character before the stars and
`rest` is what follows them. The stars reach across directories only after a slash, or where a
branch begins, and only up to a slash or the end. -/
def innerStars (s : ReadState) (before : Option Char) (rest : List Char) : ReadState × List Char :=
  let plain := ((s.push .star).push .star, rest)
  let grouped := !s.groups.isEmpty
  let begins := before = some '/' || (grouped && (before = some ',' || before = some '\x7b'))
  if !begins then plain
  else match rest with
    | [] => (s.replaceSeparator .inside, [])
    | '/' :: rest => ((s.replaceSeparator .between).read '/', rest)
    | c :: _ =>
      if grouped && (c = ',' || c = '\x7d') then (s.replaceSeparator .inside, rest) else plain

end ReadState

/-- Reads the members of a class up to its closing bracket, with the ranges latest first. `first`
holds for the first member, `ranging` after a dash that follows a member. Gives the ranges and
what follows the bracket. -/
def readRanges (first ranging : Bool) (ranges : List (Char × Char)) :
    List Char → Except GlobFault (List (Char × Char) × List Char)
  | [] => .error .unclosedClass
  | c :: rest =>
    if c = ']' && !first then
      .ok ((if ranging then ('-', '-') :: ranges else ranges).reverse, rest)
    else if c = '-' && !first && !ranging then readRanges false true ranges rest
    else match ranging, ranges with
      | true, (lower, _) :: others =>
        if c < lower then .error (.invalidRange lower c)
        else readRanges false false ((lower, c) :: others) rest
      | _, _ => readRanges false false ((c, c) :: ranges) rest

/-- Reads a class after its opening bracket. -/
def readClass (cs : List Char) : Except GlobFault (GlobToken × List Char) :=
  match cs with
  | '!' :: rest => (readRanges true false [] rest).map fun (rs, rest) => (.oneOf true rs, rest)
  | '^' :: rest => (readRanges true false [] rest).map fun (rs, rest) => (.oneOf true rs, rest)
  | rest => (readRanges true false [] rest).map fun (rs, rest) => (.oneOf false rs, rest)

/-- Reads the next token or two. -/
def readStep (s : ReadState) (c : Char) (rest : List Char) :
    Except GlobFault (ReadState × List Char) :=
  let t := s.read c
  match c with
  | '?' => .ok (t.push .one, rest)
  | '*' =>
    match rest with
    | '*' :: rest =>
      .ok (if s.current.isEmpty then t.leadingStars rest else t.innerStars s.last rest)
    | rest => .ok (t.push .star, rest)
  | '[' => do
    let (token, rest) ← readClass rest
    return ((t.read ']').push token, rest)
  | '\x7b' => .ok (t.openGroup, rest)
  | '\x7d' => do return (← t.closeGroup, rest)
  | ',' => .ok (t.comma, rest)
  | '\\' =>
    match rest with
    | [] => .error .danglingEscape
    | e :: rest => .ok ((t.read e).push (.literal e), rest)
  | c => .ok (t.push (.literal c), rest)

/-- Reads up to the end; every step takes at least one character, so the number of characters is
enough steps. -/
def readSteps : Nat → ReadState → List Char → Except GlobFault Glob
  | _, s, [] => if s.groups.isEmpty then .ok s.current.reverse else .error .unclosedGroup
  | 0, _, _ => .error .unclosedGroup
  | n + 1, s, c :: rest => do
    let (s, rest) ← readStep s c rest
    readSteps n s rest

def read (pattern : String) : Except GlobFault Glob :=
  readSteps pattern.length .start pattern.toList

end Glob

end TransitAudit
