import TransitAudit.Text.CaseTable
import TransitAudit.Text.Class

/-!
Lower case for any script. Every character has a fixed lower-case form but the capital sigma,
which is written `ς` at the end of a word and `σ` elsewhere.
-/

namespace TransitAudit.Text

/-- The lower-case form of one character, by itself. -/
def lowerChar (c : Char) : List Char :=
  if c.toNat < 0x80 then
    [if 'A' ≤ c && c ≤ 'Z' then Char.ofNat (c.toNat + 32) else c]
  else if c.toNat = 0x130 then
    [Char.ofNat 0x69, Char.ofNat 0x307]
  else
    match lowerRuns.find? fun (first, last, step, _) =>
        first ≤ c.toNat && c.toNat ≤ last && (c.toNat - first) % step == 0 with
    | some (_, _, _, offset) => [Char.ofNat (Int.toNat (c.toNat + offset))]
    | none => [c]

/-- The nearest character that does not get ignored has letter case. -/
def casedNext (cs : List Char) : Bool :=
  match cs.dropWhile (inRanges caseIgnorableRanges) with
  | [] => false
  | c :: _ => inRanges casedRanges c

/-- Lower case of what follows `before`, which is held in reverse. -/
def lowerFrom (before : List Char) : List Char → List Char
  | [] => []
  | c :: cs =>
    (if c.toNat = 0x3A3 then
      [Char.ofNat (if casedNext before && !casedNext cs then 0x3C2 else 0x3C3)]
    else lowerChar c) ++ lowerFrom (c :: before) cs

def lowercase (s : String) : String :=
  String.ofList (lowerFrom [] s.toList)

end TransitAudit.Text
