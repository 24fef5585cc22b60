/-!
Source lines. The index holds the byte offset at which each line starts, in ascending order,
and finds the line of an offset by halving.
-/

namespace TransitAudit.Document

/-- Byte offsets at which the lines of a text start; the first line starts at 0. -/
structure LineIndex where
  starts : Array Nat
deriving Inhabited

namespace LineIndex

/-- The offsets that follow a line feed, for a text that begins at the given offset. -/
def startsAfter (offset : Nat) : List Char → List Nat
  | [] => []
  | c :: cs =>
    let following := offset + c.utf8Size
    if c = '\n' then following :: startsAfter following cs else startsAfter following cs

def build (text : String) : LineIndex :=
  ⟨(0 :: startsAfter 0 text.toList).toArray⟩

/-- How many of the ascending numbers at indices below `high` are at most `bound`, if all
those below `low` are. -/
def countUpTo (xs : Array Nat) (bound low high : Nat) : Nat :=
  if low < high then
    let middle := (low + high) / 2
    if xs.getD middle 0 ≤ bound then countUpTo xs bound (middle + 1) high
    else countUpTo xs bound low middle
  else low
termination_by high - low

/-- The line that holds an offset, counted from 1. -/
def lineOf (index : LineIndex) (offset : Nat) : UInt32 :=
  (countUpTo index.starts offset 0 index.starts.size).toUInt32

end LineIndex

end TransitAudit.Document
