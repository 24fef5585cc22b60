import TransitAudit.Document.Navigate

/-!
The label that a schema binds to its target namespace. Selectors and fields name elements with
that label; it is removed, since names are compared by their local part.
-/

namespace TransitAudit

open Text

/-- The first label bound to the target namespace; the default namespace has none to remove. A label
never makes this fail: it is looked for with all its special characters escaped, so what is looked
for is well-formed whatever the label is, and the size that a pattern may have is not counted here. -/
def targetLabel? (schemaRoot : Node) : Option String := do
  let target ← schemaRoot.attr? "targetNamespace"
  let bindings := match schemaRoot.place with
    | .element e _ => e.tag.namespaces
    | _ => []
  (bindings.filter (·.uri == target)).findSome? fun b => b.label.filter (!·.isEmpty)

/-- A character after which a name cannot begin. -/
def continuesName (c : Char) : Bool :=
  isWord c || c == '.' || c == '-'

/-- Removes every occurrence of a label and its colon, `mark`, that begins the text or follows a
character that cannot belong to a name; `mayBegin` says that the place before the rest is such a
place. `skip` counts the characters of an occurrence still to be passed over. Right behind an
occurrence another one cannot begin. -/
def stripFrom (mark : List Char) : Nat → Bool → List Char → List Char
  | _, _, [] => []
  | skip + 1, _, _ :: cs => stripFrom mark skip false cs
  | 0, mayBegin, c :: cs =>
    if mayBegin && mark.isPrefixOf (c :: cs) then stripFrom mark (mark.length - 1) false cs
    else c :: stripFrom mark 0 (!continuesName c) cs

def stripLabel (label? : Option String) (path : String) : String :=
  match label? with
  | some label => String.ofList (stripFrom (label.toList ++ [':']) 0 true path.toList)
  | none => path

end TransitAudit
