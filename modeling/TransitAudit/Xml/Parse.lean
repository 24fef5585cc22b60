import TransitAudit.Xml.Assembly
import TransitAudit.Xml.Prolog

/-!
From a text to the tree of its document.
-/

namespace TransitAudit.Xml

open Text

/-- Reads the root element with its content, and asides up to the end of the text. -/
def readBody : Reader Fault (List Markup) := do
  readAsides
  let offset ← Reader.offset
  Reader.expect "<" .noRoot
  let tag ← readStartTag offset
  let content ← match tag with
    | .startTag _ _ _ .opening => readContent
    | _ => pure []
  readAsides
  unless ← Reader.atEnd do throw .textOutsideRoot
  return tag :: content

def parse (text : String) : Except Fault Tree :=
  Reader.runOn text do
    let entities ← readProlog
    treeOf entities (← readBody)

end TransitAudit.Xml
