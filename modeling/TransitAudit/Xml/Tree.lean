/-!
Documents as trees. Comments and processing instructions leave no trace; character data and
CDATA sections are text. An element knows the byte offset of its start tag, which orders the
elements of a document.
-/

namespace TransitAudit.Xml

/-- An attribute by its local name; `space` is the namespace of a labelled name. -/
structure Attribute where
  name : String
  space : Option String
  value : String
deriving DecidableEq, Repr, Inhabited

/-- A namespace binding; the default namespace has no label. -/
structure Namespace where
  label : Option String
  uri : String
deriving DecidableEq, Repr, Inhabited

/-- What a start tag says. `namespaces` are the bindings in scope, those of the tag itself
first. -/
structure Tag where
  start : Nat
  name : String
  attributes : List Attribute
  namespaces : List Namespace
deriving DecidableEq, Repr, Inhabited

inductive Content where
  | text (value : String)
  | element (tag : Tag) (content : List Content)
deriving Inhabited

structure Element where
  tag : Tag
  content : List Content
deriving Inhabited

namespace Element

def start (e : Element) : Nat := e.tag.start
def name (e : Element) : String := e.tag.name
def attributes (e : Element) : List Attribute := e.tag.attributes

def ofContent? : Content → Option Element
  | .text _ => none
  | .element tag content => some ⟨tag, content⟩

/-- The child elements in document order. -/
def children (e : Element) : List Element :=
  e.content.filterMap ofContent?

end Element

/-- A document: its root element and the content behind it. There is none of the latter unless an
entity closes the root element before its own end tag would. -/
structure Tree where
  root : Element
  behind : List Content
deriving Inhabited

namespace Tree

/-- All content of a document. -/
def content (t : Tree) : List Content :=
  .element t.root.tag t.root.content :: t.behind

/-- The root element and the elements behind it. -/
def elements (t : Tree) : List Element :=
  t.content.filterMap Element.ofContent?

end Tree

mutual

/-- All text inside, in document order. -/
def Content.allText : Content → String
  | .text value => value
  | .element _ content => Content.allTextOf content

def Content.allTextOf : List Content → String
  | [] => ""
  | c :: cs => c.allText ++ Content.allTextOf cs

end

/-- The string value of an element. -/
def Element.text (e : Element) : String :=
  Content.allTextOf e.content

/-- The string value of a document. -/
def Tree.text (t : Tree) : String :=
  Content.allTextOf t.content

end TransitAudit.Xml
