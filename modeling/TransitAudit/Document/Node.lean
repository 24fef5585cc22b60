import TransitAudit.Document.Lines
import TransitAudit.Xml.Tree

/-!
Nodes of a parsed document: the document itself, its elements and their attributes. A node
knows the elements around it, so that one can go up as well as down.
-/

namespace TransitAudit

/-- A well-formed document with the lines of its source. -/
structure ParsedDocument where
  tree : Xml.Tree
  lines : Document.LineIndex
deriving Inhabited

/-- Where a node is; `above` are the elements around it, the nearest first. -/
inductive Place where
  | document
  | element (e : Xml.Element) (above : List Xml.Element)
  | attribute (a : Xml.Attribute) (owner : Xml.Element) (above : List Xml.Element)
deriving Inhabited

structure Node where
  document : ParsedDocument
  place : Place
deriving Inhabited

def ParsedDocument.rootNode (d : ParsedDocument) : Node :=
  ⟨d, .element d.tree.root []⟩

namespace Node

def isAttribute (n : Node) : Bool :=
  match n.place with
  | .attribute .. => true
  | _ => false

/-- The local name; the document itself has none. -/
def name (n : Node) : String :=
  match n.place with
  | .document => ""
  | .element e _ => e.name
  | .attribute a _ _ => a.name

/-- The string value: of an attribute its value, otherwise all text inside. -/
def text (n : Node) : String :=
  match n.place with
  | .document => n.document.tree.text
  | .element e _ => e.text
  | .attribute a _ _ => a.value

/-- The byte offset of the element, for an attribute that of its owner. -/
def start (n : Node) : Nat :=
  match n.place with
  | .document => 0
  | .element e _ => e.start
  | .attribute _ owner _ => owner.start

def line (n : Node) : UInt32 :=
  n.document.lines.lineOf n.start

/-- The document itself. -/
def top (n : Node) : Node :=
  ⟨n.document, .document⟩

/-- The node around this one: the owner of an attribute, the element or document around an
element. -/
def parent? (n : Node) : Option Node :=
  match n.place with
  | .document => none
  | .element _ [] => some n.top
  | .element _ (e :: above) => some ⟨n.document, .element e above⟩
  | .attribute _ owner above => some ⟨n.document, .element owner above⟩

/-- The child elements in document order. -/
def children (n : Node) : List Node :=
  match n.place with
  | .document => n.document.tree.elements.map fun e => ⟨n.document, .element e []⟩
  | .element e above => e.children.map fun c => ⟨n.document, .element c (e :: above)⟩
  | .attribute .. => []

/-- The attributes of an element, in the order in which they are written. -/
def attributes (n : Node) : List Xml.Attribute :=
  match n.place with
  | .element e _ => e.attributes
  | _ => []

/-- The attributes of an element as nodes. -/
def attributeNodes (n : Node) : List Node :=
  match n.place with
  | .element e above => e.attributes.map fun a => ⟨n.document, .attribute a e above⟩
  | _ => []

end Node

mutual

/-- The elements of some content and all elements inside them, in document order, each with
the elements around it. -/
def placesIn (above : List Xml.Element) : List Xml.Content → List Place
  | [] => []
  | c :: cs => placesOf above c ++ placesIn above cs

def placesOf (above : List Xml.Element) : Xml.Content → List Place
  | .text _ => []
  | .element tag content =>
    .element ⟨tag, content⟩ above :: placesIn (⟨tag, content⟩ :: above) content

end

/-- All elements inside a node, in document order. -/
def Node.descendants (n : Node) : List Node :=
  match n.place with
  | .document => (placesIn [] n.document.tree.content).map (⟨n.document, ·⟩)
  | .element e above => (placesIn (e :: above) e.content).map (⟨n.document, ·⟩)
  | .attribute .. => []

end TransitAudit
