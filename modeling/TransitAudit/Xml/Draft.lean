import TransitAudit.Xml.Markup
import TransitAudit.Xml.Tree

/-!
A document while it is put together. Tags come one by one: a start tag opens an element, and an end
tag closes the element that was opened last. Attributes and namespace bindings wait until a tag
ends and belong to that tag, so those of a start tag that is cut off go to the next tag.
-/

namespace TransitAudit.Xml

def xmlUri : String := "http://www.w3.org/XML/1998/namespace"
def xmlnsUri : String := "http://www.w3.org/2000/xmlns/"

/-- The bindings inside an element: its own, then those around it that it does not replace. -/
def scopeWithin (own outer : List Namespace) : List Namespace :=
  own ++ outer.filter fun o => !own.any (·.label == o.label)

def resolveLabel (scope : List Namespace) (label : String) : Except Fault (Option String) :=
  if label.isEmpty then .ok none
  else match scope.find? (·.label == some label) with
    | some binding => .ok (some binding.uri)
    | none => .error (.unknownLabel label)

/-- Attributes with their namespaces; no two may have the same namespace and local name. -/
def resolveAttributes (scope : List Namespace) : List (QName × String) → List Attribute →
    Except Fault (List Attribute)
  | [], found => .ok found.reverse
  | (name, value) :: rest, found => do
    let space ← if name.label == "xml" then .ok (some xmlUri) else resolveLabel scope name.label
    if found.any fun a => a.name == name.name && a.space == space then
      throw (.duplicateAttribute name.name)
    resolveAttributes scope rest (⟨name.name, space, value⟩ :: found)

/-- An element whose end tag has not come yet, with the content in front of it in reverse. -/
structure OpenElement where
  name : QName
  tag : Tag
  before : List Content

/-- The open elements, the innermost first, and the content of the innermost one so far, in
reverse; when none is open, the content of the document. `attributes` and `bindings` wait for the
end of a tag. `references` counts those followed inside the current entity. -/
structure Draft where
  opened : List OpenElement
  done : List Content
  attributes : List (QName × String)
  bindings : List Namespace
  references : Nat

namespace Draft

def empty : Draft :=
  ⟨[], [], [], [], 0⟩

def add (d : Draft) (content : List Content) : Draft :=
  { d with done := content.reverse ++ d.done }

/-- The bindings inside the innermost open element. -/
def scope (d : Draft) : List Namespace :=
  match d.opened with
  | [] => []
  | o :: _ => o.tag.namespaces

def bind (d : Draft) (binding : Namespace) : Draft :=
  { d with bindings := d.bindings ++ [binding] }

/-- Takes what an attribute says: a namespace binding or a plain attribute. -/
def declare (d : Draft) (name : QName) (value : String) : Except Fault Draft :=
  if name.label == "xmlns" then
    if value == xmlnsUri || (name.name == "xml") != (value == xmlUri) then
      .error .reservedNamespace
    else if d.bindings.any (·.label == some name.name) then
      .error (.duplicateNamespace name.name)
    else
      .ok (if value == xmlUri then d else d.bind ⟨some name.name, value⟩)
  else if name.name == "xmlns" then
    if value == xmlUri || value == xmlnsUri then .error .reservedNamespace
    else .ok (d.bind ⟨none, value⟩)
  else
    .ok { d with attributes := d.attributes ++ [(name, value)] }

/-- At the end of a tag: the bindings and attributes that belong to it. Nothing waits after it. -/
def settle (d : Draft) : Except Fault (List Namespace × List Attribute × Draft) := do
  let scope := scopeWithin d.bindings d.scope
  let attributes ← resolveAttributes scope d.attributes []
  return (scope, attributes, { d with attributes := [], bindings := [] })

/-- Ends a start tag, whose attributes have been taken. -/
def startTag (d : Draft) (offset : Nat) (name : QName) (ending : TagEnd) :
    Except Fault Draft :=
  match ending with
  | .cutOff => .ok d
  | .empty => do
    let (scope, attributes, d) ← d.settle
    discard (resolveLabel scope name.label)
    return d.add [.element ⟨offset, name.name, attributes, scope⟩ []]
  | .opening => do
    let (scope, attributes, d) ← d.settle
    discard (resolveLabel scope name.label)
    let o : OpenElement := ⟨name, ⟨offset, name.name, attributes, scope⟩, d.done⟩
    return { d with opened := o :: d.opened, done := [] }

/-- An end tag closes the innermost open element, which must have its name. Attributes that waited
are lost, but have to be well formed. -/
def endTag (d : Draft) (name : QName) : Except Fault Draft := do
  let (_, _, d) ← d.settle
  match d.opened with
  | [] => throw (.mismatchedTag name.name)
  | o :: opened =>
    unless o.name = name do throw (.mismatchedTag name.name)
    return { d with opened, done := .element o.tag d.done.reverse :: o.before }

/-- The document, once all elements are closed. -/
def finish (d : Draft) : Except Fault Tree :=
  if !d.opened.isEmpty then .error .unclosedElement
  else match d.done.reverse with
    | .element tag content :: rest => .ok ⟨⟨tag, content⟩, rest⟩
    | _ => .error .noRoot

end Draft

end TransitAudit.Xml
