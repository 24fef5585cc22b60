import Mathlib.Data.List.Flatten
import TransitAudit.Document.Node

/-! The nodes of a document. Going up, down or to the attributes of a node of a document stays
inside that document: this is what every path expression rests on. -/
namespace TransitAudit

open Xml

/-! The elements inside some content -/

mutual

/-- What stands inside an element of some content stands inside that content, in the same order. -/
theorem placesIn_below {e : Element} {above : List Element} (base : List Element) :
    ∀ cs : List Content, Place.element e above ∈ placesIn base cs →
      (placesIn (e :: above) e.content).Sublist (placesIn base cs)
  | [], he => by simp [placesIn] at he
  | c :: cs, he => by
    rw [placesIn, List.mem_append] at he
    rw [placesIn]
    rcases he with he | he
    · exact (placesOf_below base c he).trans (List.sublist_append_left _ _)
    · exact (placesIn_below base cs he).trans (List.sublist_append_right _ _)

theorem placesOf_below {e : Element} {above : List Element} (base : List Element) :
    ∀ c : Content, Place.element e above ∈ placesOf base c →
      (placesIn (e :: above) e.content).Sublist (placesOf base c)
  | .text _, he => by simp [placesOf] at he
  | .element tag content, he => by
    rw [placesOf, List.mem_cons] at he
    rw [placesOf]
    -- the element itself, or one further in
    rcases he with he | he
    · obtain ⟨rfl, rfl⟩ := Place.element.inj he
      exact List.sublist_cons_self _ _
    · exact (placesIn_below (⟨tag, content⟩ :: base) content he).trans (List.sublist_cons_self _ _)

end

mutual

/-- An element of some content has nothing but the surroundings of that content above it, or else
the element right above it is one of that content too. -/
theorem placesIn_above {e : Element} {above : List Element} (base : List Element) :
    ∀ cs : List Content, Place.element e above ∈ placesIn base cs →
      above = base ∨ ∃ p rest, above = p :: rest ∧ Place.element p rest ∈ placesIn base cs
  | [], he => by simp [placesIn] at he
  | c :: cs, he => by
    rw [placesIn, List.mem_append] at he
    simp only [placesIn, List.mem_append]
    rcases he with he | he
    · rcases placesOf_above base c he with h | ⟨p, rest, h, hp⟩
      · exact Or.inl h
      · exact Or.inr ⟨p, rest, h, Or.inl hp⟩
    · rcases placesIn_above base cs he with h | ⟨p, rest, h, hp⟩
      · exact Or.inl h
      · exact Or.inr ⟨p, rest, h, Or.inr hp⟩

theorem placesOf_above {e : Element} {above : List Element} (base : List Element) :
    ∀ c : Content, Place.element e above ∈ placesOf base c →
      above = base ∨ ∃ p rest, above = p :: rest ∧ Place.element p rest ∈ placesOf base c
  | .text _, he => by simp [placesOf] at he
  | .element tag content, he => by
    rw [placesOf, List.mem_cons] at he
    simp only [placesOf, List.mem_cons]
    rcases he with he | he
    · obtain ⟨-, rfl⟩ := Place.element.inj he
      exact Or.inl rfl
    · -- the surroundings of the inner content are those of the element and the element itself
      rcases placesIn_above (⟨tag, content⟩ :: base) content he with rfl | ⟨p, rest, h, hp⟩
      · exact Or.inr ⟨⟨tag, content⟩, base, rfl, Or.inl rfl⟩
      · exact Or.inr ⟨p, rest, h, Or.inr hp⟩

end

mutual

theorem exists_element_of_mem_placesIn {p : Place} (base : List Element) :
    ∀ cs : List Content, p ∈ placesIn base cs → ∃ e above, p = .element e above
  | [], hp => by simp [placesIn] at hp
  | c :: cs, hp => by
    rw [placesIn, List.mem_append] at hp
    rcases hp with hp | hp
    · exact exists_element_of_mem_placesOf base c hp
    · exact exists_element_of_mem_placesIn base cs hp

theorem exists_element_of_mem_placesOf {p : Place} (base : List Element) :
    ∀ c : Content, p ∈ placesOf base c → ∃ e above, p = .element e above
  | .text _, hp => by simp [placesOf] at hp
  | .element tag content, hp => by
    rw [placesOf, List.mem_cons] at hp
    rcases hp with rfl | hp
    · exact ⟨_, _, rfl⟩
    · exact exists_element_of_mem_placesIn (⟨tag, content⟩ :: base) content hp

end

/-! The nodes of a document -/

namespace ParsedDocument

def documentNode (d : ParsedDocument) : Node :=
  ⟨d, .document⟩

/-- All elements of a document, in document order. -/
def elements (d : ParsedDocument) : List Node :=
  d.documentNode.descendants

/-- The nodes of a document: itself, its elements and their attributes. -/
inductive Holds (d : ParsedDocument) : Node → Prop
  | document : d.Holds d.documentNode
  | element {n : Node} : n ∈ d.elements → d.Holds n
  | attributeOf {n a : Node} : n ∈ d.elements → a ∈ n.attributeNodes → d.Holds a

theorem mem_elements_iff {d : ParsedDocument} {n : Node} :
    n ∈ d.elements ↔
      ∃ e above, n = ⟨d, .element e above⟩ ∧ Place.element e above ∈ placesIn [] d.tree.content := by
  simp only [elements, documentNode, Node.descendants, List.mem_map]
  constructor
  · rintro ⟨p, hp, rfl⟩
    obtain ⟨e, above, rfl⟩ := exists_element_of_mem_placesIn [] _ hp
    exact ⟨e, above, rfl, hp⟩
  · rintro ⟨e, above, rfl, hp⟩
    exact ⟨_, hp, rfl⟩

theorem rootNode_mem_elements (d : ParsedDocument) : d.rootNode ∈ d.elements := by
  rw [mem_elements_iff]
  exact ⟨d.tree.root, [], rfl, List.mem_append_left _ List.mem_cons_self⟩

theorem Holds.document_eq {d : ParsedDocument} {n : Node} (hn : d.Holds n) : n.document = d := by
  cases hn with
  | document => rfl
  | element hn =>
    obtain ⟨e, above, rfl, -⟩ := mem_elements_iff.mp hn
    rfl
  | attributeOf hn ha =>
    obtain ⟨e, above, rfl, -⟩ := mem_elements_iff.mp hn
    obtain ⟨a, -, rfl⟩ := List.mem_map.mp ha
    rfl

theorem Holds.top {d : ParsedDocument} {n : Node} (hn : d.Holds n) : n.top = d.documentNode := by
  rw [Node.top, hn.document_eq, documentNode]

theorem Holds.parent {d : ParsedDocument} {n p : Node} (hn : d.Holds n) (hp : n.parent? = some p) :
    d.Holds p := by
  cases hn with
  | document => simp [documentNode, Node.parent?] at hp
  | element hn =>
    obtain ⟨e, above, rfl, he⟩ := mem_elements_iff.mp hn
    -- nothing is above the root element, and so its parent is the document
    rcases placesIn_above [] _ he with rfl | ⟨q, rest, rfl, hq⟩
    · obtain rfl : d.documentNode = p := by simpa [Node.parent?, Node.top, documentNode] using hp
      exact .document
    · obtain rfl : (⟨d, .element q rest⟩ : Node) = p := by simpa [Node.parent?] using hp
      exact .element (mem_elements_iff.mpr ⟨q, rest, rfl, hq⟩)
  | attributeOf hn ha =>
    obtain ⟨e, above, rfl, he⟩ := mem_elements_iff.mp hn
    obtain ⟨a, -, rfl⟩ := List.mem_map.mp ha
    obtain rfl : (⟨d, .element e above⟩ : Node) = p := by simpa [Node.parent?] using hp
    exact .element hn

theorem Holds.descendant {d : ParsedDocument} {n m : Node} (hn : d.Holds n)
    (hm : m ∈ n.descendants) : d.Holds m := by
  cases hn with
  | document => exact .element hm
  | element hn =>
    obtain ⟨e, above, rfl, he⟩ := mem_elements_iff.mp hn
    obtain ⟨p, hp, rfl⟩ := List.mem_map.mp hm
    obtain ⟨e', above', rfl⟩ := exists_element_of_mem_placesIn _ _ hp
    exact .element (mem_elements_iff.mpr ⟨e', above', rfl, (placesIn_below [] _ he).subset hp⟩)
  | attributeOf hn ha =>
    obtain ⟨e, above, rfl, he⟩ := mem_elements_iff.mp hn
    obtain ⟨a, -, rfl⟩ := List.mem_map.mp ha
    simp [Node.descendants] at hm

theorem Holds.attributeNode {d : ParsedDocument} {n a : Node} (hn : d.Holds n)
    (ha : a ∈ n.attributeNodes) : d.Holds a := by
  cases hn with
  | document => simp [documentNode, Node.attributeNodes] at ha
  | element hn => exact .attributeOf hn ha
  | attributeOf hn hb =>
    obtain ⟨e, above, rfl, he⟩ := mem_elements_iff.mp hn
    obtain ⟨b, -, rfl⟩ := List.mem_map.mp hb
    simp [Node.attributeNodes] at ha

end ParsedDocument

/-- What is inside an element comes in the order of the whole document. -/
theorem ParsedDocument.descendants_sublist_elements {d : ParsedDocument} {n : Node}
    (hn : n ∈ d.elements) : n.descendants.Sublist d.elements := by
  obtain ⟨e, above, rfl, he⟩ := mem_elements_iff.mp hn
  exact (placesIn_below [] _ he).map _

theorem map_placesIn (d : ParsedDocument) (base : List Element) (cs : List Content) :
    (placesIn base cs).map (⟨d, ·⟩ : Place → Node) =
      ((cs.filterMap Element.ofContent?).map fun e => ⟨d, .element e base⟩).flatMap
        fun n => n :: n.descendants := by
  induction cs with
  | nil => rfl
  | cons c cs ih =>
    rw [placesIn, List.map_append, ih]
    cases c with
    | text value => rfl
    | element tag content =>
      rw [placesOf]
      rfl

/-- Inside a node are its children, each ahead of what is inside of it. -/
theorem Node.descendants_eq_flatMap (n : Node) :
    n.descendants = n.children.flatMap fun c => c :: c.descendants := by
  rcases n with ⟨d, _ | ⟨e, above⟩ | ⟨a, owner, above⟩⟩
  · exact map_placesIn d [] d.tree.content
  · exact map_placesIn d (e :: above) e.content
  · rfl

/-- The children of a node are the nearest of its descendants. -/
theorem Node.children_sublist_descendants (n : Node) : n.children.Sublist n.descendants := by
  have h : (n.children.flatMap fun c => [c]).Sublist
      (n.children.flatMap fun c => c :: c.descendants) :=
    List.Sublist.flatMap_right _ fun c _ => (List.nil_sublist _).cons_cons c
  rwa [List.flatMap_singleton', ← descendants_eq_flatMap] at h

/-- The children of all its children come in document order, too. -/
theorem Node.flatMap_children_sublist_descendants (n : Node) :
    (n.children.flatMap children).Sublist n.descendants := by
  rw [descendants_eq_flatMap]
  apply List.Sublist.flatMap_right
  exact fun c _ => c.children_sublist_descendants.cons c

end TransitAudit
