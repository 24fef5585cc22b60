import TransitAudit.Document.Navigate
import TransitAudit.Proofs.Path.Order

/-! Looking up nodes and texts by a path that can be read. Such a look-up never ends a run: nodes
that are missing give an empty list or no text. -/
namespace TransitAudit.Node

theorem nodesAt_of_parse_ok {path : String} {e : PathExpr} (he : PathExpr.parse path = .ok e)
    (n : Node) : n.nodesAt path = .ok (e.evaluate n) := by
  rw [nodesAt, Node.select, he]
  rfl

theorem nodesAt_of_parse {path : String} {p : Path.LocationPath}
    (hp : PathExpr.parse path = .ok ⟨path, [p]⟩) (n : Node) : n.nodesAt path = .ok (p.select n) := by
  rw [nodesAt_of_parse_ok hp, Path.evaluate_singleton]

theorem stringAt?_of_parse_ok {path : String} {e : PathExpr} (he : PathExpr.parse path = .ok e)
    (n : Node) : n.stringAt? path = .ok ((e.evaluate n).head?.map (·.text)) := by
  have hfirst : n.first path = n.firstOf e := by
    rw [first, he]
    rfl
  rw [stringAt?, textAt?, textAt, hfirst, firstOf]
  cases e.evaluate n <;> rfl

/-! Children by their name -/

/-- The child elements with a local name. -/
def childrenNamed (n : Node) (name : String) : List Node :=
  n.children.filter fun m => name == m.name

theorem childStep_select (name : String) (n : Node) :
    Path.LocationPath.select ⟨false, [⟨.child, .named name, []⟩]⟩ n = n.childrenNamed name :=
  List.append_nil _

/-- As a path, the name leads to the children that have it. -/
def NamesChildren (name : String) : Prop :=
  PathExpr.parse name = .ok ⟨name, [⟨false, [⟨.child, .named name, []⟩]⟩]⟩

theorem stringAt?_of_namesChildren {name : String} (h : NamesChildren name) (n : Node) :
    n.stringAt? name = .ok ((n.childrenNamed name).head?.map (·.text)) := by
  rw [stringAt?_of_parse_ok h, Path.evaluate_singleton, childStep_select]

theorem childrenNamed_sublist (n : Node) (name : String) :
    (n.childrenNamed name).Sublist n.children :=
  List.filter_sublist

/-- A step to children that have an attribute leads to the children on which it can be looked up. -/
theorem holds_hasAttribute {name : String} (h : Path.localName name = name) (n : Node) :
    Path.Predicate.holds (.hasAttribute (.named name)) n = (n.attr? name).isSome := by
  rw [attr?, Option.isSome_map, List.isSome_find?, h]
  simp only [Path.Predicate.holds, Path.NameTest.accepts, Bool.beq_comm]

end TransitAudit.Node
