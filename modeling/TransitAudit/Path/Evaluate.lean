import TransitAudit.Document.Node
import TransitAudit.Path.Syntax
import TransitAudit.Text.Trim

/-!
Evaluating path expressions. Each step maps the nodes found so far to further nodes; where more
than one node or alternative contributes, the results are put into document order and those
with equal places are merged.
-/

namespace TransitAudit.Path

/-- What a node is sorted by: the offset of its element, and for an attribute its local name,
so that attributes follow their owner. -/
def orderKey (n : Node) : Nat × Option String :=
  (n.start, if n.isAttribute then some n.name else none)

def keyLe : Nat × Option String → Nat × Option String → Bool
  | (s, a), (t, b) =>
    s < t || s == t && match a, b with
      | none, _ => true
      | some _, none => false
      | some x, some y => !(decide (y < x))

/-- Keeps the first of neighbours with equal keys. -/
def mergeNeighbours : List Node → List Node
  | [] => []
  | n :: ns =>
    match mergeNeighbours ns with
    | [] => [n]
    | m :: ms => if orderKey n = orderKey m then n :: ms else n :: m :: ms

/-- Document order without repeated keys. -/
def normalize (ns : List Node) : List Node :=
  mergeNeighbours (ns.mergeSort fun a b => keyLe (orderKey a) (orderKey b))

/-- The nodes a step leads to from one node, before its predicates. -/
def Step.candidates (s : Step) (n : Node) : List Node :=
  match s.axis with
  | .self => [n]
  | .parent => n.parent?.toList
  | .child => n.children.filter fun c => s.test.accepts c.name
  | .descendant => n.descendants.filter fun d => s.test.accepts d.name
  | .attribute => n.attributeNodes.filter fun a => s.test.accepts a.name

/-- Whether one node satisfies a predicate that does not count positions. A comparison with an
attribute looks at the first attribute the name test accepts. -/
def Predicate.holds : Predicate → Node → Bool
  | .hasAttribute t, n => n.attributes.any fun a => t.accepts a.name
  | .attributeIs t v, n => (n.attributes.find? fun a => t.accepts a.name).any (·.value == v)
  | .attributeIsNot t v, n => (n.attributes.find? fun a => t.accepts a.name).any (·.value != v)
  | .childIs t v, n => n.children.any fun c => t.accepts c.name && c.text == v
  | .nameContains part, n => Text.occursIn part.toList n.name.toList
  | .position _, _ => true
  | .last, _ => true

def Predicate.filter (p : Predicate) (ns : List Node) : List Node :=
  match p with
  | .position number => (ns[number - 1]?).toList
  | .last => ns.getLast?.toList
  | _ => ns.filter p.holds

/-- The nodes a step selects from one node. -/
def Step.select (s : Step) (n : Node) : List Node :=
  s.predicates.foldl (fun ns p => p.filter ns) (s.candidates n)

/-- Carries out one step from several nodes. A single node gives ordered results already. -/
def Step.selectAll (s : Step) (ns : List Node) : List Node :=
  let found := ns.flatMap s.select
  if 1 < ns.length then normalize found else found

def LocationPath.select (p : LocationPath) (n : Node) : List Node :=
  p.steps.foldl (fun ns s => s.selectAll ns) [if p.absolute then n.top else n]

end TransitAudit.Path

namespace TransitAudit

/-- The nodes an expression selects from a context node. -/
def PathExpr.evaluate (e : PathExpr) (n : Node) : List Node :=
  let found := e.alternatives.flatMap (·.select n)
  if 1 < e.alternatives.length then Path.normalize found else found

end TransitAudit
