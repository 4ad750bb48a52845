import Templating.Proofs.NodeBodies

/-! # The nodes of a walk

A walk from a node meets that node first and then the nodes of its bodies. What is told of all the
nodes of a tree is therefore told by the bodies that hold them, whatever stands in its tags. -/

namespace Templating

namespace Element

def node? : Element → Option Node
  | .node inner => some inner
  | _ => none

/-- The nodes of several trees, in the order in which a walk meets them. -/
def nodes (elements : List Element) : List Node :=
  (walkAll elements).filterMap node?

@[simp] theorem nodes_nil : nodes [] = [] := by
  simp [nodes, walkAll]

theorem nodes_append (elements others : List Element) :
    nodes (elements ++ others) = nodes elements ++ nodes others := by
  rw [nodes, walkAll_append, List.filterMap_append]
  rfl

theorem nodes_cons (element : Element) (elements : List Element) :
    nodes (element :: elements) = nodes [element] ++ nodes elements :=
  nodes_append [element] elements

theorem nodes_singleton (element : Element) :
    nodes [element] = element.node?.toList ++ nodes element.children := by
  rw [nodes, walkAll, List.append_nil, List.filterMap_cons]
  cases element.node? <;> rfl

/-- No node stands in an expression, a pattern or a condition. -/
theorem nodes_eq_nil_of_isPlain {elements : List Element}
    (plain : ∀ element ∈ elements, isPlain element = true) : nodes elements = [] := by
  fun_induction walkAll elements with
  | case1 => exact nodes_nil
  | case2 element pending induction =>
      rw [List.forall_mem_cons] at plain
      have none : element.node? = none := by
        cases element <;> first | rfl | cases plain.1
      rw [nodes_cons, nodes_singleton, none, Option.toList_none, List.nil_append, ← nodes_append]
      apply induction
      intro other member
      rcases List.mem_append.mp member with child | member
      · exact isPlain_of_mem_children plain.1 child
      · exact plain.2 other member

theorem nodes_plain_append (plain elements : List Element)
    (isPlain : ∀ element ∈ plain, isPlain element = true) :
    nodes (plain ++ elements) = nodes elements := by
  rw [nodes_append, nodes_eq_nil_of_isPlain isPlain, List.nil_append]

/-- Branches and arms are met with the nodes of their bodies. -/
theorem nodes_map_eq {α : Type} {embed : α → Element} {body : α → List Node}
    (each : ∀ value, nodes [embed value] = nodes ((body value).map .node)) (values : List α) :
    nodes (values.map embed) = nodes ((values.map body).flatten.map .node) := by
  induction values with
  | nil => rfl
  | cons value values induction =>
      rw [List.map_cons, nodes_cons, each, induction, List.map_cons, List.flatten_cons,
        List.map_append, nodes_append]

theorem nodes_branch (branch : Branch) : nodes [.branch branch] = nodes (branch.body.map .node) := by
  rw [nodes_singleton]
  exact nodes_plain_append (branch.condition.toList.map .condition) _ (by simp [isPlain])

theorem nodes_arm (arm : Arm) : nodes [.arm arm] = nodes (arm.body.map .node) := by
  rw [nodes_singleton]
  exact nodes_plain_append [.pattern arm.pattern] _ (by simp [isPlain])

/-- A walk from a node meets that node, and then what lies in its bodies. -/
theorem nodes_node (node : Node) :
    nodes [.node node] = node :: nodes (node.bodies.flatten.map .node) := by
  rw [nodes_singleton]
  apply congrArg (node :: ·)
  cases node with
  | conditional offset branches closing => exact nodes_map_eq nodes_branch branches
  | choice offset opening subject arms closing =>
      exact (nodes_plain_append [.expr subject] _ (by simp [isPlain])).trans
        (nodes_map_eq nodes_arm arms)
  | loop offset opening pattern iterable guard body middle alternative closing =>
      have plain := nodes_plain_append (.pattern pattern :: .expr iterable :: guard.toList.map .expr)
        (body.map .node ++ alternative.map .node) (by simp [isPlain])
      simpa [children, Node.children, Node.bodies] using plain
  | macroDef | block => simp [children, Node.children, Node.bodies]
  | _ =>
      refine (nodes_eq_nil_of_isPlain ?_).trans nodes_nil.symm
      simp [children, Node.children, isPlain]

end Element

namespace Node

/-- The nodes of a body and of the bodies inside it. -/
def within (nodes : List Node) : List Node :=
  Element.nodes (nodes.map .node)

@[simp] theorem within_nil : within [] = [] := Element.nodes_nil

theorem within_append (nodes others : List Node) :
    within (nodes ++ others) = within nodes ++ within others := by
  rw [within, List.map_append, Element.nodes_append]
  rfl

theorem within_cons (node : Node) (nodes : List Node) :
    within (node :: nodes) = node :: within node.bodies.flatten ++ within nodes := by
  rw [within, List.map_cons, Element.nodes_cons, Element.nodes_node]
  rfl

theorem within_singleton (node : Node) : within [node] = node :: within node.bodies.flatten := by
  rw [within_cons, within_nil, List.append_nil]

theorem flatMap_within (nodes : List Node) :
    nodes.flatMap (fun node => within [node]) = within nodes := by
  induction nodes with
  | nil => rw [within_nil, List.flatMap_nil]
  | cons node nodes induction =>
      rw [List.flatMap_cons, induction, ← within_append, List.singleton_append]

theorem within_perm {nodes others : List Node} (same : nodes.Perm others) :
    (within nodes).Perm (within others) := by
  rw [← flatMap_within nodes, ← flatMap_within others]
  exact same.flatMap_right _

/-- The bodies that the nodes of a body hold, and those inside them. -/
def bodiesWithin (nodes : List Node) : List (List Node) :=
  (within nodes).flatMap bodies

@[simp] theorem bodiesWithin_nil : bodiesWithin [] = [] := by
  simp [bodiesWithin]

theorem bodiesWithin_append (nodes others : List Node) :
    bodiesWithin (nodes ++ others) = bodiesWithin nodes ++ bodiesWithin others := by
  rw [bodiesWithin, within_append, List.flatMap_append]
  rfl

theorem bodiesWithin_singleton (node : Node) :
    bodiesWithin [node] = node.bodies ++ bodiesWithin node.bodies.flatten := by
  rw [bodiesWithin, within_singleton, List.flatMap_cons]
  rfl

theorem bodiesWithin_singleton_perm {node : Node} {written : List (List Node)}
    (same : node.bodies.Perm written) :
    (bodiesWithin [node]).Perm (written ++ bodiesWithin written.flatten) := by
  rw [bodiesWithin_singleton]
  exact same.append ((within_perm same.flatten).flatMap_right _)

end Node

/-- The nodes of a template, in the order in which a walk meets them. -/
def Template.nodes (template : Template) : List Node :=
  (Element.template template).walk.filterMap Element.node?

theorem Template.nodes_eq (template : Template) : template.nodes = Node.within template.body := by
  show Element.nodes [.template template] = _
  rw [Element.nodes_singleton]
  rfl

/-- The bodies of a template: its own, and those that its nodes hold. -/
def Template.bodies (template : Template) : List (List Node) :=
  template.body :: template.nodes.flatMap Node.bodies

end Templating
