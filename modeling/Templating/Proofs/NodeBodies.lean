import Templating.Proofs.Walking

/-! # The bodies of a tree

Every node of a template lies in some body: in that of the template, or in one that another node
holds. A walk from a node meets all that lies in its bodies. -/

namespace Templating

/-- The bodies directly inside a node. -/
def Node.bodies : Node → List (List Node)
  | conditional _ branches _ => branches.map Branch.body
  | loop _ _ _ _ _ body _ alternative _ => [body, alternative]
  | choice _ _ _ arms _ => arms.map Arm.body
  | macroDef _ _ _ _ body _ | block _ _ _ body _ => [body]
  | text .. | comment .. | output .. | raw .. | breakLoop .. | continueLoop .. | macroCall ..
  | assign .. | declare .. | extendTemplate .. | includeTemplate .. | importMacros .. => []

namespace Element

variable {element root : Element} {node inner : Node} {nodes : List Node}

/-- The text that an element holds: a run of text between tags, or raw text. -/
def passage? : Element → Option Passage
  | .node (.text _ passage) | .node (.raw _ _ passage _) => some passage
  | _ => none

theorem mem_walk_of_mem_children (child : element ∈ root.children) : element ∈ root.walk :=
  walkAll_children_subset (mem_walkAll_of_mem child)

theorem walk_subset_walk (member : element ∈ root.walk) : element.walk ⊆ root.walk :=
  walk_subset_walkAll member

theorem mem_walk_of_mem_body (body : nodes ∈ node.bodies) (member : inner ∈ nodes) :
    .node inner ∈ (Element.node node).walk := by
  have direct (among : Element.node inner ∈ node.children) :
      .node inner ∈ (Element.node node).walk :=
    mem_walk_of_mem_children among
  have among : Element.node inner ∈ nodes.map .node := List.mem_map_of_mem member
  cases node with
  | conditional offset branches closing =>
      rcases List.mem_map.mp body with ⟨branch, isBranch, rfl⟩
      have child : Element.branch branch ∈ (Element.node (.conditional offset branches closing)).children :=
        List.mem_map_of_mem isBranch
      apply walk_subset_walk (mem_walk_of_mem_children child)
      exact mem_walk_of_mem_children (List.mem_append_right _ among)
  | choice offset opening subject arms closing =>
      rcases List.mem_map.mp body with ⟨arm, isArm, rfl⟩
      have child : Element.arm arm ∈
          (Element.node (.choice offset opening subject arms closing)).children :=
        List.mem_cons_of_mem _ (List.mem_map_of_mem isArm)
      apply walk_subset_walk (mem_walk_of_mem_children child)
      exact mem_walk_of_mem_children (List.mem_cons_of_mem _ among)
  | loop offset opening pattern iterable guard loopBody middle alternative closing =>
      apply direct
      rcases List.mem_cons.mp body with rfl | body
      · exact List.mem_append_left _ (List.mem_append_right _ among)
      · rw [List.mem_singleton.mp body] at among
        exact List.mem_append_right _ among
  | macroDef | block =>
      apply direct
      rwa [List.mem_singleton.mp body] at among
  | _ => cases body

/-- A walk from a template meets all that lies in its body. -/
theorem mem_walk_template {template : Template} (member : inner ∈ template.body) :
    .node inner ∈ (Element.template template).walk :=
  mem_walk_of_mem_children (List.mem_map_of_mem member)

end Element

/-- The texts that are written in a template outside of its tags and comments. -/
def Template.passages (template : Template) : List Passage :=
  (Element.template template).walk.filterMap Element.passage?

end Templating
