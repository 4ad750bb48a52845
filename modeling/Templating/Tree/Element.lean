import Templating.Tree.Node

/-! # Elements of a tree

Whatever has a place of its own in a tree is an element of it: the template, its nodes,
their branches, conditions and arms, and every expression and pattern. -/

namespace Templating

inductive Element where
  | template (inner : Template)
  | node (inner : Node)
  | branch (inner : Branch)
  | condition (inner : Condition)
  | arm (inner : Arm)
  | expr (inner : Expr)
  | pattern (inner : Pattern)
  deriving Repr

namespace Element

/-- The offset at which the element begins. -/
def offset : Element → Nat
  | .template _ => 0
  | .node inner => inner.offset
  | .branch inner => inner.offset
  | .condition inner => inner.offset
  | .arm inner => inner.offset
  | .expr inner => inner.offset
  | .pattern inner => inner.offset

end Element

namespace Expr

/-- The expressions directly inside an expression, in the order in which it is written. -/
def children : Expr → List Expr
  | literal .. | var .. | path .. => []
  | list _ items | tuple _ items => items
  | group _ inner => [inner]
  | member _ object _ => [object]
  | item _ object key => [object, key]
  | call _ function arguments => function :: arguments
  | attempt _ value => [value]
  | filter _ value _ arguments => value :: arguments
  | unary _ _ operand => [operand]
  | binary _ _ left right => [left, right]
  | range _ _ start stop => start.toList ++ stop.toList

end Expr

namespace Pattern

/-- The patterns directly inside a pattern. -/
def children : Pattern → List Pattern
  | name .. | path .. | literal .. => []
  | tuple _ _ items => items
  | record _ _ fields => fields.map Field.pattern

end Pattern

namespace Node

/-- The elements directly inside a node. -/
def children : Node → List Element
  | text .. | comment .. | raw .. | breakLoop .. | continueLoop .. | extendTemplate ..
  | includeTemplate .. | importMacros .. => []
  | output _ _ expression => [.expr expression]
  | conditional _ branches _ => branches.map .branch
  | loop _ _ pattern iterable guard body _ alternative _ =>
      .pattern pattern :: .expr iterable :: guard.toList.map .expr ++ body.map .node ++
        alternative.map .node
  | choice _ _ subject arms _ => .expr subject :: arms.map .arm
  | macroDef _ _ _ _ body _ => body.map .node
  | macroCall _ _ _ _ arguments => arguments.map .expr
  | assign _ _ pattern value => [.pattern pattern, .expr value]
  | declare _ _ pattern => [.pattern pattern]
  | block _ _ _ body _ => body.map .node

end Node

namespace Element

/-- The elements directly inside an element, in the order in which it is written. -/
def children : Element → List Element
  | .template inner => inner.body.map .node
  | .node inner => inner.children
  | .branch inner => inner.condition.toList.map .condition ++ inner.body.map .node
  | .condition inner => inner.pattern.toList.map .pattern ++ [.expr inner.expression]
  | .arm inner => .pattern inner.pattern :: inner.body.map .node
  | .expr inner => inner.children.map .expr
  | .pattern inner => inner.children.map .pattern

/-! ## Size

An element is larger than all its children together, which is why trees can be walked. -/

noncomputable def size : Element → Nat
  | .template inner => sizeOf inner
  | .node inner => sizeOf inner
  | .branch inner => sizeOf inner
  | .condition inner => sizeOf inner
  | .arm inner => sizeOf inner
  | .expr inner => sizeOf inner
  | .pattern inner => sizeOf inner

noncomputable def totalSize : List Element → Nat
  | [] => 0
  | head :: tail => size head + totalSize tail

@[simp] theorem totalSize_nil : totalSize [] = 0 := rfl

@[simp] theorem totalSize_cons (head : Element) (tail : List Element) :
    totalSize (head :: tail) = size head + totalSize tail := rfl

@[simp] theorem totalSize_append (left right : List Element) :
    totalSize (left ++ right) = totalSize left + totalSize right := by
  induction left with
  | nil => simp
  | cons head tail induction =>
      simp only [List.cons_append, totalSize_cons, induction]
      omega

theorem size_le_totalSize {element : Element} {elements : List Element}
    (member : element ∈ elements) : size element ≤ totalSize elements := by
  induction elements with
  | nil => simp at member
  | cons head tail induction =>
      rcases List.mem_cons.mp member with rfl | member
      · simp
      · have := induction member
        simp only [totalSize_cons]
        omega

private theorem totalSize_map {α : Type} [SizeOf α] (embed : α → Element)
    (size_embed : ∀ value, size (embed value) = sizeOf value) (values : List α) :
    totalSize (values.map embed) < sizeOf values := by
  induction values with
  | nil => simp
  | cons head tail induction =>
      simp only [List.map_cons, totalSize_cons, size_embed, List.cons.sizeOf_spec]
      omega

private theorem totalSize_map_toList {α : Type} [SizeOf α] (embed : α → Element)
    (size_embed : ∀ value, size (embed value) = sizeOf value) (value : Option α) :
    totalSize (value.toList.map embed) < sizeOf value := by
  cases value <;> simp [size_embed]

private theorem totalSize_exprs (exprs : List Expr) :
    totalSize (exprs.map .expr) < sizeOf exprs :=
  totalSize_map _ (fun _ => rfl) exprs

private theorem totalSize_nodes (nodes : List Node) :
    totalSize (nodes.map .node) < sizeOf nodes :=
  totalSize_map _ (fun _ => rfl) nodes

private theorem totalSize_fields (fields : List Field) :
    totalSize ((fields.map Field.pattern).map .pattern) < sizeOf fields := by
  induction fields with
  | nil => simp
  | cons head tail induction =>
      obtain ⟨name, pattern⟩ := head
      simp only [List.map_cons, totalSize_cons, List.cons.sizeOf_spec, Field.mk.sizeOf_spec, size]
      omega

private theorem totalSize_children_expr (expr : Expr) :
    totalSize (expr.children.map .expr) < sizeOf expr := by
  cases expr with
  | list offset items | tuple offset items =>
      have := totalSize_exprs items
      simp [Expr.children]
      omega
  | call offset function arguments =>
      have := totalSize_exprs arguments
      simp [Expr.children, size]
      omega
  | filter offset value name arguments =>
      have := totalSize_exprs arguments
      simp [Expr.children, size]
      omega
  | range offset kind start stop =>
      have := totalSize_map_toList Element.expr (fun _ => rfl) start
      have := totalSize_map_toList Element.expr (fun _ => rfl) stop
      simp [Expr.children]
      omega
  | _ =>
      simp [Expr.children, size]
      try omega

private theorem totalSize_children_pattern (pattern : Pattern) :
    totalSize (pattern.children.map .pattern) < sizeOf pattern := by
  cases pattern with
  | tuple offset path items =>
      have := totalSize_map Element.pattern (fun _ => rfl) items
      simp [Pattern.children]
      omega
  | record offset path fields =>
      have := totalSize_fields fields
      simp only [Pattern.children, Pattern.record.sizeOf_spec]
      omega
  | _ =>
      simp [Pattern.children]
      try omega

private theorem totalSize_children_node (node : Node) :
    totalSize node.children < sizeOf node := by
  cases node with
  | conditional offset branches closing =>
      have := totalSize_map Element.branch (fun _ => rfl) branches
      simp [Node.children]
      omega
  | loop offset opening pattern iterable guard body middle alternative closing =>
      have := totalSize_nodes body
      have := totalSize_nodes alternative
      have := totalSize_map_toList Element.expr (fun _ => rfl) guard
      simp [Node.children, size]
      omega
  | choice offset opening subject arms closing =>
      have := totalSize_map Element.arm (fun _ => rfl) arms
      simp [Node.children, size]
      omega
  | macroDef offset name opening parameters body closing =>
      have := totalSize_nodes body
      simp [Node.children]
      omega
  | macroCall offset edges scope name arguments =>
      have := totalSize_exprs arguments
      simp [Node.children]
      omega
  | block offset opening name body closing =>
      have := totalSize_nodes body
      simp [Node.children]
      omega
  | _ =>
      simp [Node.children, size]
      try omega

theorem totalSize_children (element : Element) : totalSize element.children < size element := by
  cases element with
  | template template =>
      have := totalSize_nodes template.body
      obtain ⟨body, name⟩ := template
      simp [children, size] at *
      omega
  | node node => exact totalSize_children_node node
  | branch branch =>
      obtain ⟨offset, edges, condition, body⟩ := branch
      have := totalSize_map_toList Element.condition (fun _ => rfl) condition
      have := totalSize_nodes body
      simp [children, size]
      omega
  | condition condition =>
      obtain ⟨offset, pattern, expression⟩ := condition
      have := totalSize_map_toList Element.pattern (fun _ => rfl) pattern
      simp [children, size]
      omega
  | arm arm =>
      obtain ⟨offset, edges, pattern, body⟩ := arm
      have := totalSize_nodes body
      simp [children, size]
      omega
  | expr expr => exact totalSize_children_expr expr
  | pattern pattern => exact totalSize_children_pattern pattern

/-- A child is smaller than its parent. -/
theorem size_lt_of_mem_children {child element : Element} (member : child ∈ element.children) :
    size child < size element :=
  Nat.lt_of_le_of_lt (size_le_totalSize member) (totalSize_children element)

end Element

end Templating
