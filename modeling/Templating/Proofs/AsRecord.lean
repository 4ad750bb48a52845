import Templating.Proofs.Dependencies
import Templating.Proofs.Traversal

/-! # Elements as records

The record of an element has the records of the element's children as its children, so everything that
is found by way of records is found in the tree of elements as well. -/

namespace Templating

open Content

/-! ## Contents -/

@[simp] theorem Expr.contents_eq (expressions : List Expr) :
    Expr.contents expressions = expressions.map fun expression => .record expression.asRecord := by
  induction expressions with
  | nil => rfl
  | cons head tail induction => rw [Expr.contents, induction, List.map_cons]

@[simp] theorem Pattern.contents_eq (patterns : List Pattern) :
    Pattern.contents patterns = patterns.map fun pattern => .record pattern.asRecord := by
  induction patterns with
  | nil => rfl
  | cons head tail induction => rw [Pattern.contents, induction, List.map_cons]

@[simp] theorem Field.contents_eq (fields : List Field) :
    Field.contents fields = fields.map fun field =>
      .sequence [.text field.name, .record field.pattern.asRecord] := by
  induction fields with
  | nil => rfl
  | cons head tail induction =>
      rw [Field.contents, induction, List.map_cons]
      cases head
      rfl

@[simp] theorem Node.contents_eq (nodes : List Node) :
    Node.contents nodes = nodes.map fun node => .record node.asRecord := by
  induction nodes with
  | nil => rfl
  | cons head tail induction => rw [Node.contents, induction, List.map_cons]

@[simp] theorem Branch.contents_eq (branches : List Branch) :
    Branch.contents branches = branches.map fun branch => .record branch.asRecord := by
  induction branches with
  | nil => rfl
  | cons head tail induction => rw [Branch.contents, induction, List.map_cons]

@[simp] theorem Arm.contents_eq (arms : List Arm) :
    Arm.contents arms = arms.map fun arm => .record arm.asRecord := by
  induction arms with
  | nil => rfl
  | cons head tail induction => rw [Arm.contents, induction, List.map_cons]

namespace Content

@[simp] theorem recordsAll_map {α : Type} (asRecord : α → Record) (values : List α) :
    recordsAll (values.map fun value => .record (asRecord value)) = values.map asRecord := by
  induction values with
  | nil => rfl
  | cons head tail induction => rw [List.map_cons, recordsAll, induction]; rfl

@[simp] theorem recordsAll_fields (fields : List Field) :
    recordsAll (fields.map fun field =>
      .sequence [.text field.name, .record field.pattern.asRecord]) =
        fields.map fun field => field.pattern.asRecord := by
  induction fields with
  | nil => rfl
  | cons head tail induction => rw [List.map_cons, recordsAll, induction]; rfl

@[simp] theorem records_expr? (expression : Option Expr) :
    (Expr.content? expression).records = expression.toList.map Expr.asRecord := by
  cases expression <;> rfl

@[simp] theorem records_pattern? (pattern : Option Pattern) :
    (Pattern.content? pattern).records = pattern.toList.map Pattern.asRecord := by
  cases pattern <;> rfl

@[simp] theorem records_condition? (condition : Option Condition) :
    (Condition.content? condition).records = condition.toList.map Condition.asRecord := by
  cases condition <;> rfl

end Content

namespace Element

theorem children_expr (expression : Expr) :
    expression.asRecord.children = expression.children.map Expr.asRecord := by
  cases expression <;>
    simp [Expr.asRecord, NodeClass.build, NodeClass.attributes, Record.children,
      Record.derivedAttributes, Expr.children, Content.records]

theorem children_pattern (pattern : Pattern) :
    pattern.asRecord.children = pattern.children.map Pattern.asRecord := by
  cases pattern <;>
    simp [Pattern.asRecord, NodeClass.build, NodeClass.attributes, Record.children,
      Record.derivedAttributes, Pattern.children, Content.records]

theorem children_node (node : Node) :
    node.asRecord.children = node.children.map Element.asRecord := by
  cases node <;>
    simp [Node.asRecord, NodeClass.build, NodeClass.attributes, Record.children,
      Record.derivedAttributes, Node.children, Content.records, Passage.contents, Element.asRecord,
      Function.comp_def]

theorem children_asRecord (element : Element) :
    element.asRecord.children = element.children.map asRecord := by
  cases element with
  | node node => exact children_node node
  | expr expression =>
      rw [asRecord, children_expr, children, List.map_map]
      rfl
  | pattern pattern =>
      rw [asRecord, children_pattern, children, List.map_map]
      rfl
  | branch branch =>
      cases branch
      simp [asRecord, Branch.asRecord, NodeClass.build, NodeClass.attributes, Record.children,
        Record.derivedAttributes, children, Content.records, Function.comp_def]
  | arm arm =>
      cases arm
      simp [asRecord, Arm.asRecord, NodeClass.build, NodeClass.attributes, Record.children,
        Record.derivedAttributes, children, Content.records, Function.comp_def]
  | template | condition =>
      simp [asRecord, Template.asRecord, Condition.asRecord, NodeClass.build, NodeClass.attributes,
        Record.children, Record.derivedAttributes, children, Content.records, Function.comp_def]

theorem walk_asRecord (element : Element) : element.asRecord.walk = element.walk.map asRecord := by
  induction size : element.size using Nat.strongRecOn generalizing element with
  | ind _ induction =>
      have below : element.children.flatMap (fun child => child.asRecord.walk) =
          (walkAll element.children).map asRecord := by
        have smaller : ∀ child ∈ element.children, child.asRecord.walk = child.walk.map asRecord :=
          fun child member =>
            induction child.size (size ▸ size_lt_of_mem_children member) child rfl
        generalize element.children = children at smaller
        induction children with
        | nil => simp [walkAll]
        | cons head tail others =>
            rw [List.forall_mem_cons] at smaller
            rw [List.flatMap_cons, smaller.1, others smaller.2, walkAll_cons, List.map_append]
      rw [Record.walk_eq, walk_eq, children_asRecord, List.flatMap_map, below, List.map_cons]

/-! ## Declared attributes -/

end Element

/-- A record that is built from contents that fit is as its class declares. -/
theorem NodeClass.isDeclared_build {kind : NodeClass} {offset : Nat} {contents : List Content}
    (fit : List.Forall₂ (fun declared content => content.Fits declared.2) kind.attributes contents) :
    (kind.build offset contents).IsDeclared := by
  rw [Record.IsDeclared, build]
  dsimp only
  generalize kind.attributes = attributes at fit
  induction fit with
  | nil => exact .nil
  | cons fits _ induction => exact .cons ⟨rfl, fits⟩ induction

namespace Element

@[simp] theorem fits_text (text : String) : (Content.text text).Fits .text := ⟨text, rfl⟩

@[simp] theorem fits_data : Content.data.Fits .data := rfl

@[simp] theorem fits_elements (content : Content) : content.Fits .elements := trivial

theorem isDeclared_asRecord (element : Element) : element.asRecord.IsDeclared := by
  cases element with
  | node node =>
      cases node <;>
        exact NodeClass.isDeclared_build (by simp [NodeClass.attributes, Passage.contents])
  | expr expression =>
      cases expression <;> exact NodeClass.isDeclared_build (by simp [NodeClass.attributes])
  | pattern pattern =>
      cases pattern <;> exact NodeClass.isDeclared_build (by simp [NodeClass.attributes])
  | branch branch =>
      cases branch
      exact NodeClass.isDeclared_build (by simp [NodeClass.attributes])
  | arm arm =>
      cases arm
      exact NodeClass.isDeclared_build (by simp [NodeClass.attributes])
  | template | condition => exact NodeClass.isDeclared_build (by simp [NodeClass.attributes])

theorem isBuilt_asRecord (element : Element) : element.asRecord.IsBuilt := by
  intro inner member
  rw [walk_asRecord] at member
  rcases List.mem_map.mp member with ⟨element', _, rfl⟩
  exact isDeclared_asRecord element'

theorem template?_asRecord (element : Element) : element.asRecord.template? = element.template? := by
  cases element with
  | node node => cases node <;> rfl
  | expr expression => cases expression <;> rfl
  | pattern pattern => cases pattern <;> rfl
  | branch branch => cases branch; rfl
  | arm arm => cases arm; rfl
  | template | condition => rfl

theorem block?_asRecord (element : Element) : element.asRecord.block? = element.block? := by
  cases element with
  | node node => cases node <;> rfl
  | expr expression => cases expression <;> rfl
  | pattern pattern => cases pattern <;> rfl
  | branch branch => cases branch; rfl
  | arm arm => cases arm; rfl
  | template | condition => rfl

theorem dependencies_asRecord (element : Element) :
    element.asRecord.dependencies = element.dependencies := by
  rw [Record.dependencies, DependencyWalker.analyze_eq _ (isBuilt_asRecord element), walk_asRecord,
    dependencies_eq_walk, List.filterMap_map]
  congr 2
  exact funext template?_asRecord

theorem blockNames_asRecord (element : Element) :
    element.asRecord.blockNames = element.blockNames := by
  rw [Record.blockNames, walk_asRecord, blockNames, List.filterMap_map]
  congr 1
  exact funext block?_asRecord

end Element

/-! ## Agreement -/

namespace Record

/-- Traversals agree on every tree that is built as its classes declare, whatever it is built of. The
tree of every element is built so, and what is told of its records is what is told of its elements. -/
theorem traversals_agree :
    (∀ record : Record, record.IsBuilt → record.TraversalsAgree) ∧
      ∀ element : Element, element.asRecord.IsBuilt ∧
        element.asRecord.walk = element.walk.map Element.asRecord ∧
        element.asRecord.dependencies = element.dependencies ∧
        element.asRecord.blockNames = element.blockNames :=
  ⟨fun _ built => built.traversalsAgree, fun element =>
    ⟨element.isBuilt_asRecord, element.walk_asRecord, element.dependencies_asRecord,
      element.blockNames_asRecord⟩⟩

/-- A template that names another one twice, and its own parent in between. -/
def navigation : Template where
  body := [.includeTemplate 0 {} "nav", .extendTemplate 21 "base", .includeTemplate 42 {} "nav"]

/-- A block in which a whole template stands, as it does in no parsed tree. -/
def blockAroundTemplate : Record :=
  NodeClass.block.build 0
    [.data, .text "page", .sequence [.record (Element.template navigation).asRecord], .data]

theorem traversals_agree_blockAroundTemplate :
    blockAroundTemplate.IsBuilt ∧ blockAroundTemplate.TraversalsAgree ∧
      (DependencyWalker.analyze { seen := ["base"] } blockAroundTemplate).1 = ["nav", "base"] := by
  have below : blockAroundTemplate.children = [(Element.template navigation).asRecord] := rfl
  have built : blockAroundTemplate.IsBuilt := by
    refine isBuilt_iff.mpr ⟨NodeClass.isDeclared_build (by simp [NodeClass.attributes]), ?_⟩
    rw [below, List.forall_mem_singleton]
    exact Element.isBuilt_asRecord _
  have agree := traversals_agree.1 blockAroundTemplate built
  refine ⟨built, agree, ?_⟩
  rw [agree.collected, walk_eq, below, List.flatMap_singleton, Element.walk_asRecord, Element.walk_eq]
  simp only [Element.children, navigation, Element.walkAll, Node.children, List.map_cons, List.map_nil,
    List.nil_append]
  rfl

end Record

end Templating
