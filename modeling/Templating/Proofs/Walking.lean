import Templating.Tree.References

/-! # Walks by parts

The walk of several trees is the walk of each of them in turn. What a walk meets can therefore
be told from the parts of a tree, and with it what the tree refers to. -/

namespace Templating.Element

variable {element other : Element} {elements others : List Element}

theorem walkAll_append (elements others : List Element) :
    walkAll (elements ++ others) = walkAll elements ++ walkAll others := by
  fun_induction walkAll elements with
  | case1 => rfl
  | case2 element pending induction =>
      rw [List.cons_append, walkAll, ← List.append_assoc, induction, List.cons_append]

theorem walk_eq (element : Element) : element.walk = element :: walkAll element.children := by
  rw [walk, walkAll, List.append_nil]

theorem walkAll_cons (element : Element) (elements : List Element) :
    walkAll (element :: elements) = element.walk ++ walkAll elements :=
  walkAll_append [element] elements

theorem mem_walk_self (element : Element) : element ∈ element.walk := by
  rw [walk_eq]
  exact List.mem_cons_self

theorem mem_walkAll_of_mem (member : element ∈ elements) : element ∈ walkAll elements := by
  induction elements with
  | nil => cases member
  | cons head tail induction =>
      rw [walkAll_cons]
      rcases List.mem_cons.mp member with rfl | member
      · exact List.mem_append_left _ (mem_walk_self element)
      · exact List.mem_append_right _ (induction member)

theorem mem_walkAll_iff : other ∈ walkAll elements ↔ ∃ element ∈ elements, other ∈ element.walk := by
  induction elements with
  | nil => simp [walkAll]
  | cons head tail induction => simp [walkAll_cons, induction]

/-- What is walked below a child is walked below its parent. -/
theorem walkAll_children_subset : walkAll element.children ⊆ element.walk := by
  rw [walk_eq]
  exact List.subset_cons_self _ _

/-- What is walked below an element is walked with it. -/
theorem walk_subset_walkAll (member : element ∈ walkAll elements) :
    element.walk ⊆ walkAll elements := by
  fun_induction walkAll elements with
  | case1 => cases member
  | case2 head pending induction =>
      rcases List.mem_cons.mp member with rfl | member
      · rw [walk_eq, walkAll_append]
        exact List.cons_subset_cons _ (List.subset_append_left _ _)
      · exact List.subset_cons_of_subset _ (induction member)

/-! ## References -/

/-- The elements that name another template, in the order in which a walk meets them. -/
def references (elements : List Element) : List Element :=
  (walkAll elements).filter fun element => element.template?.isSome

@[simp] theorem references_nil : references [] = [] := by
  simp [references, walkAll]

theorem references_append (elements others : List Element) :
    references (elements ++ others) = references elements ++ references others := by
  rw [references, walkAll_append, List.filter_append]
  rfl

theorem references_cons (element : Element) (elements : List Element) :
    references (element :: elements) = references [element] ++ references elements :=
  references_append [element] elements

theorem references_singleton (element : Element) :
    references [element] =
      if element.template?.isSome then element :: references element.children
      else references element.children := by
  rw [references, walkAll, List.append_nil, List.filter_cons]
  rfl

theorem references_of_template?_eq_none (noTemplate : element.template? = none) :
    references [element] = references element.children := by
  rw [references_singleton, noTemplate]
  rfl

theorem children_eq_nil_of_template? {name : String} (names : element.template? = some name) :
    element.children = [] := by
  cases element with
  | node node => cases node <;> first | rfl | cases names
  | _ => cases names

/-- Expressions, patterns and conditions name no template. -/
def isPlain : Element → Bool
  | .expr _ | .pattern _ | .condition _ => true
  | .template _ | .node _ | .branch _ | .arm _ => false

theorem template?_eq_none_of_isPlain (plain : isPlain element = true) :
    element.template? = none := by
  cases element <;> first | rfl | cases plain

theorem isPlain_of_mem_children (plain : isPlain element = true)
    (child : other ∈ element.children) : isPlain other = true := by
  cases element with
  | expr expr =>
      rcases List.mem_map.mp child with ⟨_, _, rfl⟩
      rfl
  | pattern pattern =>
      rcases List.mem_map.mp child with ⟨_, _, rfl⟩
      rfl
  | condition condition =>
      rcases List.mem_append.mp child with child | child
      · rcases List.mem_map.mp child with ⟨_, _, rfl⟩
        rfl
      · cases List.mem_singleton.mp child
        rfl
  | template | node | branch | arm => cases plain

theorem references_eq_nil_of_isPlain (plain : ∀ element ∈ elements, isPlain element = true) :
    references elements = [] := by
  fun_induction walkAll elements with
  | case1 => exact references_nil
  | case2 element pending induction =>
      rw [List.forall_mem_cons] at plain
      rw [references_cons,
        references_of_template?_eq_none (template?_eq_none_of_isPlain plain.1),
        ← references_append]
      apply induction
      intro other member
      rcases List.mem_append.mp member with child | member
      · exact isPlain_of_mem_children plain.1 child
      · exact plain.2 other member

theorem flatMap_references (elements : List Element) :
    elements.flatMap (fun element => references [element]) = references elements := by
  induction elements with
  | nil => simp
  | cons head tail induction => rw [List.flatMap_cons, induction, ← references_cons]

/-- A visit that stops at every element that names a template meets all of them, because none of
them has children. -/
theorem visited_eq_references (element : Element) :
    visited (fun element => if element.template?.isSome then some .stop else none) element =
      references [element] := by
  induction size : element.size using Nat.strongRecOn generalizing element with
  | ind _ induction =>
      rw [visited_eq]
      cases names : element.template? with
      | some name =>
          rw [references_singleton, names, children_eq_nil_of_template? names]
          simp
      | none =>
          rw [references_of_template?_eq_none names, ← flatMap_references]
          simp only [Option.isSome_none, Bool.false_eq_true, if_false]
          have below : ∀ child ∈ element.children,
              visited (fun element => if element.template?.isSome then some .stop else none) child =
                references [child] := by
            intro child member
            exact induction child.size (size ▸ size_lt_of_mem_children member) child rfl
          rw [List.flatMap_def, List.flatMap_def, List.map_congr_left below]

theorem dependencies_eq (element : Element) :
    element.dependencies = ((references [element]).filterMap template?).eraseDups := by
  rw [dependencies, visited_eq_references]

end Templating.Element
