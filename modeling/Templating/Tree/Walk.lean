import Templating.Tree.Element

/-! # Walking a tree

A walk meets every element once, parents before their children and children in order. A
visit meets the elements in the same order, records those that it has a handler for, and
passes over what lies below an element whose handler stops it. -/

namespace Templating.Element

/-- The elements of several trees that are still to be walked, the first tree first. -/
def walkAll : (pending : List Element) → List Element
  | [] => []
  | element :: pending => element :: walkAll (element.children ++ pending)
termination_by pending => totalSize pending
decreasing_by
  have := totalSize_children element
  simp only [totalSize_append, totalSize_cons]
  omega

/-- Every element of a tree. -/
def walk (element : Element) : List Element :=
  walkAll [element]

/-- What a handler has a visit do below its element. -/
inductive VisitStep where
  | stop
  | descend
  deriving Repr, DecidableEq

/-- The elements that a visit hands to a handler. An element without one is passed
through. -/
def visited (handler : Element → Option VisitStep) (element : Element) : List Element :=
  let below := fun () => element.children.attach.flatMap fun child =>
    have := size_lt_of_mem_children child.property
    visited handler child.val
  match handler element with
  | some .stop => [element]
  | some .descend => element :: below ()
  | none => below ()
termination_by element.size

theorem visited_eq (handler : Element → Option VisitStep) (element : Element) :
    visited handler element =
      match handler element with
      | some .stop => [element]
      | some .descend => element :: element.children.flatMap (visited handler)
      | none => element.children.flatMap (visited handler) := by
  rw [visited]
  simp only [List.flatMap_subtype, List.unattach_attach]

end Templating.Element
