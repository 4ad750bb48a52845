import Templating.Tree.Walk

/-! # What a tree refers to

The templates that a tree names and the blocks that it defines. -/

namespace Templating.Element

/-- The other template that an element names as a parent, a part or a source of macros. -/
def template? : Element → Option String
  | .node (.extendTemplate _ name) => some name
  | .node (.includeTemplate _ _ name) => some name
  | .node (.importMacros _ _ name _) => some name
  | _ => none

/-- The block that an element defines. -/
def block? : Element → Option String
  | .node (.block _ _ name _ _) => some name
  | _ => none

/-- The names of the templates that are named in a tree, each where it is met first. -/
def dependencies (element : Element) : List String :=
  let namesTemplate (element : Element) : Option VisitStep :=
    if element.template?.isSome then some .stop else none
  ((visited namesTemplate element).filterMap template?).eraseDups

/-- The names of the blocks of a tree, an outer block before those inside it. -/
def blockNames (element : Element) : List String :=
  element.walk.filterMap block?

end Templating.Element
