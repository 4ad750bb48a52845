import Templating.Tree.Expr

/-! # Patterns

Patterns take values apart and bind names. They stand in assignments, loops, conditions and
the arms of a choice. -/

namespace Templating

mutual

inductive Pattern where
  /-- A name that is bound. The name `_` binds nothing. -/
  | name (offset : Nat) (name : String)
  /-- A qualified name without a payload. -/
  | path (offset : Nat) (segments : List String)
  /-- Items by position. A bare tuple has an empty path. -/
  | tuple (offset : Nat) (path : List String) (items : List Pattern)
  /-- Items by name. -/
  | record (offset : Nat) (path : List String) (fields : List Field)
  | literal (offset : Nat) (kind : LiteralKind) (text : String)

structure Field where
  name : String
  pattern : Pattern

end

deriving instance Repr for Pattern, Field

namespace Pattern

/-- The offset at which the pattern begins. -/
def offset : Pattern → Nat
  | name offset .. | path offset .. | tuple offset .. | record offset .. | literal offset .. =>
      offset

end Pattern

/-! Two patterns are the same if they differ in their offsets at most. -/

mutual

def Pattern.same : Pattern → Pattern → Bool
  | .name _ name, .name _ name' => name == name'
  | .path _ segments, .path _ segments' => segments == segments'
  | .tuple _ path items, .tuple _ path' items' => path == path' && Pattern.sameAll items items'
  | .record _ path fields, .record _ path' fields' => path == path' && Field.sameAll fields fields'
  | .literal _ kind text, .literal _ kind' text' => kind == kind' && text == text'
  | _, _ => false
termination_by structural pattern => pattern

def Pattern.sameAll : List Pattern → List Pattern → Bool
  | [], [] => true
  | head :: tail, head' :: tail' => head.same head' && Pattern.sameAll tail tail'
  | _, _ => false
termination_by structural patterns => patterns

def Field.same : Field → Field → Bool
  | ⟨name, pattern⟩, ⟨name', pattern'⟩ => name == name' && pattern.same pattern'
termination_by structural field => field

def Field.sameAll : List Field → List Field → Bool
  | [], [] => true
  | head :: tail, head' :: tail' => head.same head' && Field.sameAll tail tail'
  | _, _ => false
termination_by structural fields => fields

end

end Templating
