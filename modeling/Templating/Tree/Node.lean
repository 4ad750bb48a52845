import Templating.Tree.Trim
import Templating.Tree.Pattern

/-! # Templates

A template is a sequence of nodes: text, tags, and constructs that hold bodies of their own.
A tag records the offset of its opening delimiter, a run of text that of its first
character. -/

namespace Templating

/-- What decides a branch: an expression, or an expression that a pattern is matched
with. -/
structure Condition where
  offset : Nat
  pattern : Option Pattern
  expression : Expr
  deriving Repr

mutual

inductive Node where
  | text (offset : Nat) (passage : Passage)
  /-- A comment. What it said is dropped. -/
  | comment (offset : Nat) (edges : Edges)
  | output (offset : Nat) (edges : Edges) (expression : Expr)
  /-- Text in which nothing is a tag. -/
  | raw (offset : Nat) (opening : Edges) (passage : Passage) (closing : Edges)
  | conditional (offset : Nat) (branches : List Branch) (closing : Edges)
  /-- A loop. If it has an alternative, `middle` belongs to the tag that begins it; if not,
  `middle.left` and `closing.right` are the markers of the closing tag. -/
  | loop (offset : Nat) (opening : Edges) (pattern : Pattern) (iterable : Expr)
      (guard : Option Expr) (body : List Node) (middle : Edges) (alternative : List Node)
      (closing : Edges)
  | choice (offset : Nat) (opening : Edges) (subject : Expr) (arms : List Arm) (closing : Edges)
  | breakLoop (offset : Nat) (edges : Edges)
  | continueLoop (offset : Nat) (edges : Edges)
  | macroDef (offset : Nat) (name : String) (opening : Edges) (parameters : List String)
      (body : List Node) (closing : Edges)
  | macroCall (offset : Nat) (edges : Edges) (scope : Option String) (name : String)
      (arguments : List Expr)
  | assign (offset : Nat) (edges : Edges) (pattern : Pattern) (value : Expr)
  | declare (offset : Nat) (edges : Edges) (pattern : Pattern)
  | extendTemplate (offset : Nat) (template : String)
  | block (offset : Nat) (opening : Edges) (name : String) (body : List Node) (closing : Edges)
  | includeTemplate (offset : Nat) (edges : Edges) (template : String)
  | importMacros (offset : Nat) (edges : Edges) (template : String) (scope : String)

/-- A branch of a conditional. Without a condition it is taken when no other is. -/
structure Branch where
  offset : Nat
  edges : Edges
  condition : Option Condition
  body : List Node

/-- An arm of a choice. -/
structure Arm where
  offset : Nat
  edges : Edges
  pattern : Pattern
  body : List Node

end

deriving instance Repr for Node, Branch, Arm

namespace Node

/-- The offset at which the node begins. -/
def offset : Node → Nat
  | text offset .. | comment offset .. | output offset .. | raw offset .. | conditional offset ..
  | loop offset .. | choice offset .. | breakLoop offset .. | continueLoop offset ..
  | macroDef offset .. | macroCall offset .. | assign offset .. | declare offset ..
  | extendTemplate offset .. | block offset .. | includeTemplate offset ..
  | importMacros offset .. => offset

def isExtension : Node → Bool
  | extendTemplate .. => true
  | _ => false

end Node

/-- A whole template, under the name that it was asked for by. -/
structure Template where
  body : List Node
  name : Option String := none
  deriving Repr

namespace Template

/-- The node that names the template's parent: the first of its kind at the top level. -/
def extension? (template : Template) : Option Node :=
  template.body.find? Node.isExtension

end Template

/-! Two trees are the same if they differ in their offsets at most. -/

namespace Pattern

def sameOption : Option Pattern → Option Pattern → Bool
  | none, none => true
  | some pattern, some pattern' => pattern.same pattern'
  | _, _ => false

end Pattern

namespace Condition

def same (condition condition' : Condition) : Bool :=
  Pattern.sameOption condition.pattern condition'.pattern &&
    condition.expression.same condition'.expression

def sameOption : Option Condition → Option Condition → Bool
  | none, none => true
  | some condition, some condition' => condition.same condition'
  | _, _ => false

end Condition

mutual

def Node.same : Node → Node → Bool
  | .text _ passage, .text _ passage' => passage == passage'
  | .comment _ edges, .comment _ edges' => edges == edges'
  | .output _ edges expression, .output _ edges' expression' =>
      edges == edges' && expression.same expression'
  | .raw _ opening passage closing, .raw _ opening' passage' closing' =>
      opening == opening' && passage == passage' && closing == closing'
  | .conditional _ branches closing, .conditional _ branches' closing' =>
      Branch.sameAll branches branches' && closing == closing'
  | .loop _ opening pattern iterable guard body middle alternative closing,
    .loop _ opening' pattern' iterable' guard' body' middle' alternative' closing' =>
      opening == opening' && pattern.same pattern' && iterable.same iterable' &&
        Expr.sameOption guard guard' && Node.sameAll body body' && middle == middle' &&
        Node.sameAll alternative alternative' && closing == closing'
  | .choice _ opening subject arms closing, .choice _ opening' subject' arms' closing' =>
      opening == opening' && subject.same subject' && Arm.sameAll arms arms' && closing == closing'
  | .breakLoop _ edges, .breakLoop _ edges' => edges == edges'
  | .continueLoop _ edges, .continueLoop _ edges' => edges == edges'
  | .macroDef _ name opening parameters body closing,
    .macroDef _ name' opening' parameters' body' closing' =>
      name == name' && opening == opening' && parameters == parameters' &&
        Node.sameAll body body' && closing == closing'
  | .macroCall _ edges scope name arguments, .macroCall _ edges' scope' name' arguments' =>
      edges == edges' && scope == scope' && name == name' && Expr.sameAll arguments arguments'
  | .assign _ edges pattern value, .assign _ edges' pattern' value' =>
      edges == edges' && pattern.same pattern' && value.same value'
  | .declare _ edges pattern, .declare _ edges' pattern' =>
      edges == edges' && pattern.same pattern'
  | .extendTemplate _ template, .extendTemplate _ template' => template == template'
  | .block _ opening name body closing, .block _ opening' name' body' closing' =>
      opening == opening' && name == name' && Node.sameAll body body' && closing == closing'
  | .includeTemplate _ edges template, .includeTemplate _ edges' template' =>
      edges == edges' && template == template'
  | .importMacros _ edges template scope, .importMacros _ edges' template' scope' =>
      edges == edges' && template == template' && scope == scope'
  | _, _ => false
termination_by structural node => node

def Node.sameAll : List Node → List Node → Bool
  | [], [] => true
  | head :: tail, head' :: tail' => head.same head' && Node.sameAll tail tail'
  | _, _ => false
termination_by structural nodes => nodes

def Branch.same : Branch → Branch → Bool
  | ⟨_, edges, condition, body⟩, ⟨_, edges', condition', body'⟩ =>
      edges == edges' && Condition.sameOption condition condition' && Node.sameAll body body'
termination_by structural branch => branch

def Branch.sameAll : List Branch → List Branch → Bool
  | [], [] => true
  | head :: tail, head' :: tail' => head.same head' && Branch.sameAll tail tail'
  | _, _ => false
termination_by structural branches => branches

def Arm.same : Arm → Arm → Bool
  | ⟨_, edges, pattern, body⟩, ⟨_, edges', pattern', body'⟩ =>
      edges == edges' && pattern.same pattern' && Node.sameAll body body'
termination_by structural arm => arm

def Arm.sameAll : List Arm → List Arm → Bool
  | [], [] => true
  | head :: tail, head' :: tail' => head.same head' && Arm.sameAll tail tail'
  | _, _ => false
termination_by structural arms => arms

end

namespace Template

def same (template template' : Template) : Bool :=
  Node.sameAll template.body template'.body && template.name == template'.name

end Template

end Templating
