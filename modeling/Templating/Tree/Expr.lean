/-! # Expressions

Trees of expressions. The language does not evaluate them, so literals keep the text that
they were written with; a string or character keeps what stood between its quotes. Every
tree records the offset in the source at which it begins. -/

namespace Templating

/-- The kinds of literals, in expressions and in patterns alike. -/
inductive LiteralKind where
  | boolean
  | number
  | string
  | character
  deriving Repr, DecidableEq

/-- Operators between two operands, loosest binding first. -/
inductive BinaryOp where
  | or
  | and
  | equal
  | notEqual
  | greaterEqual
  | greater
  | lessEqual
  | less
  | bitOr
  | bitXor
  | bitAnd
  | shiftRight
  | shiftLeft
  | add
  | subtract
  | multiply
  | divide
  | remainder
  deriving Repr, DecidableEq

/-- How the operator is written. -/
def BinaryOp.symbol : BinaryOp → String
  | or => "||"
  | and => "&&"
  | equal => "=="
  | notEqual => "!="
  | greaterEqual => ">="
  | greater => ">"
  | lessEqual => "<="
  | less => "<"
  | bitOr => "bitor"
  | bitXor => "xor"
  | bitAnd => "bitand"
  | shiftRight => ">>"
  | shiftLeft => "<<"
  | add => "+"
  | subtract => "-"
  | multiply => "*"
  | divide => "/"
  | remainder => "%"

/-- Operators before an operand. -/
inductive UnaryOp where
  | not
  | negate
  deriving Repr, DecidableEq

def UnaryOp.symbol : UnaryOp → String
  | not => "!"
  | negate => "-"

/-- Whether a range leaves out or takes in its end. -/
inductive RangeKind where
  | halfOpen
  | closed
  deriving Repr, DecidableEq

def RangeKind.symbol : RangeKind → String
  | halfOpen => ".."
  | closed => "..="

/-- Expressions. An operator, a filter and whatever follows a primary expression begins
where its left operand does. -/
inductive Expr where
  | literal (offset : Nat) (kind : LiteralKind) (text : String)
  | var (offset : Nat) (name : String)
  /-- A qualified name. An empty first segment stands for the root. -/
  | path (offset : Nat) (segments : List String)
  | list (offset : Nat) (items : List Expr)
  | tuple (offset : Nat) (items : List Expr)
  /-- An expression in parentheses. -/
  | group (offset : Nat) (inner : Expr)
  | member (offset : Nat) (object : Expr) (name : String)
  | item (offset : Nat) (object : Expr) (key : Expr)
  | call (offset : Nat) (function : Expr) (arguments : List Expr)
  /-- A value that hands its error on. -/
  | attempt (offset : Nat) (value : Expr)
  | filter (offset : Nat) (value : Expr) (name : String) (arguments : List Expr)
  | unary (offset : Nat) (op : UnaryOp) (operand : Expr)
  | binary (offset : Nat) (op : BinaryOp) (left : Expr) (right : Expr)
  | range (offset : Nat) (kind : RangeKind) (start : Option Expr) (stop : Option Expr)
  deriving Repr

namespace Expr

/-- The offset at which the expression begins. -/
def offset : Expr → Nat
  | literal offset .. | var offset .. | path offset .. | list offset .. | tuple offset ..
  | group offset .. | member offset .. | item offset .. | call offset .. | attempt offset ..
  | filter offset .. | unary offset .. | binary offset .. | range offset .. => offset

/-! Two expressions are the same if they differ in their offsets at most. -/

mutual

def same : Expr → Expr → Bool
  | literal _ kind text, literal _ kind' text' => kind == kind' && text == text'
  | var _ name, var _ name' => name == name'
  | path _ segments, path _ segments' => segments == segments'
  | list _ items, list _ items' => sameAll items items'
  | tuple _ items, tuple _ items' => sameAll items items'
  | group _ inner, group _ inner' => inner.same inner'
  | member _ object name, member _ object' name' => object.same object' && name == name'
  | item _ object key, item _ object' key' => object.same object' && key.same key'
  | call _ function arguments, call _ function' arguments' =>
      function.same function' && sameAll arguments arguments'
  | attempt _ value, attempt _ value' => value.same value'
  | filter _ value name arguments, filter _ value' name' arguments' =>
      value.same value' && name == name' && sameAll arguments arguments'
  | unary _ op operand, unary _ op' operand' => op == op' && operand.same operand'
  | binary _ op left right, binary _ op' left' right' =>
      op == op' && left.same left' && right.same right'
  | range _ kind start stop, range _ kind' start' stop' =>
      kind == kind' && sameOption start start' && sameOption stop stop'
  | _, _ => false
termination_by structural expression => expression

def sameAll : List Expr → List Expr → Bool
  | [], [] => true
  | head :: tail, head' :: tail' => head.same head' && sameAll tail tail'
  | _, _ => false
termination_by structural expressions => expressions

def sameOption : Option Expr → Option Expr → Bool
  | none, none => true
  | some expression, some expression' => expression.same expression'
  | _, _ => false
termination_by structural expression => expression

end

end Expr

end Templating
