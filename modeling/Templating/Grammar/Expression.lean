import Templating.Grammar.Lexeme
import Templating.Tree.Expr

/-! # The grammar of expressions

From the loosest binding to the tightest an expression is a range, a chain of operators from
nine layers, an operand behind `!` or `-`, a value with filters, and a primary expression
with what follows it: attributes, items, calls and error propagation. Operators associate to
the left.

An expression never ends the parse by being malformed. Where an operator has no operand, a
bracket no partner or a filter no name, the expression ends before it, so that a `-` in
front of a closing delimiter is left to be read as a trim marker. -/

namespace Templating

namespace BinaryOp

/-- The operator is written as a word, which has to end where the operator does. -/
def isWord : BinaryOp → Bool
  | bitOr | bitXor | bitAnd => true
  | _ => false

/-- The layers of operators, loosest binding first. Within a layer an operator comes before
any that its symbol begins with. -/
def layers : List (List BinaryOp) :=
  [[or], [and], [equal, notEqual, greaterEqual, greater, lessEqual, less], [bitOr], [bitXor],
    [bitAnd], [shiftRight, shiftLeft], [add, subtract], [multiply, divide, remainder]]

end BinaryOp

/-- The room that a parse has for brackets. No rule of the grammar tells how deeply they may be
nested; the machine that the parser runs on does. -/
class Room where
  /-- How many brackets may be open at once inside an expression or a pattern. -/
  brackets : Nat

namespace Grammar

/-- How many levels there are room for, the one outside of all brackets included. -/
def bracketLimit [Room] : Nat := Room.brackets + 1

/-- An operator with blanks around it. -/
def operator (op : BinaryOp) : Grammar BinaryOp := do
  if op.isWord then
    let _ ← keyword op.symbol
  else
    token op.symbol
  return op

/-- The first of several operators that stands at the cursor. -/
def operatorOf : List BinaryOp → Grammar BinaryOp
  | [] => noMatch
  | op :: others => operator op <|> operatorOf others

/-- The offset of the next character that is not blank. -/
def nextOffset : Grammar Nat := fun cursor => .matched cursor.skipSpaces.offset cursor

/-! The rules below take the rule for what stands in brackets as `inner`. -/

section

variable (inner : Grammar Expr)

/-- Expressions in parentheses, separated by commas. -/
def argumentsOf : Grammar (List Expr) := do
  token "("
  (do token ")"; return []) <|> do
    let first ← inner
    let others ← many do
      token ","
      inner
    token ")"
    return first :: others

/-- Expressions in square brackets, separated by commas. A comma may stand behind the last
one. -/
def listOf : Grammar Expr := do
  let start ← here
  exact ['[']
  (do token "]"; return .list start []) <|> do
    let first ← inner
    let others ← many do
      token ","
      inner
    let _ ← optional (token ",")
    token "]"
    return .list start (first :: others)

/-- Parentheses: an empty tuple, an expression by itself, or a tuple. A tuple of one item
has a comma behind the item, and a longer one may have a comma at its end. -/
def groupOf : Grammar Expr := do
  let start ← here
  exact ['(']
  (do token ")"; return .tuple start []) <|> do
    let first ← inner
    (do token ")"; return .group start first) <|> do
      let others ← many do
        token ","
        inner
      if others.isEmpty then
        token ","
      else
        let _ ← optional (token ",")
      token ")"
      return .tuple start (first :: others)

/-- An expression that is no more than its first token or bracket. -/
def primaryOf : Grammar Expr := do
  let start ← here
  (do return .literal start .boolean (← boolean)) <|>
    (do return .literal start .number (← number)) <|>
    (do return .literal start .string (← string)) <|>
    (do return .literal start .character (← characterText)) <|>
    (do return .path start (← path)) <|>
    listOf inner <|>
    (do return .var start (← name)) <|>
    groupOf inner

/-- One attribute, item, call or error mark behind a value that begins at `start`. -/
def postfixStep (start : Nat) (value : Expr) : Grammar Expr :=
  (do
    token "."
    return .member start value (← nameToken)) <|>
  (do
    token "["
    let key ← inner
    token "]"
    return .item start value key) <|>
  (do return .call start value (← argumentsOf inner)) <|>
  (do
    token "?"
    return .attempt start value)

/-- A primary expression and what follows it. -/
def postfixOf : Grammar Expr := do
  spaces
  let start ← here
  let value ← primaryOf inner
  chain (postfixStep inner start) value

/-- One filter behind a value that begins at `start`. Two bars in a row are an operator and
begin no filter. A filter without well-formed arguments has none. -/
def filterStep (start : Nat) (value : Expr) : Grammar Expr := do
  token "|"
  ahead fun rest => rest.head? != some '|'
  let filter ← nameToken
  let arguments ← argumentsOf inner <|> pure []
  return .filter start value filter arguments

/-- A value with its filters. -/
def filteredOf : Grammar Expr := do
  let start ← nextOffset
  let value ← postfixOf inner
  chain (filterStep inner start) value

/-- A value with filters, perhaps behind one operator. -/
def unaryOf : Grammar Expr := do
  spaces
  let start ← here
  let op ← optional
    ((do exact ['!']; return UnaryOp.not) <|> (do exact ['-']; return UnaryOp.negate))
  let operand ← filteredOf inner
  match op with
  | none => return operand
  | some op => return .unary start op operand

/-- One operator of a layer and its right operand, which binds more tightly. -/
def binaryStep (operand : Grammar Expr) (operators : List BinaryOp) (start : Nat) (left : Expr) :
    Grammar Expr := do
  let op ← operatorOf operators
  let right ← operand
  return .binary start op left right

/-- Operands joined by the operators of the given layers, loosest binding first. -/
def binaryOf (operand : Grammar Expr) : (layers : List (List BinaryOp)) → Grammar Expr
  | [] => operand
  | operators :: tighter => do
      let start ← nextOffset
      let left ← binaryOf operand tighter
      chain (binaryStep (binaryOf operand tighter) operators start) left

/-- Everything but a range. -/
def operationOf : Grammar Expr :=
  binaryOf (unaryOf inner) BinaryOp.layers

/-- How a range is written. -/
def rangeMark : Grammar RangeKind :=
  (do token RangeKind.closed.symbol; return .closed) <|>
  (do token RangeKind.halfOpen.symbol; return .halfOpen)

/-- An expression with the blanks around it. Either end of a range may be left open. -/
def expressionOf : Grammar Expr := do
  spaces
  let start ← here
  let left ← optional (operationOf inner)
  let kind ← optional rangeMark
  match kind, left with
  | some kind, left =>
      let right ← optional (operationOf inner)
      spaces
      return .range start kind left right
  | none, some value =>
      spaces
      return value
  | none, none => noMatch

end

/-- An expression on at most so many levels, the one outside of all brackets included. -/
def expressionWithin : (brackets : Nat) → Grammar Expr
  | 0 => tooDeep
  | brackets + 1 => expressionOf (expressionWithin brackets)

/-- An expression with the blanks around it. -/
def expression [Room] : Grammar Expr :=
  expressionWithin bracketLimit

/-- Expressions in parentheses, separated by commas. -/
def arguments [Room] : Grammar (List Expr) :=
  argumentsOf expression

end Grammar

end Templating
