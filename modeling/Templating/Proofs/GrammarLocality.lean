import Templating.Proofs.Locality

/-! # How far expressions and patterns look

No token of an expression has a closing brace in it and no token of a pattern a percent sign, so
that neither rule passes over its fence but inside quotes. -/

namespace Templating.Grammar

variable {room : Room}

/-! ## Expressions -/

instance : Local .expression boolean := by
  have : Local .expression (word "true") := local_word rfl
  have : Local .expression (word "false") := local_word rfl
  unfold boolean
  infer_instance

instance : Local .expression (token ",") := local_token rfl

instance : Local .expression (token "(") := local_token rfl

instance : Local .expression (token ")") := local_token rfl

instance : Local .expression (token "]") := local_token rfl

instance : Local .expression nextOffset where
  walks matched := by
    cases matched
    exact .refl _
  stays more cursor closed := by
    show Outcome.matched (cursor.extended more).skipSpaces.offset _ = _
    rw [skipSpaces_extended more closed]
    rfl

section

variable (inner : Grammar Expr) [Local .expression inner] [Advancing inner]

instance : Local .expression (argumentsOf inner) := by
  unfold argumentsOf
  infer_instance

instance : Local .expression (listOf inner) := by
  have : Local .expression (exact ['[']) := local_exact rfl
  unfold listOf
  infer_instance

instance : Local .expression (groupOf inner) := by
  have : Local .expression (exact ['(']) := local_exact rfl
  unfold groupOf
  infer_instance

instance : Local .expression (primaryOf inner) := by
  unfold primaryOf
  infer_instance

instance (start : Nat) (value : Expr) : Local .expression (postfixStep inner start value) := by
  have : Local .expression (token ".") := local_token rfl
  have : Local .expression (token "[") := local_token rfl
  have : Local .expression (token "?") := local_token rfl
  unfold postfixStep
  infer_instance

instance : Local .expression (postfixOf inner) := by
  unfold postfixOf
  infer_instance

instance (start : Nat) (value : Expr) : Local .expression (filterStep inner start value) := by
  have : Local .expression (token "|") := local_token rfl
  have : Local .expression (ahead fun rest => rest.head? != some '|') :=
    local_ahead_head fun _ _ _ => rfl
  unfold filterStep
  infer_instance

instance : Local .expression (filteredOf inner) := by
  unfold filteredOf
  infer_instance

instance : Local .expression unaryMark := by
  have : Local .expression (exact ['!']) := local_exact rfl
  have : Local .expression (exact ['-']) := local_exact rfl
  unfold unaryMark
  infer_instance

instance : Local .expression (unaryOf inner) := by
  rw [unaryOf_eq]
  have : ∀ (start : Nat) (op : Option UnaryOp) (operand : Expr),
      Local .expression (match op with
        | none => pure operand
        | some op => pure (.unary start op operand) : Grammar Expr) := by
    intro start op operand
    cases op <;> infer_instance
  infer_instance

instance (op : BinaryOp) : Local .expression (operator op) := by
  have symbol : op.symbol.toList.all Fence.expression.isPlain = true := by cases op <;> rfl
  have := local_token symbol
  have := local_keyword symbol
  unfold operator
  infer_instance

instance (operators : List BinaryOp) : Local .expression (operatorOf operators) := by
  induction operators with
  | nil => exact inferInstanceAs (Local .expression noMatch)
  | cons op others induction =>
      exact inferInstanceAs (Local .expression (operator op <|> operatorOf others))

instance (operand : Grammar Expr) [Local .expression operand] (operators : List BinaryOp)
    (start : Nat) (left : Expr) : Local .expression (binaryStep operand operators start left) := by
  unfold binaryStep
  infer_instance

theorem local_binaryOf (operand : Grammar Expr) [Local .expression operand] [Consuming operand]
    (layers : List (List BinaryOp)) : Local .expression (binaryOf operand layers) := by
  induction layers with
  | nil => assumption
  | cons operators tighter induction =>
      have := consuming_binaryOf operand tighter
      unfold binaryOf
      infer_instance

instance : Local .expression (operationOf inner) :=
  local_binaryOf (unaryOf inner) _

instance : Local .expression rangeMark := by
  have : Local .expression (token RangeKind.closed.symbol) := local_token rfl
  have : Local .expression (token RangeKind.halfOpen.symbol) := local_token rfl
  unfold rangeMark
  infer_instance

instance (start : Nat) (kind : Option RangeKind) (left : Option Expr) :
    Local .expression (rangeEnd inner start kind left) := by
  cases kind <;> cases left <;> (unfold rangeEnd; infer_instance)

instance : Local .expression (expressionOf inner) := by
  rw [expressionOf_eq]
  infer_instance

end

instance (brackets : Nat) : Local .expression (expressionWithin brackets) := by
  induction brackets with
  | zero => exact inferInstanceAs (Local .expression tooDeep)
  | succ brackets induction =>
      exact inferInstanceAs (Local .expression (expressionOf (expressionWithin brackets)))

instance : Local .expression expression :=
  inferInstanceAs (Local .expression (expressionWithin bracketLimit))

instance : Local .expression arguments :=
  inferInstanceAs (Local .expression (argumentsOf expression))

/-! ## Patterns -/

instance : Local .pattern boolean := by
  have : Local .pattern (word "true") := local_word rfl
  have : Local .pattern (word "false") := local_word rfl
  unfold boolean
  infer_instance

instance : Local .pattern (token ",") := local_token rfl

instance : Local .pattern (token "(") := local_token rfl

instance : Local .pattern (token ")") := local_token rfl

instance : Local .pattern literalPattern := by
  unfold literalPattern
  infer_instance

instance : Local .pattern namePattern := by
  unfold namePattern
  infer_instance

theorem local_payload {α : Type} {closing : Char} (isPlain : Fence.pattern.isPlain closing = true)
    (item : Grammar α) [Local .pattern item] [Advancing item] :
    Local .pattern (payload closing item) := by
  have : Local .pattern (token (String.singleton closing)) :=
    local_token (by simpa using isPlain)
  have : Local .pattern (ahead fun rest => rest.head? != some closing) :=
    local_ahead_head fun _ _ _ => rfl
  unfold payload
  dsimp only
  infer_instance

section

variable (inner : Grammar Pattern) [Local .pattern inner] [Advancing inner]

instance : Local .pattern (groupPattern inner) := by
  unfold groupPattern
  infer_instance

instance : Local .pattern (field inner) := by
  have : Local .pattern (token ":") := local_token rfl
  unfold field
  infer_instance

instance : Local .pattern (pathPattern inner) := by
  have : Local .pattern (keyword "with") := local_keyword rfl
  have : Local .pattern (token "\x7b") := local_token rfl
  have : Local .pattern (payload ')' inner) := local_payload rfl inner
  have : Local .pattern (payload '\x7d' (field inner)) := local_payload rfl (field inner)
  unfold pathPattern
  infer_instance

instance : Local .pattern (patternOf inner) := by
  unfold patternOf
  infer_instance

end

instance (brackets : Nat) : Local .pattern (patternWithin brackets) := by
  induction brackets with
  | zero => exact inferInstanceAs (Local .pattern tooDeep)
  | succ brackets induction =>
      exact inferInstanceAs (Local .pattern (patternOf (patternWithin brackets)))

instance : Local .pattern pattern :=
  inferInstanceAs (Local .pattern (patternWithin bracketLimit))

end Templating.Grammar
