import Templating.Grammar.Pattern
import Templating.Proofs.QualifiedName

/-! # Progress

No rule for a lexeme, an expression or a pattern goes back, and whatever one of them matches is
at least one character. The steps of every chain and every rule that is repeated therefore read
something. -/

namespace Templating.Grammar

variable {room : Room}

open Text

/-! ## Lexemes -/

theorem consuming_token {symbol : String} (isSymbol : isSymbol symbol = true) :
    Consuming (token symbol) := by
  have : Consuming (exact symbol.toList) := by
    apply consuming_exact
    intro empty
    simp [Text.isSymbol, empty] at isSymbol
  exact inferInstanceAs (Consuming (spaced (exact symbol.toList)))

instance (symbol : String) : Advancing (token symbol) :=
  inferInstanceAs (Advancing (spaced (exact symbol.toList)))

instance : Advancing endOfWord :=
  inferInstanceAs (Advancing (ahead _))

instance (text : String) : Advancing (word text) :=
  inferInstanceAs (Advancing (exact text.toList >>= fun _ => endOfWord >>= fun _ => pure text))

instance (text : String) : Advancing (keyword text) :=
  inferInstanceAs (Advancing (spaced (word text)))

theorem consuming_word {text : String} (isName : isName text.toList = true) :
    Consuming (word text) := by
  have : Consuming (exact text.toList) := by
    apply consuming_exact
    intro empty
    simp [Text.isName, empty] at isName
  exact inferInstanceAs (Consuming (exact text.toList >>= fun _ => endOfWord >>= fun _ =>
    pure text))

theorem consuming_keyword {text : String} (isName : isName text.toList = true) :
    Consuming (keyword text) := by
  have := consuming_word isName
  exact inferInstanceAs (Consuming (spaced (word text)))

instance : Consuming nameToken :=
  inferInstanceAs (Consuming (spaced name))

instance : Consuming boolean :=
  have : Consuming (word "true") := consuming_word rfl
  have : Consuming (word "false") := consuming_word rfl
  inferInstanceAs (Consuming (word "true" <|> word "false"))

instance : Advancing fraction :=
  inferInstanceAs (Advancing (exact ['.'] >>= fun _ => character isDigit >>= fun first =>
    characters isDigit >>= fun others => pure (first :: others)))

instance : Consuming number := by
  rw [number_eq]
  infer_instance

instance (quote : Char) : Advancing (body quote) :=
  ⟨fun {cursor _ _} matched => by
    unfold body at matched
    split at matched
    case h_1 value found =>
        cases matched
        rcases quotedBody?_eq_some found with ⟨_, rest, shape⟩
        exact cursor.reaches_advance (by simp [shape])
    case h_2 => cases matched⟩

instance (quote : Char) : Consuming (between quote) := by
  rw [between_eq]
  infer_instance

instance : Consuming string := inferInstanceAs (Consuming (between '"'))

instance : Consuming characterText := inferInstanceAs (Consuming (between '\''))

instance : Consuming stringToken := inferInstanceAs (Consuming (spaced string))

instance : Consuming path := by
  rw [path_eq]
  infer_instance

instance : Advancing marker :=
  ⟨fun {cursor _ _} matched => by
    rcases cursor with ⟨offset, rest⟩
    unfold marker at matched
    dsimp only at matched
    split at matched
    · split at matched
      · cases matched
        exact Cursor.reaches_advance _ (by simp)
      · cases matched
    · cases matched⟩

instance : Advancing edge := inferInstanceAs (Advancing (optional marker))

/-! ## Expressions -/

section

variable (inner : Grammar Expr) [Advancing inner]

instance : Consuming (token ",") := consuming_token rfl

/-- A further expression behind a comma. -/
def furtherItem (inner : Grammar Expr) : Grammar Expr := do
  token ","
  inner

instance : Consuming (furtherItem inner) :=
  inferInstanceAs (Consuming (token "," >>= fun _ => inner))

instance : Consuming (argumentsOf inner) :=
  have : Consuming (token "(") := consuming_token rfl
  by unfold argumentsOf; infer_instance

instance : Consuming (listOf inner) := by
  unfold listOf
  infer_instance

instance : Consuming (groupOf inner) := by
  unfold groupOf
  infer_instance

instance : Consuming (primaryOf inner) := by
  unfold primaryOf
  infer_instance

instance (start : Nat) (value : Expr) : Consuming (postfixStep inner start value) := by
  have : Consuming (token ".") := consuming_token rfl
  have : Consuming (token "[") := consuming_token rfl
  have : Consuming (token "?") := consuming_token rfl
  unfold postfixStep
  infer_instance

instance : Consuming (postfixOf inner) := by
  unfold postfixOf
  infer_instance

instance (start : Nat) (value : Expr) : Consuming (filterStep inner start value) := by
  have : Consuming (token "|") := consuming_token rfl
  unfold filterStep
  infer_instance

instance : Advancing nextOffset :=
  ⟨fun {cursor _ _} matched => by
    cases matched
    exact .refl cursor⟩

instance : Consuming (filteredOf inner) := by
  unfold filteredOf
  infer_instance

/-- An operator before its operand. -/
def unaryMark : Grammar UnaryOp :=
  (do exact ['!']; return .not) <|> (do exact ['-']; return .negate)

theorem unaryOf_eq (inner : Grammar Expr) : unaryOf inner = (do
    spaces
    let start ← here
    let op ← optional unaryMark
    let operand ← filteredOf inner
    match op with
    | none => return operand
    | some op => return .unary start op operand) := rfl

instance : Consuming unaryMark :=
  inferInstanceAs (Consuming ((exact ['!'] >>= fun _ => pure UnaryOp.not) <|>
    (exact ['-'] >>= fun _ => pure UnaryOp.negate)))

instance : Consuming (unaryOf inner) := by
  rw [unaryOf_eq]
  have : ∀ (start : Nat) (op : Option UnaryOp) (operand : Expr),
      Advancing (match op with
        | none => pure operand
        | some op => pure (.unary start op operand) : Grammar Expr) := by
    intro start op operand
    cases op <;> infer_instance
  infer_instance

instance (op : BinaryOp) : Consuming (operator op) := by
  have symbol : isSymbol op.symbol = true := by cases op <;> rfl
  have := consuming_token symbol
  unfold operator
  split
  case isTrue isWord =>
      have : Consuming (keyword op.symbol) :=
        consuming_keyword (by cases op <;> first | rfl | cases isWord)
      infer_instance
  case isFalse => infer_instance

instance (operators : List BinaryOp) : Consuming (operatorOf operators) := by
  induction operators with
  | nil => exact inferInstanceAs (Consuming noMatch)
  | cons op others induction =>
      exact inferInstanceAs (Consuming (operator op <|> operatorOf others))

instance (operand : Grammar Expr) [Advancing operand] (operators : List BinaryOp) (start : Nat)
    (left : Expr) : Consuming (binaryStep operand operators start left) := by
  unfold binaryStep
  infer_instance

theorem consuming_binaryOf (operand : Grammar Expr) [Consuming operand]
    (layers : List (List BinaryOp)) : Consuming (binaryOf operand layers) := by
  induction layers with
  | nil => assumption
  | cons operators tighter induction =>
      unfold binaryOf
      infer_instance

instance : Consuming (operationOf inner) :=
  consuming_binaryOf (unaryOf inner) _

instance : Consuming rangeMark := by
  have : Consuming (token RangeKind.closed.symbol) := consuming_token rfl
  have : Consuming (token RangeKind.halfOpen.symbol) := consuming_token rfl
  unfold rangeMark
  infer_instance

/-- The rest of an expression, once it is read what stands to the left of the mark of a range and
whether there is such a mark. -/
def rangeEnd (inner : Grammar Expr) (start : Nat) : Option RangeKind → Option Expr → Grammar Expr
  | some kind, left => do
      let right ← optional (operationOf inner)
      spaces
      return .range start kind left right
  | none, some value => do
      spaces
      return value
  | none, none => noMatch

omit [Advancing inner] in
theorem expressionOf_eq : expressionOf inner = (do
    spaces
    let start ← here
    let left ← optional (operationOf inner)
    let kind ← optional rangeMark
    rangeEnd inner start kind left) := rfl

instance : Consuming (expressionOf inner) :=
  ⟨fun {cursor value later} matched => by
    simp only [expressionOf, bind_eq_matched, here_eq_matched] at matched
    rcases matched with ⟨_, begun, blanks, offset, _, ⟨_, rfl⟩, left, middle, leftRead, kind,
      between, marked, matched⟩
    have first := Advancing.reaches blanks
    rcases optional_eq_matched.mp marked with ⟨kind, rfl, mark⟩ | ⟨rfl, rfl, _⟩
    · simp only [bind_eq_matched, pure_eq_matched] at matched
      rcases matched with ⟨right, stopped, rightRead, _, _, blanks', rfl, rfl⟩
      exact ((first.trans (Advancing.reaches leftRead)).trans_passes
        (Consuming.passes mark)).trans_reaches
          ((Advancing.reaches rightRead).trans (Advancing.reaches blanks'))
    · rcases optional_eq_matched.mp leftRead with ⟨value, rfl, read⟩ | ⟨rfl, rfl, _⟩
      · simp only [bind_eq_matched, pure_eq_matched] at matched
        rcases matched with ⟨_, _, blanks', rfl, rfl⟩
        exact (first.trans_passes (Consuming.passes read)).trans_reaches
          (Advancing.reaches blanks')
      · cases matched⟩

end

instance (brackets : Nat) : Consuming (expressionWithin brackets) := by
  induction brackets with
  | zero => exact inferInstanceAs (Consuming tooDeep)
  | succ brackets induction =>
      exact inferInstanceAs (Consuming (expressionOf (expressionWithin brackets)))

instance : Consuming expression :=
  inferInstanceAs (Consuming (expressionWithin bracketLimit))

instance : Consuming arguments :=
  inferInstanceAs (Consuming (argumentsOf expression))

/-! ## Patterns -/

instance : Consuming literalPattern := by
  unfold literalPattern
  infer_instance

instance : Consuming namePattern := by
  unfold namePattern
  infer_instance

instance {α : Type} (closing : Char) (item : Grammar α) [Advancing item] :
    Advancing (payload closing item) := by
  unfold payload
  dsimp only
  infer_instance

section

variable (inner : Grammar Pattern) [Advancing inner]

instance : Consuming (groupPattern inner) := by
  have : Consuming (token "(") := consuming_token rfl
  unfold groupPattern
  infer_instance

instance : Consuming (field inner) := by
  unfold field
  infer_instance

instance : Consuming (pathPattern inner) := by
  unfold pathPattern
  infer_instance

instance : Consuming (patternOf inner) := by
  unfold patternOf
  infer_instance

end

instance (brackets : Nat) : Consuming (patternWithin brackets) := by
  induction brackets with
  | zero => exact inferInstanceAs (Consuming tooDeep)
  | succ brackets induction =>
      exact inferInstanceAs (Consuming (patternOf (patternWithin brackets)))

instance : Consuming pattern :=
  inferInstanceAs (Consuming (patternWithin bracketLimit))

end Templating.Grammar
