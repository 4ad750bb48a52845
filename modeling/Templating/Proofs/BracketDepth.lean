import Templating.Proofs.Blame

/-! # Where brackets are nested too deeply

Each level of the rules for expressions and patterns is entered behind an opening bracket. The room
for brackets can therefore run out only where the text has more of them than there is room for. -/

namespace Templating

variable {room : Room}

open Text

/-- A bracket behind which expressions or patterns stand. -/
def Text.isOpening (character : Char) : Bool :=
  character == '(' || character == '[' || character == '\x7b'

/-- The number of opening brackets in a text. -/
def Text.openings (text : List Char) : Nat :=
  text.countP isOpening

theorem Cursor.Reaches.openings_le {cursor later : Cursor} (reaches : cursor.Reaches later) :
    openings later.rest ≤ openings cursor.rest := by
  obtain ⟨text, read, _⟩ := reaches
  rw [read, openings, openings, List.countP_append]
  exact Nat.le_add_left _ _

namespace Grammar

variable {α β : Type} {rule other : Grammar α} {next : α → Grammar β} {levels : Nat}

/-- Where the rule finds brackets nested too deeply, the text has at least so many opening ones. -/
class Deep (levels : Nat) (rule : Grammar α) : Prop where
  opened {cursor : Cursor} {offset : Nat} :
    rule cursor = .failed (.tooDeep offset) → levels ≤ openings cursor.rest

instance (priority := low) [Quiet rule] : Deep levels rule :=
  ⟨fun failed => absurd failed (Quiet.ne_failed _ _)⟩

instance (problem : Problem) : Deep levels (fail problem : Grammar α) := ⟨nofun⟩

instance [Advancing rule] [Deep levels rule] [∀ value, Deep levels (next value)] :
    Deep levels (rule >>= next) :=
  ⟨fun failed => by
    rcases bind_eq_failed.mp failed with failed | ⟨value, middle, matched, failed⟩
    · exact Deep.opened failed
    · exact Nat.le_trans (Deep.opened failed) (Advancing.reaches matched).openings_le⟩

instance [Deep levels rule] [Deep levels other] : Deep levels (rule <|> other) :=
  ⟨fun failed => by
    rcases orElse_eq_failed.mp failed with failed | ⟨_, failed⟩
    · exact Deep.opened failed
    · exact Deep.opened failed⟩

instance [Advancing rule] [Deep levels rule] : Deep levels (optional rule) :=
  inferInstanceAs (Deep levels ((rule >>= fun value => pure (some value)) <|> pure none))

instance [Deep levels rule] (problem : Problem) : Deep levels (expect rule problem) :=
  inferInstanceAs (Deep levels (rule <|> fail problem))

instance [Advancing rule] [Deep levels rule] : Deep levels (spaced rule) :=
  inferInstanceAs (Deep levels (spaces >>= fun _ => rule >>= fun value => spaces >>= fun _ =>
    pure value))

instance (condition : Prop) [Decidable condition] [Deep levels rule] [Deep levels other] :
    Deep levels (if condition then rule else other) := by
  split <;> infer_instance

instance (step : α → Grammar α) [∀ value, Advancing (step value)] [∀ value, Deep levels (step value)]
    (value : α) : Deep levels (chain step value) :=
  ⟨fun failed => by
    rcases failed_of_chain failed with ⟨_, _, chained, failed⟩
    exact Nat.le_trans (Deep.opened failed) chained.reaches.openings_le⟩

instance [Advancing rule] [Deep levels rule] : Deep levels (many rule) :=
  ⟨fun failed => by
    rcases failed_of_many failed with ⟨_, _, repeated, failed⟩
    exact Nat.le_trans (Deep.opened failed) repeated.reaches.openings_le⟩

/-! ## Behind a bracket -/

theorem exact_openings_lt {bracket : Char} (opens : isOpening bracket = true) {cursor later : Cursor}
    (matched : exact [bracket] cursor = .matched () later) :
    openings later.rest < openings cursor.rest := by
  rw [(exact_eq_matched.mp matched).1, List.singleton_append, openings, openings,
    List.countP_cons_of_pos opens]
  exact Nat.lt_succ_self _

/-- What stands behind an opening bracket is one level deeper. -/
theorem deep_behind_exact {bracket : Char} (opens : isOpening bracket = true) [Deep levels rule] :
    Deep (levels + 1) (exact [bracket] >>= fun _ => rule) :=
  ⟨fun failed => by
    rcases bind_eq_failed.mp failed with failed | ⟨_, middle, matched, failed⟩
    · exact absurd failed (Quiet.ne_failed _ _)
    · exact Nat.lt_of_le_of_lt (Deep.opened failed) (exact_openings_lt opens matched)⟩

theorem deep_behind_token {symbol : String} {bracket : Char} (shape : symbol.toList = [bracket])
    (opens : isOpening bracket = true) [Deep levels rule] :
    Deep (levels + 1) (token symbol >>= fun _ => rule) := by
  have : Deep (levels + 1) (exact [bracket] >>= fun _ => spaces >>= fun _ => rule) :=
    deep_behind_exact opens
  have whole : (token symbol >>= fun _ => rule) =
      (spaces >>= fun _ => exact [bracket] >>= fun _ => spaces >>= fun _ => rule) := by
    simp only [token, spaced, shape, bind_assoc, pure_bind]
  rw [whole]
  infer_instance

instance [Deep levels rule] : Deep (levels + 1) (exact ['('] >>= fun _ => rule) :=
  deep_behind_exact rfl

instance [Deep levels rule] : Deep (levels + 1) (exact ['['] >>= fun _ => rule) :=
  deep_behind_exact rfl

instance [Deep levels rule] : Deep (levels + 1) (token "(" >>= fun _ => rule) :=
  deep_behind_token rfl rfl

instance [Deep levels rule] : Deep (levels + 1) (token "[" >>= fun _ => rule) :=
  deep_behind_token rfl rfl

instance [Deep levels rule] : Deep (levels + 1) (token "\x7b" >>= fun _ => rule) :=
  deep_behind_token rfl rfl

/-! ## Expressions -/

section

variable (inner : Grammar Expr) [Advancing inner] [Deep levels inner]

instance : Deep (levels + 1) (argumentsOf inner) := by
  unfold argumentsOf
  infer_instance

instance : Deep (levels + 1) (listOf inner) := by
  unfold listOf
  infer_instance

instance : Deep (levels + 1) (groupOf inner) := by
  unfold groupOf
  infer_instance

instance : Deep (levels + 1) (primaryOf inner) := by
  unfold primaryOf
  infer_instance

instance (start : Nat) (value : Expr) : Deep (levels + 1) (postfixStep inner start value) := by
  unfold postfixStep
  infer_instance

instance : Deep (levels + 1) (postfixOf inner) := by
  unfold postfixOf
  infer_instance

set_option synthInstance.maxSize 256 in
instance (start : Nat) (value : Expr) : Deep (levels + 1) (filterStep inner start value) := by
  unfold filterStep
  infer_instance

instance : Deep (levels + 1) (filteredOf inner) := by
  unfold filteredOf
  infer_instance

instance : Deep (levels + 1) (unaryOf inner) := by
  rw [unaryOf_eq]
  have : Quiet unaryMark := by
    unfold unaryMark
    infer_instance
  have : ∀ (start : Nat) (op : Option UnaryOp) (operand : Expr),
      Quiet (match op with
        | none => pure operand
        | some op => pure (.unary start op operand) : Grammar Expr) := by
    intro start op operand
    cases op <;> infer_instance
  infer_instance

instance (operand : Grammar Expr) [Consuming operand] [Deep levels operand]
    (operators : List BinaryOp) (start : Nat) (left : Expr) :
    Deep levels (binaryStep operand operators start left) := by
  unfold binaryStep
  infer_instance

theorem deep_binaryOf (operand : Grammar Expr) [Consuming operand] [Deep levels operand]
    (layers : List (List BinaryOp)) : Deep levels (binaryOf operand layers) := by
  induction layers with
  | nil => assumption
  | cons operators tighter induction =>
      have := consuming_binaryOf operand tighter
      unfold binaryOf
      infer_instance

instance : Deep (levels + 1) (operationOf inner) :=
  deep_binaryOf (unaryOf inner) _

instance (start : Nat) (kind : Option RangeKind) (left : Option Expr) :
    Deep (levels + 1) (rangeEnd inner start kind left) := by
  cases kind <;> cases left <;> (unfold rangeEnd; infer_instance)

instance : Deep (levels + 1) (expressionOf inner) := by
  rw [expressionOf_eq]
  infer_instance

end

instance (brackets : Nat) : Deep brackets (expressionWithin brackets) := by
  induction brackets with
  | zero => exact ⟨fun _ => Nat.zero_le _⟩
  | succ brackets induction =>
      exact inferInstanceAs (Deep (brackets + 1) (expressionOf (expressionWithin brackets)))

instance : Deep bracketLimit expression :=
  inferInstanceAs (Deep bracketLimit (expressionWithin bracketLimit))

instance : Deep (bracketLimit + 1) arguments :=
  inferInstanceAs (Deep (bracketLimit + 1) (argumentsOf expression))

/-! ## Patterns -/

set_option synthInstance.maxSize 256 in
instance (closing : Char) (item : Grammar α) [Advancing item] [Deep levels item] :
    Deep levels (payload closing item) := by
  unfold payload
  dsimp only
  infer_instance

section

variable (inner : Grammar Pattern) [Advancing inner] [Deep levels inner]

instance : Deep (levels + 1) (groupPattern inner) := by
  unfold groupPattern
  infer_instance

set_option synthInstance.maxSize 256 in
instance : Deep levels (field inner) := by
  unfold field
  infer_instance

instance : Deep (levels + 1) (pathPattern inner) := by
  unfold pathPattern
  infer_instance

instance : Deep (levels + 1) (patternOf inner) := by
  unfold patternOf
  infer_instance

end

instance (brackets : Nat) : Deep brackets (patternWithin brackets) := by
  induction brackets with
  | zero => exact ⟨fun _ => Nat.zero_le _⟩
  | succ brackets induction =>
      exact inferInstanceAs (Deep (brackets + 1) (patternOf (patternWithin brackets)))

instance : Deep bracketLimit pattern :=
  inferInstanceAs (Deep bracketLimit (patternWithin bracketLimit))

end Grammar

end Templating
