import Templating.Proofs.Attempt
import Templating.Proofs.ReportedPlace

/-! # What a parse can find malformed

Which problems a rule can end the parse with is told by the rules that it is put together from.
Most rules never end the parse, and expressions do so only where brackets are nested too deeply,
which is no fault in what is written. Patterns name four problems of their own. -/

namespace Templating

variable {room : Room}

/-- The value is `true`. -/
class Holds (value : Bool) : Prop where
  holds : value = true

instance : Holds true := ⟨rfl⟩

namespace Problem

/-- A fault in the brackets of a pattern. -/
@[reducible]
def isOfPattern : Problem → Bool
  | missingPattern (.field _) | payloadItem _ | payloadEnd _ | tupleEnd => true
  | _ => false

/-- The problem says what is wrong. It does not say merely that something is unexpected, or that
text stands where an end tag should, and it calls no word unknown that begins a statement. -/
@[reducible]
def isSpecific : Problem → Bool
  | unexpectedInput => false
  | wrongEndTag _ _ found => found != .text
  | unknownWord word => (Keyword.ofWord? word).isNone
  | _ => true

theorem code_of_isOfPattern {problem : Problem} (ofPattern : problem.isOfPattern = true) :
    problem.code = .invalidPattern := by
  cases problem <;> first | rfl | cases ofPattern

theorem isSpecific_of_isOfPattern (problem : Problem) (ofPattern : problem.isOfPattern = true) :
    problem.isSpecific = true := by
  cases problem <;> first | rfl | cases ofPattern

end Problem

namespace Grammar

variable {α β : Type} {rule other : Grammar α} {next : α → Grammar β}

/-! ## Rules that never end the parse -/

instance : Quiet nextOffset := ⟨fun _ _ => nofun⟩

instance (accept : Char → Bool) : Quiet (characters accept) := ⟨fun _ _ => nofun⟩

instance (test : List Char → Bool) : Quiet (upTo test) := ⟨fun _ _ => nofun⟩

instance (accept : Char → Bool) : Quiet (character accept) :=
  ⟨fun cursor failure => by
    unfold character
    split
    · split <;> nofun
    · nofun⟩

instance [Quiet rule] : Quiet (many rule) :=
  ⟨fun _ _ failed => by
    rcases failed_of_many failed with ⟨_, _, _, failed⟩
    exact Quiet.ne_failed _ _ failed⟩

instance (step : α → Grammar α) [∀ value, Quiet (step value)] (value : α) :
    Quiet (chain step value) :=
  ⟨fun _ _ failed => by
    rcases failed_of_chain failed with ⟨_, _, _, failed⟩
    exact Quiet.ne_failed _ _ failed⟩

instance : Quiet name := by
  unfold name
  infer_instance

instance : Quiet nameToken := by
  unfold nameToken
  infer_instance

instance : Quiet boolean := by
  unfold boolean
  infer_instance

instance : Quiet fraction := by
  unfold fraction
  infer_instance

instance : Quiet number := by
  rw [number_eq]
  infer_instance

instance (quote : Char) : Quiet (body quote) :=
  ⟨fun cursor failure => by
    unfold body
    split <;> nofun⟩

instance (quote : Char) : Quiet (between quote) := by
  rw [between_eq]
  infer_instance

instance : Quiet string := inferInstanceAs (Quiet (between '"'))

instance : Quiet characterText := inferInstanceAs (Quiet (between '\''))

instance : Quiet stringToken := inferInstanceAs (Quiet (spaced string))

instance (condition : Prop) [Decidable condition] [Quiet rule] [Quiet other] :
    Quiet (if condition then rule else other) := by
  split <;> infer_instance

instance : Quiet path := by
  unfold path separator
  infer_instance

/-! ## Rules that are put together -/

/-- If the rule finds the source malformed, the problem that it names is admitted. -/
class Blaming (admits : Problem → Bool) (rule : Grammar α) : Prop where
  admitted {cursor : Cursor} {problem : Problem} {offset : Nat} :
    rule cursor = .failed (.malformed problem offset) → admits problem = true

section

variable {admits : Problem → Bool}

instance (priority := low) [Quiet rule] : Blaming admits rule :=
  ⟨fun failed => absurd failed (Quiet.ne_failed _ _)⟩

instance : Blaming admits (tooDeep : Grammar α) := ⟨nofun⟩

instance (problem : Problem) (offset : Nat) [Holds (admits problem)] :
    Blaming admits (failAt problem offset : Grammar α) :=
  ⟨fun failed => by
    cases failed
    exact Holds.holds⟩

instance (problem : Problem) [Holds (admits problem)] :
    Blaming admits (fail problem : Grammar α) :=
  ⟨fun failed => by
    cases failed
    exact Holds.holds⟩

instance [Blaming admits rule] [∀ value, Blaming admits (next value)] :
    Blaming admits (rule >>= next) :=
  ⟨fun failed => by
    rcases bind_eq_failed.mp failed with failed | ⟨value, middle, _, failed⟩
    · exact Blaming.admitted failed
    · exact Blaming.admitted failed⟩

instance [Blaming admits rule] [Blaming admits other] : Blaming admits (rule <|> other) :=
  ⟨fun failed => by
    rcases orElse_eq_failed.mp failed with failed | ⟨_, failed⟩
    · exact Blaming.admitted failed
    · exact Blaming.admitted failed⟩

instance [Blaming admits rule] : Blaming admits (optional rule) :=
  inferInstanceAs (Blaming admits ((rule >>= fun value => pure (some value)) <|> pure none))

instance [Blaming admits rule] (problem : Problem) [Holds (admits problem)] :
    Blaming admits (expect rule problem) :=
  inferInstanceAs (Blaming admits (rule <|> fail problem))

instance (condition : Prop) [Decidable condition] [Blaming admits rule] [Blaming admits other] :
    Blaming admits (if condition then rule else other) := by
  split <;> infer_instance

instance [Blaming admits rule] : Blaming admits (spaced rule) :=
  inferInstanceAs (Blaming admits (spaces >>= fun _ => rule >>= fun value => spaces >>= fun _ =>
    pure value))

instance (step : α → Grammar α) [∀ value, Blaming admits (step value)] (value : α) :
    Blaming admits (chain step value) :=
  ⟨fun failed => by
    rcases failed_of_chain failed with ⟨_, _, _, failed⟩
    exact Blaming.admitted failed⟩

instance [Blaming admits rule] : Blaming admits (many rule) :=
  ⟨fun failed => by
    rcases failed_of_many failed with ⟨_, _, _, failed⟩
    exact Blaming.admitted failed⟩

/-! ## Expressions -/

section

variable (inner : Grammar Expr) [Blaming admits inner]

instance : Blaming admits (argumentsOf inner) := by
  unfold argumentsOf
  infer_instance

instance : Blaming admits (listOf inner) := by
  unfold listOf
  infer_instance

instance : Blaming admits (groupOf inner) := by
  unfold groupOf
  infer_instance

instance : Blaming admits (primaryOf inner) := by
  unfold primaryOf
  infer_instance

instance (start : Nat) (value : Expr) : Blaming admits (postfixStep inner start value) := by
  unfold postfixStep
  infer_instance

instance : Blaming admits (postfixOf inner) := by
  unfold postfixOf
  infer_instance

instance (start : Nat) (value : Expr) : Blaming admits (filterStep inner start value) := by
  unfold filterStep
  infer_instance

instance : Blaming admits (filteredOf inner) := by
  unfold filteredOf
  infer_instance

instance : Blaming admits (unaryOf inner) := by
  rw [unaryOf_eq]
  have : Blaming admits unaryMark := by
    unfold unaryMark
    infer_instance
  have : ∀ (start : Nat) (op : Option UnaryOp) (operand : Expr),
      Blaming admits (match op with
        | none => pure operand
        | some op => pure (.unary start op operand) : Grammar Expr) := by
    intro start op operand
    cases op <;> infer_instance
  infer_instance

instance (op : BinaryOp) : Quiet (operator op) := by
  unfold operator
  infer_instance

instance (operators : List BinaryOp) : Quiet (operatorOf operators) := by
  induction operators with
  | nil => exact inferInstanceAs (Quiet noMatch)
  | cons op others induction =>
      exact inferInstanceAs (Quiet (operator op <|> operatorOf others))

instance (operand : Grammar Expr) [Blaming admits operand] (operators : List BinaryOp)
    (start : Nat) (left : Expr) : Blaming admits (binaryStep operand operators start left) := by
  unfold binaryStep
  infer_instance

instance (operand : Grammar Expr) [Blaming admits operand] (layers : List (List BinaryOp)) :
    Blaming admits (binaryOf operand layers) := by
  induction layers with
  | nil => assumption
  | cons operators tighter induction =>
      unfold binaryOf
      infer_instance

instance : Blaming admits (operationOf inner) :=
  inferInstanceAs (Blaming admits (binaryOf (unaryOf inner) BinaryOp.layers))

instance : Quiet rangeMark := by
  unfold rangeMark
  infer_instance

instance (start : Nat) (kind : Option RangeKind) (left : Option Expr) :
    Blaming admits (rangeEnd inner start kind left) := by
  cases kind <;> cases left <;> (unfold rangeEnd; infer_instance)

instance : Blaming admits (expressionOf inner) := by
  rw [expressionOf_eq]
  infer_instance

end

/-- An expression is never malformed. -/
instance (brackets : Nat) : Blaming admits (expressionWithin brackets) := by
  induction brackets with
  | zero => exact inferInstanceAs (Blaming admits tooDeep)
  | succ brackets induction =>
      exact inferInstanceAs (Blaming admits (expressionOf (expressionWithin brackets)))

instance : Blaming admits expression :=
  inferInstanceAs (Blaming admits (expressionWithin bracketLimit))

instance : Blaming admits arguments :=
  inferInstanceAs (Blaming admits (argumentsOf expression))

end

/-! ## Patterns -/

section

open Problem (isOfPattern isSpecific)

instance : Quiet literalPattern := by
  unfold literalPattern
  infer_instance

instance : Quiet namePattern := by
  unfold namePattern
  infer_instance

instance (closing : Char) (item : Grammar α) [Blaming isOfPattern item] :
    Blaming isOfPattern (payload closing item) := by
  unfold payload
  dsimp only
  infer_instance

section

variable (inner : Grammar Pattern) [Blaming isOfPattern inner]

set_option synthInstance.maxSize 256 in
instance : Blaming isOfPattern (groupPattern inner) := by
  unfold groupPattern
  infer_instance

instance : Blaming isOfPattern (field inner) := by
  unfold field
  infer_instance

instance : Blaming isOfPattern (pathPattern inner) := by
  unfold pathPattern
  infer_instance

instance : Blaming isOfPattern (patternOf inner) := by
  unfold patternOf
  infer_instance

end

instance (brackets : Nat) : Blaming isOfPattern (patternWithin brackets) := by
  induction brackets with
  | zero => exact inferInstanceAs (Blaming isOfPattern tooDeep)
  | succ brackets induction =>
      exact inferInstanceAs (Blaming isOfPattern (patternOf (patternWithin brackets)))

instance : Blaming isOfPattern pattern :=
  inferInstanceAs (Blaming isOfPattern (patternWithin bracketLimit))

instance : Blaming isSpecific pattern :=
  ⟨fun failed => Problem.isSpecific_of_isOfPattern _ (Blaming.admitted failed)⟩

/-! ## Tags and single statements -/

section

variable (dialect : Dialect)

instance : Blaming isSpecific (tagEnd dialect) := by
  unfold tagEnd
  infer_instance

instance : Blaming isSpecific (tagRest dialect) := by
  unfold tagRest
  infer_instance

instance (problem : Problem) [Holds problem.isSpecific] :
    Blaming isSpecific (Parser.rejectElse dialect problem) := by
  unfold Parser.rejectElse
  infer_instance

instance (arms : List Arm) : Blaming isSpecific (Parser.requireArm arms) := by
  unfold Parser.requireArm
  infer_instance

instance (name : String) (offset : Nat) :
    Blaming isSpecific (Parser.checkMacroName name offset) := by
  unfold Parser.checkMacroName
  infer_instance

instance : Quiet (text dialect) := by
  unfold text
  infer_instance

instance (state : CommentState) : Quiet (closingStep dialect state) := by
  unfold closingStep
  cases state.level <;> infer_instance

instance (state : CommentState) : Quiet (commentStep dialect state) := by
  rw [commentStep_eq_orElse]
  unfold openingStep characterStep
  infer_instance

instance : Blaming isSpecific (comment dialect) := by
  unfold comment
  infer_instance

instance : Blaming isSpecific (output dialect) := by
  unfold output
  infer_instance

set_option synthInstance.maxSize 256 in
instance : Quiet (rawEnd dialect) := by
  unfold rawEnd
  infer_instance

instance (opened : OpenedTag) : Blaming isSpecific (raw dialect opened) := by
  unfold raw
  infer_instance

instance (opened : OpenedTag) : Blaming isSpecific (assignment opened) := by
  unfold assignment
  infer_instance

instance (opened : OpenedTag) : Blaming isSpecific (macroCall opened) := by
  rw [macroCall_eq]
  unfold calledWith callArguments
  infer_instance

instance (opened : OpenedTag) : Blaming isSpecific (extension opened) := by
  unfold extension
  infer_instance

instance (opened : OpenedTag) : Blaming isSpecific (inclusion opened) := by
  unfold inclusion
  infer_instance

instance (opened : OpenedTag) : Blaming isSpecific (importation opened) := by
  unfold importation
  infer_instance

instance : Blaming isSpecific condition := by
  unfold condition
  infer_instance

instance : Blaming isSpecific parameters := by
  unfold parameters
  infer_instance

instance : Blaming isSpecific (skipComments dialect) := by
  unfold skipComments
  infer_instance

instance (start : Nat × Option Trim) (word : String) : Quiet (statementOf start word) := by
  unfold statementOf
  split <;> infer_instance

instance : Quiet (Parser.statementStart dialect) := by
  rw [statementStart_eq]
  infer_instance

end

end

end Grammar

end Templating
