import Templating.Proofs.Progress
import Templating.Proofs.Repetition

/-! # Where a parse can fail

A failure names a place of the source at which no blank stands: a character that is not blank, or
the end of the source. Most rules look for the next such place; some name a place that was found
earlier, which is known to be one. -/

namespace Templating

variable {room : Room}

open Text

/-- At this offset of the source that begins at `origin` stands no blank. -/
class Place (origin : Cursor) (offset : Nat) : Prop where
  stands : ∃ place, origin.Reaches place ∧ place.offset = offset ∧ Solid place.rest

theorem Cursor.Reaches.place {origin cursor : Cursor} (reached : origin.Reaches cursor)
    (solid : Solid cursor.rest) : Place origin cursor.offset :=
  ⟨cursor, reached, rfl, solid⟩

theorem Cursor.Reaches.place_skipSpaces {origin cursor : Cursor} (reached : origin.Reaches cursor) :
    Place origin cursor.skipSpaces.offset := by
  apply (reached.trans cursor.reaches_skipSpaces).place
  rw [Grammar.skipSpaces_rest]
  exact solid_afterBlanks cursor.rest

namespace Grammar

/-- Wherever in the source the rule ends the parse, it names a place of the source. -/
class Placing {α : Type} (origin : Cursor) (rule : Grammar α) : Prop where
  placed {cursor : Cursor} {failure : Failure} :
    origin.Reaches cursor → rule cursor = .failed failure → Place origin failure.offset

section

variable {α β : Type} {origin cursor : Cursor} {failure : Failure} {rule other : Grammar α}
  {next : α → Grammar β}

/-! ## Rules that are put together -/

instance (value : α) : Placing origin (pure value) := ⟨nofun⟩

instance : Placing origin (noMatch : Grammar α) := ⟨nofun⟩

instance (problem : Problem) (offset : Nat) [Place origin offset] :
    Placing origin (failAt problem offset : Grammar α) :=
  ⟨fun _ failed => by
    cases failed
    assumption⟩

instance (problem : Problem) : Placing origin (fail problem : Grammar α) :=
  ⟨fun reached failed => by
    cases failed
    exact reached.place_skipSpaces⟩

instance : Placing origin (tooDeep : Grammar α) :=
  ⟨fun reached failed => by
    cases failed
    exact reached.place_skipSpaces⟩

/-- What follows may make use of how the first rule has matched. -/
theorem Placing.bind [Placing origin rule]
    (second : ∀ {cursor value middle}, origin.Reaches cursor → rule cursor = .matched value middle →
      origin.Reaches middle ∧ Placing origin (next value)) : Placing origin (rule >>= next) :=
  ⟨fun reached failed => by
    rcases bind_eq_failed.mp failed with failed | ⟨value, middle, matched, failed⟩
    · exact Placing.placed reached failed
    · rcases second reached matched with ⟨reached, placing⟩
      exact placing.placed reached failed⟩

instance [Placing origin rule] [Advancing rule] [∀ value, Placing origin (next value)] :
    Placing origin (rule >>= next) :=
  .bind fun reached matched => ⟨reached.trans (Advancing.reaches matched), inferInstance⟩

instance [Placing origin rule] [Placing origin other] : Placing origin (rule <|> other) :=
  ⟨fun reached failed => by
    rcases orElse_eq_failed.mp failed with failed | ⟨_, failed⟩
    · exact Placing.placed reached failed
    · exact Placing.placed reached failed⟩

instance [Placing origin rule] [Advancing rule] : Placing origin (optional rule) :=
  inferInstanceAs (Placing origin ((rule >>= fun value => pure (some value)) <|> pure none))

instance [Placing origin rule] (problem : Problem) : Placing origin (expect rule problem) :=
  inferInstanceAs (Placing origin (rule <|> fail problem))

instance (condition : Prop) [Decidable condition] [Placing origin rule] [Placing origin other] :
    Placing origin (if condition then rule else other) := by
  split <;> infer_instance

instance (step : α → Grammar α) [∀ value, Placing origin (step value)]
    [∀ value, Advancing (step value)] (value : α) : Placing origin (chain step value) :=
  ⟨fun reached failed => by
    rcases failed_of_chain failed with ⟨_, _, chained, failed⟩
    exact Placing.placed (reached.trans chained.reaches) failed⟩

instance [Placing origin rule] [Advancing rule] : Placing origin (many rule) :=
  ⟨fun reached failed => by
    rcases failed_of_many failed with ⟨_, _, repeated, failed⟩
    exact Placing.placed (reached.trans repeated.reaches) failed⟩

/-! ## Reading characters -/

instance : Placing origin here := ⟨nofun⟩

instance : Placing origin nextOffset := ⟨nofun⟩

instance : Placing origin spaces := ⟨nofun⟩

instance (accept : Char → Bool) : Placing origin (characters accept) := ⟨nofun⟩

instance (test : List Char → Bool) : Placing origin (upTo test) := ⟨nofun⟩

instance (test : List Char → Bool) : Placing origin (ahead test) :=
  ⟨fun _ failed => by
    unfold ahead at failed
    split at failed <;> cases failed⟩

instance (accept : Char → Bool) : Placing origin (character accept) :=
  ⟨fun _ failed => by
    unfold character at failed
    repeat' split at failed
    all_goals cases failed⟩

instance (text : List Char) : Placing origin (exact text) :=
  ⟨fun _ failed => by
    unfold exact at failed
    split at failed <;> cases failed⟩

instance [Placing origin rule] [Advancing rule] : Placing origin (spaced rule) :=
  inferInstanceAs (Placing origin (spaces >>= fun _ => rule >>= fun value => spaces >>= fun _ =>
    pure value))

end

/-! ## Lexemes -/

section

variable {origin : Cursor}

instance : Placing origin endOfWord :=
  inferInstanceAs (Placing origin (ahead _))

instance : Placing origin name := by
  unfold name
  infer_instance

instance (text : String) : Placing origin (word text) := by
  unfold word
  infer_instance

instance (words : List String) : Placing origin (wordOf words) := by
  induction words with
  | nil => exact inferInstanceAs (Placing origin noMatch)
  | cons text others induction => exact inferInstanceAs (Placing origin (word text <|> wordOf others))

instance (text : String) : Placing origin (token text) := by
  unfold token
  infer_instance

instance (text : String) : Placing origin (keyword text) := by
  unfold keyword
  infer_instance

instance : Placing origin nameToken := by
  unfold nameToken
  infer_instance

instance : Placing origin boolean := by
  unfold boolean
  infer_instance

instance : Placing origin fraction := by
  unfold fraction
  infer_instance

instance : Placing origin number := by
  rw [number_eq]
  infer_instance

instance (quote : Char) : Placing origin (body quote) :=
  ⟨fun _ failed => by
    unfold body at failed
    split at failed <;> cases failed⟩

instance (quote : Char) : Placing origin (between quote) := by
  rw [between_eq]
  infer_instance

instance : Placing origin string := inferInstanceAs (Placing origin (between '"'))

instance : Placing origin characterText := inferInstanceAs (Placing origin (between '\''))

instance : Placing origin stringToken := inferInstanceAs (Placing origin (spaced string))

instance : Placing origin path := by
  unfold path separator
  infer_instance

instance : Placing origin marker :=
  ⟨fun _ failed => by
    unfold marker at failed
    repeat' split at failed
    all_goals cases failed⟩

instance : Placing origin edge := by
  unfold edge
  infer_instance

/-! ## Expressions -/

section

variable (inner : Grammar Expr) [Placing origin inner] [Advancing inner]

instance : Placing origin (argumentsOf inner) := by
  unfold argumentsOf
  infer_instance

instance : Placing origin (listOf inner) := by
  unfold listOf
  infer_instance

set_option synthInstance.maxSize 256 in
instance : Placing origin (groupOf inner) := by
  unfold groupOf
  infer_instance

instance : Placing origin (primaryOf inner) := by
  unfold primaryOf
  infer_instance

instance (start : Nat) (value : Expr) : Placing origin (postfixStep inner start value) := by
  unfold postfixStep
  infer_instance

instance : Placing origin (postfixOf inner) := by
  unfold postfixOf
  infer_instance

instance (start : Nat) (value : Expr) : Placing origin (filterStep inner start value) := by
  unfold filterStep
  infer_instance

instance : Placing origin (filteredOf inner) := by
  unfold filteredOf
  infer_instance

instance : Placing origin (unaryOf inner) := by
  rw [unaryOf_eq]
  have : Placing origin unaryMark := by
    unfold unaryMark
    infer_instance
  have : ∀ (start : Nat) (op : Option UnaryOp) (operand : Expr),
      Placing origin (match op with
        | none => pure operand
        | some op => pure (.unary start op operand) : Grammar Expr) := by
    intro start op operand
    cases op <;> infer_instance
  infer_instance

instance (op : BinaryOp) : Placing origin (operator op) := by
  unfold operator
  infer_instance

instance (operators : List BinaryOp) : Placing origin (operatorOf operators) := by
  induction operators with
  | nil => exact inferInstanceAs (Placing origin noMatch)
  | cons op others induction =>
      exact inferInstanceAs (Placing origin (operator op <|> operatorOf others))

instance (operand : Grammar Expr) [Placing origin operand] [Advancing operand]
    (operators : List BinaryOp) (start : Nat) (left : Expr) :
    Placing origin (binaryStep operand operators start left) := by
  unfold binaryStep
  infer_instance

theorem placing_binaryOf (operand : Grammar Expr) [Placing origin operand] [Consuming operand]
    (layers : List (List BinaryOp)) : Placing origin (binaryOf operand layers) := by
  induction layers with
  | nil => assumption
  | cons operators tighter induction =>
      have := consuming_binaryOf operand tighter
      unfold binaryOf
      infer_instance

instance : Placing origin (operationOf inner) :=
  placing_binaryOf (unaryOf inner) _

instance : Placing origin rangeMark := by
  unfold rangeMark
  infer_instance

instance (start : Nat) (kind : Option RangeKind) (left : Option Expr) :
    Placing origin (rangeEnd inner start kind left) := by
  cases kind <;> cases left <;> (unfold rangeEnd; infer_instance)

instance : Placing origin (expressionOf inner) := by
  rw [expressionOf_eq]
  infer_instance

end

instance (brackets : Nat) : Placing origin (expressionWithin brackets) := by
  induction brackets with
  | zero => exact inferInstanceAs (Placing origin tooDeep)
  | succ brackets induction =>
      exact inferInstanceAs (Placing origin (expressionOf (expressionWithin brackets)))

instance : Placing origin expression :=
  inferInstanceAs (Placing origin (expressionWithin bracketLimit))

instance : Placing origin arguments :=
  inferInstanceAs (Placing origin (argumentsOf expression))

/-! ## Patterns -/

instance : Placing origin literalPattern := by
  unfold literalPattern
  infer_instance

instance : Placing origin namePattern := by
  unfold namePattern
  infer_instance

instance {α : Type} (closing : Char) (item : Grammar α) [Placing origin item] [Advancing item] :
    Placing origin (payload closing item) := by
  unfold payload
  dsimp only
  infer_instance

section

variable (inner : Grammar Pattern) [Placing origin inner] [Advancing inner]

set_option synthInstance.maxSize 256 in
instance : Placing origin (groupPattern inner) := by
  unfold groupPattern
  infer_instance

instance : Placing origin (field inner) := by
  unfold field
  infer_instance

set_option synthInstance.maxSize 256 in
instance : Placing origin (pathPattern inner) := by
  unfold pathPattern
  infer_instance

instance : Placing origin (patternOf inner) := by
  unfold patternOf
  infer_instance

end

instance (brackets : Nat) : Placing origin (patternWithin brackets) := by
  induction brackets with
  | zero => exact inferInstanceAs (Placing origin tooDeep)
  | succ brackets induction =>
      exact inferInstanceAs (Placing origin (patternOf (patternWithin brackets)))

instance : Placing origin pattern :=
  inferInstanceAs (Placing origin (patternWithin bracketLimit))

end

end Grammar

end Templating
