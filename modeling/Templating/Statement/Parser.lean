import Templating.Grammar.Basic
import Templating.Statement.Counters

/-! # Rules that count

The rules of statements read and change the counters of the parse. They keep them also where
they do not match or end the parse, so that every part of a parse can be seen to leave the
counters as it found them. -/

namespace Templating

/-- A rule that yields a value when it matches, and new counters in any case. -/
def Parser (α : Type) : Type :=
  Counters → Cursor → Outcome α × Counters

namespace Parser

def andThen {α β : Type} (rule : Parser α) (next : α → Parser β) : Parser β :=
  fun counters cursor =>
    match rule counters cursor with
    | (.matched value cursor, counters) => next value counters cursor
    | (.noMatch, counters) => (.noMatch, counters)
    | (.failed failure, counters) => (.failed failure, counters)

/-- The second rule where the first does not match. -/
def orElse {α : Type} (rule : Parser α) (other : Unit → Parser α) : Parser α :=
  fun counters cursor =>
    match rule counters cursor with
    | (.matched value cursor, counters) => (.matched value cursor, counters)
    | (.noMatch, counters) => other () counters cursor
    | (.failed failure, counters) => (.failed failure, counters)

instance : Monad Parser where
  pure value := fun counters cursor => (.matched value cursor, counters)
  bind := andThen

instance {α : Type} : OrElse (Parser α) where
  orElse := orElse

/-- A rule of the grammar, which does not concern the counters. -/
def ofGrammar {α : Type} (rule : Grammar α) : Parser α := fun counters cursor =>
  (rule cursor, counters)

instance : MonadLift Grammar Parser where
  monadLift := ofGrammar

def getCounters : Parser Counters := fun counters cursor => (.matched counters cursor, counters)

/-- The rule as part of the body of a loop. -/
def inLoop {α : Type} (rule : Parser α) : Parser α := fun counters cursor =>
  counters.inLoopDo fun counters => rule counters cursor

/-- The rule as part of one more body. -/
def inBody {α : Type} (rule : Parser α) : Parser α := fun counters cursor =>
  counters.inBodyDo fun counters => rule counters cursor

/-- The values of a rule that is repeated while it matches, with a turn for each
character. -/
def manyFor {α : Type} (rule : Parser α) : (turns : List Char) → Parser (List α)
  | [] => pure []
  | _ :: turns =>
      (do
        let value ← rule
        let values ← manyFor rule turns
        return value :: values) <|> pure []

/-- The values of a rule that is repeated while it matches. -/
def many {α : Type} (rule : Parser α) : Parser (List α) := fun counters cursor =>
  manyFor rule cursor.rest counters cursor

/-- The rule, or nothing. -/
def optional {α : Type} (rule : Parser α) : Parser (Option α) :=
  (do
    let value ← rule
    return some value) <|> pure none

/-! ## How rules compose -/

variable {α β : Type}

@[simp] theorem pure_apply (value : α) (counters : Counters) (cursor : Cursor) :
    (pure value : Parser α) counters cursor = (.matched value cursor, counters) := rfl

theorem bind_apply (rule : Parser α) (next : α → Parser β) (counters : Counters)
    (cursor : Cursor) :
    (rule >>= next) counters cursor =
      match rule counters cursor with
      | (.matched value cursor, counters) => next value counters cursor
      | (.noMatch, counters) => (.noMatch, counters)
      | (.failed failure, counters) => (.failed failure, counters) := rfl

theorem orElse_apply (rule other : Parser α) (counters : Counters) (cursor : Cursor) :
    (rule <|> other) counters cursor =
      match rule counters cursor with
      | (.matched value cursor, counters) => (.matched value cursor, counters)
      | (.noMatch, counters) => other counters cursor
      | (.failed failure, counters) => (.failed failure, counters) := rfl

@[simp] theorem liftM_apply (rule : Grammar α) (counters : Counters) (cursor : Cursor) :
    (liftM rule : Parser α) counters cursor = (rule cursor, counters) := rfl

/-- Repetition always matches or fails; where its rule does not match it yields nothing. -/
theorem manyFor_ne_noMatch (rule : Parser α) (turns : List Char) (counters : Counters)
    (cursor : Cursor) : (manyFor rule turns counters cursor).1 ≠ .noMatch := by
  cases turns with
  | nil => simp [manyFor]
  | cons _ turns =>
      rw [manyFor, orElse_apply]
      split <;> simp

instance : LawfulMonad Parser :=
  LawfulMonad.mk' Parser
    (fun rule => by
      funext counters cursor
      show andThen rule _ counters cursor = _
      unfold andThen
      rcases rule counters cursor with ⟨_ | _ | _, _⟩ <;> rfl)
    (fun _ _ => rfl)
    (fun rule _ _ => by
      funext counters cursor
      show andThen (andThen rule _) _ counters cursor = andThen rule _ counters cursor
      unfold andThen
      rcases rule counters cursor with ⟨_ | _ | _, _⟩ <;> rfl)

end Parser

end Templating
