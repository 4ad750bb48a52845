import Templating.Grammar.Problem
import Templating.Text.Space

/-! # Rules of the grammar

A rule is tried at a cursor. It matches and moves the cursor on, or it does not match and
leaves the cursor where it was, so that another rule can be tried there; or it has read so
much that nothing else can be meant and finds the rest malformed, and then the whole parse
fails. -/

namespace Templating

/-- A place in a source: the characters before it, counted, and the characters from it
on. -/
structure Cursor where
  offset : Nat
  rest : List Char
  deriving Repr, DecidableEq

namespace Cursor

/-- The cursor after the first `count` characters of a source. -/
def after (source : List Char) (count : Nat) : Cursor :=
  ⟨count, source.drop count⟩

/-- The beginning of a source. -/
def start (source : List Char) : Cursor :=
  ⟨0, source⟩

/-- The cursor moved on by `count` characters. -/
def advance (cursor : Cursor) (count : Nat) : Cursor :=
  ⟨cursor.offset + count, cursor.rest.drop count⟩

@[simp] theorem advance_zero (cursor : Cursor) : cursor.advance 0 = cursor := by
  simp [advance]

@[simp] theorem advance_advance (cursor : Cursor) (count further : Nat) :
    (cursor.advance count).advance further = cursor.advance (count + further) := by
  simp [advance, Nat.add_assoc]

def atEnd (cursor : Cursor) : Bool :=
  cursor.rest.isEmpty

/-- The cursor moved over the blanks that stand at it. -/
def skipSpaces (cursor : Cursor) : Cursor :=
  cursor.advance (cursor.rest.takeWhile Text.isSpace).length

end Cursor

/-- What became of a rule. -/
inductive Outcome (α : Type) where
  | matched (value : α) (cursor : Cursor)
  | noMatch
  | failed (failure : Failure)
  deriving Repr

/-- A rule that yields a value when it matches. -/
def Grammar (α : Type) : Type :=
  Cursor → Outcome α

namespace Grammar

/-- One rule after the other. If the second does not match, neither do both together. -/
def andThen {α β : Type} (rule : Grammar α) (next : α → Grammar β) : Grammar β := fun cursor =>
  match rule cursor with
  | .matched value cursor => next value cursor
  | .noMatch => .noMatch
  | .failed failure => .failed failure

/-- The second rule where the first does not match. -/
def orElse {α : Type} (rule : Grammar α) (other : Unit → Grammar α) : Grammar α := fun cursor =>
  match rule cursor with
  | .matched value cursor => .matched value cursor
  | .noMatch => other () cursor
  | .failed failure => .failed failure

instance : Monad Grammar where
  pure value := fun cursor => .matched value cursor
  bind := andThen

instance {α : Type} : OrElse (Grammar α) where
  orElse := orElse

/-- The rule that matches nowhere. -/
def noMatch {α : Type} : Grammar α := fun _ => .noMatch

/-- Ends the parse with a problem at an offset. -/
def failAt {α : Type} (problem : Problem) (offset : Nat) : Grammar α := fun _ =>
  .failed (.malformed problem offset)

/-- Ends the parse with a problem at the next character that is not blank. -/
def fail {α : Type} (problem : Problem) : Grammar α := fun cursor =>
  .failed (.malformed problem cursor.skipSpaces.offset)

/-- Ends the parse because brackets are nested too deeply, at the next character that is not
blank. -/
def tooDeep {α : Type} : Grammar α := fun cursor =>
  .failed (.tooDeep cursor.skipSpaces.offset)

/-- The rule, where nothing else may stand. -/
def expect {α : Type} (rule : Grammar α) (problem : Problem) : Grammar α :=
  rule <|> fail problem

/-- The rule, or nothing. -/
def optional {α : Type} (rule : Grammar α) : Grammar (Option α) :=
  (do
    let value ← rule
    return some value) <|> pure none

/-- Makes one step after another from a value while they match. There is a turn for each of
the characters `turns`; with as many turns as there are characters left, steps that each
read at least one never run out of them. -/
def chainFor {α : Type} (step : α → Grammar α) : (turns : List Char) → α → Grammar α
  | [], value, cursor => .matched value cursor
  | _ :: turns, value, cursor =>
      match step value cursor with
      | .matched next cursor => chainFor step turns next cursor
      | .noMatch => .matched value cursor
      | .failed failure => .failed failure

/-- Makes one step after another from a value while they match. -/
def chain {α : Type} (step : α → Grammar α) (value : α) : Grammar α := fun cursor =>
  chainFor step cursor.rest value cursor

/-- The values of a rule that is repeated while it matches, with a turn for each
character. -/
def manyFor {α : Type} (rule : Grammar α) : (turns : List Char) → Grammar (List α)
  | [] => pure []
  | _ :: turns =>
      (do
        let value ← rule
        let values ← manyFor rule turns
        return value :: values) <|> pure []

/-- The values of a rule that is repeated while it matches. -/
def many {α : Type} (rule : Grammar α) : Grammar (List α) := fun cursor =>
  manyFor rule cursor.rest cursor

/-! ## Reading characters -/

/-- The offset of the cursor. -/
def here : Grammar Nat := fun cursor => .matched cursor.offset cursor

/-- Matches without reading if the text from the cursor on satisfies a test. -/
def ahead (test : List Char → Bool) : Grammar Unit := fun cursor =>
  if test cursor.rest then .matched () cursor else .noMatch

/-- Reads a character that is accepted. -/
def character (accept : Char → Bool) : Grammar Char := fun cursor =>
  match cursor.rest with
  | first :: _ => if accept first then .matched first (cursor.advance 1) else .noMatch
  | [] => .noMatch

/-- Reads all the characters that are accepted, up to the first that is not. -/
def characters (accept : Char → Bool) : Grammar (List Char) := fun cursor =>
  let run := cursor.rest.takeWhile accept
  .matched run (cursor.advance run.length)

/-- The characters before the first place from which on the text satisfies a test; all of
them if there is no such place. -/
def untilText (test : List Char → Bool) : List Char → List Char
  | [] => []
  | first :: rest => if test (first :: rest) then [] else first :: untilText test rest

/-- Reads up to the first place from which on the text satisfies a test, else to the end. -/
def upTo (test : List Char → Bool) : Grammar (List Char) := fun cursor =>
  let run := untilText test cursor.rest
  .matched run (cursor.advance run.length)

/-- Reads exactly this text. -/
def exact (text : List Char) : Grammar Unit := fun cursor =>
  if text.isPrefixOf cursor.rest then .matched () (cursor.advance text.length) else .noMatch

/-- Skips blanks. -/
def spaces : Grammar Unit := fun cursor => .matched () cursor.skipSpaces

/-- A rule with blanks around it. -/
def spaced {α : Type} (rule : Grammar α) : Grammar α := do
  spaces
  let value ← rule
  spaces
  return value

/-- The rule matches from the cursor on. Nothing is read. -/
def matchesAt {α : Type} (rule : Grammar α) (rest : List Char) : Bool :=
  match rule ⟨0, rest⟩ with
  | .matched .. => true
  | _ => false

/-! ## How rules compose -/

variable {α β : Type}

@[simp] theorem pure_apply (value : α) (cursor : Cursor) :
    (pure value : Grammar α) cursor = .matched value cursor := rfl

theorem bind_apply (rule : Grammar α) (next : α → Grammar β) (cursor : Cursor) :
    (rule >>= next) cursor =
      match rule cursor with
      | .matched value cursor => next value cursor
      | .noMatch => .noMatch
      | .failed failure => .failed failure := rfl

theorem orElse_apply (rule other : Grammar α) (cursor : Cursor) :
    (rule <|> other) cursor =
      match rule cursor with
      | .matched value cursor => .matched value cursor
      | .noMatch => other cursor
      | .failed failure => .failed failure := rfl

instance : LawfulMonad Grammar :=
  LawfulMonad.mk' Grammar
    (fun rule => by
      funext cursor
      show andThen rule _ cursor = _
      unfold andThen
      cases rule cursor <;> rfl)
    (fun _ _ => rfl)
    (fun rule _ _ => by
      funext cursor
      show andThen (andThen rule _) _ cursor = andThen rule _ cursor
      unfold andThen
      cases rule cursor <;> rfl)

/-- Repetition always matches or fails; where its rule does not match it yields nothing. -/
theorem manyFor_ne_noMatch (rule : Grammar α) (turns : List Char) (cursor : Cursor) :
    manyFor rule turns cursor ≠ .noMatch := by
  cases turns with
  | nil => simp [manyFor]
  | cons _ turns =>
      rw [manyFor, orElse_apply]
      split <;> simp

end Grammar

end Templating
