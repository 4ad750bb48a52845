import Templating.Dialect.Basic
import Templating.Grammar.Lexeme

/-! # Tags

A tag is an opening delimiter, perhaps a trim marker, and a word. The words inside a
construct tell which part of it a tag begins, and the same word can be read in two ways: as
one of those that a construct waits for, or as whatever word stands there, to name it in a
message. -/

namespace Templating

/-- A tag that has been read up to the blanks behind its word. -/
structure OpenedTag where
  offset : Nat
  trim : Option Trim
  word : String
  deriving Repr, DecidableEq

namespace Grammar

variable (dialect : Dialect)

/-- The beginning of a tag with one of the given words. -/
def tag (words : List String) : Grammar OpenedTag := do
  let offset ← here
  exact dialect.blockStart.chars
  let trim ← edge
  spaces
  let word ← wordOf words
  spaces
  return { offset, trim, word }

/-- The end of a tag, exactly at the cursor. -/
def tagEnd : Grammar Unit :=
  expect (exact dialect.blockEnd.chars) (.openTag dialect.blockEnd.text)

/-- The offset behind the opening delimiter, the marker and the blanks of a tag, and the
name that stands there, if there is one. -/
def tagHead : Grammar (Nat × Option String) := do
  exact dialect.blockStart.chars
  let _ ← edge
  spaces
  let offset ← here
  return (offset, ← optional name)

/-- What stands at the cursor, without reading it. -/
def found : Grammar Found := fun cursor =>
  match tagHead dialect cursor with
  | .matched (_, some word) _ => .matched (.tag word) cursor
  | .matched (_, none) _ => .matched .malformedTag cursor
  | _ => .matched .text cursor

/-- Ends the parse because the construct that began at `start` is not closed here. -/
def missingEndTag {α : Type} (opener closer : String) (start : Nat) : Grammar α := fun cursor =>
  if cursor.atEnd then failAt (.openConstruct opener closer) start cursor
  else (do
    let found ← found dialect
    fail (.wrongEndTag opener closer found)) cursor

/-- The tag that closes the construct which began at `start`; it yields its left trim
marker. -/
def endTag (opener closer : String) (start : Nat) : Grammar (Option Trim) :=
  (do return (← tag dialect [closer]).trim) <|> missingEndTag dialect opener closer start

/-- What is wrong with whatever ended the outermost body. -/
def unexpected {α : Type} : Grammar α := fun cursor =>
  match tagHead dialect cursor with
  | .matched (offset, some word) _ =>
      if followingWords.contains word then failAt (.strayWord word) cursor.offset cursor
      else failAt (.unknownWord word) offset cursor
  | .matched (offset, none) _ => failAt (.missingKeyword dialect.blockStart.text) offset cursor
  | _ => fail .unexpectedInput cursor

theorem unexpected_ne_noMatch {α : Type} (cursor : Cursor) :
    (unexpected dialect : Grammar α) cursor ≠ .noMatch := by
  unfold unexpected
  split
  · split <;> simp [failAt]
  · simp [failAt]
  · simp [fail]

/-- The end of the source, where the outermost body has to end. -/
def endOfSource : Grammar Unit := fun cursor =>
  if cursor.atEnd then .matched () cursor else unexpected dialect cursor

theorem endOfSource_ne_noMatch (cursor : Cursor) : endOfSource dialect cursor ≠ .noMatch := by
  unfold endOfSource
  split
  · simp
  · exact unexpected_ne_noMatch dialect cursor

end Grammar

end Templating
