import Templating.Grammar.Expression
import Templating.Statement.Tag
import Templating.Tree.Node

/-! # Text, comments, outputs and raw text

The nodes that hold no body. Text runs up to the next opening delimiter. Comments may be
nested, and raw text ends at the first tag that can close it. -/

namespace Templating.Grammar

variable (dialect : Dialect)

/-- One of the opening delimiters stands at the beginning of a text. -/
def opensTag (rest : List Char) : Bool :=
  dialect.starts.any fun delimiter => delimiter.chars.isPrefixOf rest

/-- A run of text, not empty. -/
def text : Grammar Node := do
  let start ← here
  let run ← upTo (opensTag dialect)
  if run.isEmpty then
    noMatch
  else
    return .text start (Passage.ofChars run)

/-- A text stands at one of the first `count` places of another. -/
def startsWithin (text : List Char) : (count : Nat) → List Char → Bool
  | 0, _ => false
  | count + 1, rest => text.isPrefixOf rest || startsWithin text count rest.tail

/-- What has been read of a comment: how many comments are open inside it, and the character
that was read last, unless that was part of a delimiter. -/
structure CommentState where
  level : Nat
  last : Option Char
  deriving Repr, DecidableEq

/-- One step inside a comment: a delimiter that closes an inner comment, one that opens an
inner comment, or any character. A delimiter opens an inner comment only if no closing one
begins before it is over. The delimiter that closes the outermost comment is left. -/
def commentStep (state : CommentState) : Grammar CommentState :=
  let opening := dialect.commentStart.chars
  let closing := dialect.commentEnd.chars
  (match state.level with
    | 0 => noMatch
    | level + 1 => do
        exact closing
        return ⟨level, none⟩) <|>
  (do
    ahead fun rest => !startsWithin closing opening.length rest
    exact opening
    return ⟨state.level + 1, none⟩) <|>
  (do
    ahead fun rest => !closing.isPrefixOf rest
    return ⟨state.level, ← character fun _ => true⟩)

/-- A comment. Its right marker is the character before the closing delimiter, if that is a
marker. -/
def comment : Grammar Node := do
  let start ← here
  exact dialect.commentStart.chars
  let left ← edge
  let state ← chain (commentStep dialect) ⟨0, none⟩
  exact dialect.commentEnd.chars <|>
    failAt (.openComment dialect.commentEnd.text) start
  return .comment start ⟨left, state.last.bind Trim.ofMark?⟩

/-- An expression between its delimiters. -/
def output [Room] : Grammar Node := do
  let start ← here
  exact dialect.exprStart.chars
  let left ← edge
  let value ← expect expression (.missingExpr (.output dialect.exprStart.text))
  let right ← edge
  expect (exact dialect.exprEnd.chars) (.openOutput dialect.exprEnd.text)
  return .output start ⟨left, right⟩ value

/-- The tag that closes raw text, up to its closing delimiter, which has to stand there. -/
def rawEnd : Grammar Edges := do
  exact dialect.blockStart.chars
  let left ← edge
  spaces
  let _ ← word "endraw"
  spaces
  let right ← edge
  ahead fun rest => dialect.blockEnd.chars.isPrefixOf rest
  return ⟨left, right⟩

/-- Raw text, behind its word. Nothing in it is a tag but the first one that can close
it. -/
def raw (opened : OpenedTag) : Grammar Node := do
  let right ← edge
  tagEnd dialect
  let run ← upTo (matchesAt (rawEnd dialect))
  let closing ← rawEnd dialect <|> failAt (.openConstruct "raw" "endraw") opened.offset
  return .raw opened.offset ⟨opened.trim, right⟩ (Passage.ofChars run) closing

end Templating.Grammar
