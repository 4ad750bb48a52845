import Templating.Grammar.Expression
import Templating.Tree.Pattern

/-! # The grammar of patterns

A pattern is a literal, a tuple in parentheses, a qualified name with or without a payload,
or a name. Parentheses around one pattern mean nothing. Once a tuple goes on behind its
first item, or a payload has been opened, what does not fit ends the parse. -/

namespace Templating.Grammar

def literalPattern : Grammar Pattern := do
  let start ← here
  (do return .literal start .string (← string)) <|>
    (do return .literal start .character (← characterText)) <|>
    (do return .literal start .number (← number)) <|>
    (do return .literal start .boolean (← boolean))

def namePattern : Grammar Pattern := do
  let start ← here
  return .name start (← name)

/-- Items up to the bracket that closes them, separated by commas. A comma may stand behind
the last one. The opening bracket has been read. -/
def payload {α : Type} (closing : Char) (item : Grammar α) : Grammar (List α) :=
  let close := token (String.singleton closing)
  (do close; return []) <|> do
    let first ← expect item (.payloadItem closing)
    let others ← many do
      token ","
      ahead fun rest => rest.head? != some closing
      expect item (.payloadItem closing)
    let _ ← optional (token ",")
    expect close (.payloadEnd closing)
    return first :: others

/-! The rules below take the rule for what stands in brackets as `inner`. -/

section

variable (inner : Grammar Pattern)

/-- Parentheses: an empty tuple, a pattern by itself, or a tuple. -/
def groupPattern : Grammar Pattern := do
  let start ← here
  token "("
  (do token ")"; return .tuple start [] []) <|> do
    let first ← inner
    (do token ")"; return first) <|> do
      let others ← many do
        token ","
        inner
      let _ ← optional (token ",")
      expect (token ")") .tupleEnd
      return .tuple start [] (first :: others)

/-- A field and its pattern. A name by itself is bound under that name. -/
def field : Grammar Field := do
  spaces
  let start ← here
  let label ← nameToken
  (do
    token ":"
    return ⟨label, ← expect inner (.missingPattern (.field label))⟩) <|>
  return ⟨label, .name start label⟩

/-- A qualified name with a payload, by position in parentheses or by name in braces, or
without. The word `with` may stand before a payload; before anything else it is not read. -/
def pathPattern : Grammar Pattern := do
  let start ← here
  let segments ← path
  (do
    let _ ← optional (keyword "with")
    token "("
    return .tuple start segments (← payload ')' inner)) <|>
  (do
    let _ ← optional (keyword "with")
    token "\x7b"
    return .record start segments (← payload '\x7d' (field inner))) <|>
  return .path start segments

/-- A pattern with the blanks around it. -/
def patternOf : Grammar Pattern :=
  spaced (literalPattern <|> groupPattern inner <|> pathPattern inner <|> namePattern)

end

/-- A pattern on at most so many levels, the one outside of all brackets included. -/
def patternWithin : (brackets : Nat) → Grammar Pattern
  | 0 => tooDeep
  | brackets + 1 => patternOf (patternWithin brackets)

/-- A pattern with the blanks around it. -/
def pattern [Room] : Grammar Pattern :=
  patternWithin bracketLimit

end Templating.Grammar
