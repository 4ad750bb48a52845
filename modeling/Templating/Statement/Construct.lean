import Templating.Grammar.Pattern
import Templating.Statement.Parser
import Templating.Statement.Text

/-! # Constructs with bodies

Each rule reads what stands behind the word of the opening tag, the bodies and the tags
between them, and the end tag up to its closing delimiter. The rule for a body is a
parameter. -/

namespace Templating.Grammar

/-- What decides a branch: a pattern for the value of an expression, or an expression by
itself. If what begins like a pattern is not followed by an equals sign, it is read again as
an expression. -/
def condition [Room] : Grammar Condition := do
  let start ← here
  let pattern ← optional do
    let _ ← keyword "let" <|> keyword "set"
    let pattern ← pattern
    token "="
    return pattern
  let expression ← expect expression (.missingExpr .condition)
  return ⟨start, pattern, expression⟩

/-- The rest of a tag: its right trim marker and its closing delimiter. -/
def tagRest (dialect : Dialect) : Grammar (Option Trim) := do
  let right ← edge
  tagEnd dialect
  return right

/-- The names of the parameters of a macro, in parentheses. -/
def parameters : Grammar (List String) := do
  token "("
  (do token ")"; return []) <|> do
    let first ← expect nameToken (.missingName .parameter)
    let others ← many do
      token ","
      expect nameToken (.missingName .parameter)
    expect (token ")") .parameterEnd
    return first :: others

/-- Blanks and comments. -/
def skipComments (dialect : Dialect) : Grammar Unit := do
  spaces
  let _ ← many do
    let _ ← comment dialect
    spaces
  return ()

end Templating.Grammar

namespace Templating.Parser

open Grammar (edge endTag tag tagEnd tagRest missingEndTag)

variable (dialect : Dialect) (body : Parser (List Node)) (opened : OpenedTag)

/-! ## Conditionals -/

/-- A branch with a condition behind the first one. -/
def elseIfBranch [Room] : Parser Branch := do
  let opened ← tag dialect ["else"]
  let _ ← Grammar.keyword "if"
  let condition ← Grammar.condition
  let right ← tagRest dialect
  return ⟨opened.offset, ⟨opened.trim, right⟩, some condition, ← body⟩

/-- The branch without a condition. -/
def elseBranch : Parser Branch := do
  let opened ← tag dialect ["else"]
  let right ← tagRest dialect
  return ⟨opened.offset, ⟨opened.trim, right⟩, none, ← body⟩

/-- Ends the parse if another `else` begins here. -/
def rejectElse (problem : Problem) : Grammar Unit :=
  (do
    let second ← tag dialect ["else"]
    Grammar.failAt problem second.offset) <|> pure ()

def conditional [Room] : Parser Node := do
  let condition ← Grammar.condition
  let right ← tagRest dialect
  let first : Branch := ⟨opened.offset, ⟨opened.trim, right⟩, some condition, ← body⟩
  let others ← many (elseIfBranch dialect body)
  let last ← optional (elseBranch dialect body)
  rejectElse dialect .elseNotLast
  let closingLeft ← endTag dialect "if" "endif" opened.offset
  let closingRight ← edge
  return .conditional opened.offset (first :: others ++ last.toList) ⟨closingLeft, closingRight⟩

/-! ## Loops -/

/-- The end of a loop without an alternative, or the alternative and the end: the markers of
the tag behind the body, the alternative, and the markers of the tag that closes the loop as
far as it is another one. -/
def loopRest : Parser (Edges × List Node × Edges) :=
  (do
    let closing ← tag dialect ["endfor"]
    return (⟨closing.trim, none⟩, [], ⟨none, ← edge⟩)) <|>
  (do
    let middle ← tag dialect ["else"]
    let right ← tagRest dialect
    let alternative ← body
    let closingLeft ← endTag dialect "for" "endfor" opened.offset
    return (⟨middle.trim, right⟩, alternative, ⟨closingLeft, ← edge⟩)) <|>
  ofGrammar (missingEndTag dialect "for" "endfor" opened.offset)

/-- A loop. Only its body counts as the body of a loop, its alternative does not. -/
def loop [Room] : Parser Node := do
  let pattern ← Grammar.expect Grammar.pattern (.missingPattern .loopVariable)
  let _ ← Grammar.expect (Grammar.keyword "in") (.missingWord "in")
  let iterable ← Grammar.expect Grammar.expression (.missingExpr .iterable)
  let guard ← Grammar.optional do
    let _ ← Grammar.keyword "if"
    Grammar.expect Grammar.expression (.missingExpr .condition)
  let right ← tagRest dialect
  let nodes ← inLoop body
  let (middle, alternative, closing) ← loopRest dialect body opened
  return .loop opened.offset ⟨opened.trim, right⟩ pattern iterable guard nodes middle alternative
    closing

/-- A statement that leaves the body of a loop or goes on with the next turn. -/
def loopControl (keyword : Keyword) (node : Nat → Edges → Node) : Parser Node := do
  unless (← getCounters).inLoop do
    Grammar.failAt (.loopControlOutside keyword.word) opened.offset
  return node opened.offset ⟨opened.trim, ← edge⟩

/-! ## Choices -/

def whenArm [Room] : Parser Arm := do
  let opened ← tag dialect ["when"]
  let pattern ← Grammar.expect Grammar.pattern (.missingPattern .arm)
  let right ← tagRest dialect
  return ⟨opened.offset, ⟨opened.trim, right⟩, pattern, ← body⟩

/-- The arm that is taken when no other is. It has the pattern that matches everything. -/
def elseArm : Parser Arm := do
  let opened ← tag dialect ["else"]
  let right ← tagRest dialect
  return ⟨opened.offset, ⟨opened.trim, right⟩, .name opened.offset "_", ← body⟩

/-- A choice. The arm for everything else may stand anywhere among the arms and comes
last. -/
def choice [Room] : Parser Node := do
  let subject ← Grammar.expect Grammar.expression (.missingExpr .subject)
  let right ← tagRest dialect
  Grammar.skipComments dialect
  let before ← many (whenArm dialect body)
  let otherwise ← optional (elseArm dialect body)
  let after ← if otherwise.isSome then many (whenArm dialect body) else pure []
  rejectElse dialect .secondElse
  if (before ++ after).isEmpty then
    Grammar.fail .noArm
  let closingLeft ← endTag dialect "match" "endmatch" opened.offset
  let closingRight ← edge
  return .choice opened.offset ⟨opened.trim, right⟩ subject (before ++ after ++ otherwise.toList)
    ⟨closingLeft, closingRight⟩

/-! ## Blocks and macros -/

/-- A block that a template which extends this one may replace. A name behind the end tag's
word is read and not compared. -/
def block : Parser Node := do
  let name ← Grammar.expect Grammar.nameToken (.missingName .block)
  let right ← tagRest dialect
  let nodes ← body
  let closingLeft ← endTag dialect "block" "endblock" opened.offset
  let _ ← Grammar.optional Grammar.nameToken
  let closingRight ← edge
  return .block opened.offset ⟨opened.trim, right⟩ name nodes ⟨closingLeft, closingRight⟩

/-- Names that no macro may have. -/
def reservedMacroNames : List String := ["super"]

/-- A macro. Its parameters may be left out with their parentheses. -/
def macroDef : Parser Node := do
  Grammar.spaces
  let nameOffset ← Grammar.here
  let name ← Grammar.expect Grammar.nameToken (.missingName .macroDef)
  if reservedMacroNames.contains name then
    Grammar.failAt (.reservedMacroName name) nameOffset
  let parameters := (← Grammar.optional Grammar.parameters).getD []
  let right ← tagRest dialect
  let nodes ← body
  let closingLeft ← endTag dialect "macro" "endmacro" opened.offset
  let _ ← Grammar.optional Grammar.nameToken
  let closingRight ← edge
  return .macroDef opened.offset name ⟨opened.trim, right⟩ parameters nodes
    ⟨closingLeft, closingRight⟩

end Templating.Parser
