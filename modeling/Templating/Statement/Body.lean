import Templating.Statement.Construct
import Templating.Statement.Single

/-! # Bodies

A body is a sequence of text, comments, outputs and statements. It ends where none of them
stands: at the end of the source, or at a tag that some construct around it waits for. -/

namespace Templating.Parser

variable (dialect : Dialect)

/-- What follows the word of a statement, up to the closing delimiter of its last tag. -/
def statementRest [Room] (body : Parser (List Node)) (opened : OpenedTag) : Keyword → Parser Node
  | .call => Grammar.macroCall opened
  | .letBinding | .setBinding => Grammar.assignment opened
  | .conditional => conditional dialect body opened
  | .loop => loop dialect body opened
  | .choice => choice dialect body opened
  | .extendTemplate => Grammar.extension opened
  | .includeTemplate => Grammar.inclusion opened
  | .importMacros => Grammar.importation opened
  | .block => block dialect body opened
  | .macroDef => macroDef dialect body opened
  | .raw => Grammar.raw dialect opened
  | .breakLoop => loopControl opened .breakLoop .breakLoop
  | .continueLoop => loopControl opened .continueLoop .continueLoop

/-- The beginning of a tag whose word is that of a statement. -/
def statementStart : Grammar (OpenedTag × Keyword) := do
  let offset ← Grammar.here
  Grammar.exact dialect.blockStart.chars
  let trim ← Grammar.edge
  Grammar.spaces
  let word ← Grammar.name
  match Keyword.ofWord? word with
  | none => Grammar.noMatch
  | some keyword =>
      Grammar.spaces
      return ({ offset, trim, word }, keyword)

/-- A statement. A tag whose word begins no statement is left to the constructs around
it. -/
def statement [Room] (body : Parser (List Node)) : Parser Node := do
  let (opened, keyword) ← statementStart dialect
  let node ← statementRest dialect body opened keyword
  Grammar.tagEnd dialect
  return node

def node [Room] (body : Parser (List Node)) : Parser Node :=
  ofGrammar (Grammar.text dialect) <|> ofGrammar (Grammar.comment dialect) <|>
    ofGrammar (Grammar.output dialect) <|> statement dialect body

/-- Ends the parse if more bodies are open than the dialect admits. -/
def checkDepth : Parser Unit := do
  if (← getCounters).tooDeep dialect.maxDepth then
    Grammar.fail (.nestingLimit dialect.maxDepth)

theorem checkDepth_apply (counters : Counters) (cursor : Cursor) :
    checkDepth dialect counters cursor =
      if counters.tooDeep dialect.maxDepth then
        (.failed (.malformed (.nestingLimit dialect.maxDepth) cursor.skipSpaces.offset), counters)
      else (.matched () cursor, counters) := by
  show (if counters.tooDeep dialect.maxDepth then
    liftM (Grammar.fail (.nestingLimit dialect.maxDepth))
    else pure () : Parser Unit) counters cursor = _
  split <;> rfl

/-- A body with at most so many levels of bodies, itself included. The counters end the
parse before the levels do, if there is one level more than the dialect admits. -/
def nodesWithin [Room] : (levels : Nat) → Parser (List Node)
  | 0 => ofGrammar (Grammar.fail (.nestingLimit dialect.maxDepth))
  | levels + 1 => inBody do
      checkDepth dialect
      many (node dialect (nodesWithin levels))

/-- A body. -/
def nodes [Room] : Parser (List Node) :=
  nodesWithin dialect (dialect.maxDepth + 1)

/-- A body always matches or fails. -/
theorem nodes_ne_noMatch [Room] (counters : Counters) (cursor : Cursor) :
    (nodes dialect counters cursor).1 ≠ .noMatch := by
  show ((checkDepth dialect >>= fun _ => many (node dialect (nodesWithin dialect dialect.maxDepth)))
    counters.enterBody cursor).1 ≠ .noMatch
  rw [bind_apply, checkDepth_apply]
  cases counters.enterBody.tooDeep dialect.maxDepth with
  | true => simp
  | false => exact manyFor_ne_noMatch _ _ _ _

end Templating.Parser
