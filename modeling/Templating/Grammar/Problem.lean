import Templating.Grammar.Keyword
import Templating.Report.Basic
import Templating.Text.Quoted

/-! # What can be wrong with a template

Once the beginning of a construct has been read, nothing else can be meant, and a fault in
the rest of it ends the parse. A problem says what the fault is; its code, its wording and
the advice that goes with it are derived from that. -/

namespace Templating

/-- What a name is needed for. -/
inductive NameUse where
  | block
  | macroDef
  | parameter
  | calledMacro
  | scopedMacro
  | importAlias
  deriving Repr, DecidableEq

def NameUse.description : NameUse → String
  | block => "block name"
  | macroDef => "macro name"
  | parameter => "parameter name"
  | calledMacro => "macro name after 'call'"
  | scopedMacro => "macro name after '::'"
  | importAlias => "alias name after 'as'"

/-- What a quoted text is needed for. -/
inductive PathUse where
  | parent
  | template
  deriving Repr, DecidableEq

def PathUse.description : PathUse → String
  | parent => "parent template name"
  | template => "template name"

/-- What an expression is needed for. -/
inductive ExprUse where
  | condition
  | iterable
  | subject
  | value
  /-- What is shown, behind this opening delimiter. -/
  | output (opening : String)
  deriving Repr, DecidableEq

def ExprUse.description : ExprUse → String
  | condition => "a condition after 'if'"
  | iterable => "an iterable after 'in'"
  | subject => "an expression after 'match'"
  | value => "an expression after '='"
  | output opening => s!"an expression after '{opening}'"

/-- What a pattern is needed for. -/
inductive PatternUse where
  | loopVariable
  | binding
  | arm
  | field (name : String)
  deriving Repr, DecidableEq

def PatternUse.description : PatternUse → String
  | loopVariable => "a loop variable after 'for'"
  | binding => "a variable name or pattern"
  | arm => "a pattern after 'when'"
  | field name => s!"a pattern for field '{name}'"

/-- What stands where an end tag should. -/
inductive Found where
  | text
  | malformedTag
  | tag (word : String)
  deriving Repr, DecidableEq

def Found.description : Found → String
  | text => "text"
  | malformedTag => "a malformed tag"
  | tag word => s!"'{word}'"

inductive Problem where
  | unexpectedInput
  /-- This text is missing; the description stands in its stead in the message. -/
  | missingText (text : String) (description : Option String)
  | missingWord (word : String)
  | missingName (use : NameUse)
  | missingPath (use : PathUse)
  | missingExpr (use : ExprUse)
  | missingPattern (use : PatternUse)
  /-- The delimiter that closes a tag is missing. -/
  | openTag (closing : String)
  /-- The delimiter that closes an output is missing. -/
  | openOutput (closing : String)
  | openComment (closing : String)
  /-- Neither a pattern nor the bracket that closes a payload. -/
  | payloadItem (closing : Char)
  /-- Neither a comma nor the bracket that closes a payload. -/
  | payloadEnd (closing : Char)
  | tupleEnd
  | callArguments
  | parameterEnd
  | elseNotLast
  | secondElse
  | noArm
  | loopControlOutside (word : String)
  /-- The source ends before the end tag of a construct. -/
  | openConstruct (opener closer : String)
  | wrongEndTag (opener closer : String) (found : Found)
  | reservedMacroName (name : String)
  | trimmedExtension
  /-- A word that goes on with a construct, but none is open. -/
  | strayWord (word : String)
  | missingKeyword (opening : String)
  | unknownWord (word : String)
  | nestingLimit (limit : Nat)
  deriving Repr, DecidableEq

namespace Problem

def message : Problem → String
  | unexpectedInput => "Unexpected input"
  | missingText text description =>
      "Expected " ++
        if description.getD "" == "" then Text.quoted text else description.getD ""
  | missingWord word => s!"Expected '{word}'"
  | missingName use => s!"Expected {use.description}"
  | missingPath use => s!"Expected {use.description} as a double-quoted string"
  | missingExpr use => s!"Expected {use.description}"
  | missingPattern use => s!"Expected {use.description}"
  | openTag closing => s!"Expected '{closing}' to close the tag"
  | openOutput closing => s!"Expected '{closing}' to close the expression"
  | openComment _ => "Unclosed comment"
  | payloadItem closing => s!"Expected a pattern or '{closing}'"
  | payloadEnd closing => s!"Expected ',' or '{closing}' in pattern"
  | tupleEnd => "Expected ',' or ')' in tuple pattern"
  | callArguments => "Malformed macro call arguments"
  | parameterEnd => "Expected ',' or ')' in macro parameters"
  | elseNotLast => "'else' must be the last branch of an 'if'"
  | secondElse => "A 'match' may have only one 'else' arm"
  | noArm => "Expected at least one '\x7b% when %\x7d' arm in 'match'"
  | loopControlOutside word => s!"'{word}' outside of a loop"
  | openConstruct opener closer =>
      s!"Unclosed '{opener}' block: expected '{closer}' before end of template"
  | wrongEndTag opener closer found =>
      s!"Expected '{closer}' to close '{opener}', found {found.description}"
  | reservedMacroName name => s!"Invalid macro name '{name}'"
  | trimmedExtension => "Whitespace control is not supported on 'extends'"
  | strayWord word => s!"Unexpected '{word}' with no open construct"
  | missingKeyword opening => s!"Expected a statement keyword after '{opening}'"
  | unknownWord word => s!"Unknown tag '{word}'"
  | nestingLimit limit => s!"Template nesting exceeds the limit of {limit}"

def suggestion : Problem → Option String
  | missingPath _ => some "Template paths are string literals, e.g. \"base.html\""
  | openComment closing => some s!"Close the comment with '{closing}'"
  | parameterEnd => some "Macro syntax: \x7b% macro name(a, b) %\x7d"
  | elseNotLast =>
      some "Use '\x7b% else if cond %\x7d' before the final '\x7b% else %\x7d'"
  | noArm => some "\x7b% match value %\x7d\x7b% when Some(x) %\x7d...\x7b% endmatch %\x7d"
  | loopControlOutside word =>
      some s!"'{word}' is only valid inside a for loop body, not its else block"
  | reservedMacroName name => some s!"'{name}' is reserved; pick another name"
  | trimmedExtension => some "Write \x7b% extends \"base.html\" %\x7d without trim markers"
  | unknownWord _ => some ("Valid tags: " ++ ", ".intercalate Keyword.sortedWords)
  | _ => none

def code : Problem → ErrorCode
  | openTag _ | openOutput _ | openConstruct .. | wrongEndTag .. => .unclosedTag
  | missingExpr _ | callArguments => .invalidExpression
  | missingPattern _ | payloadItem _ | payloadEnd _ | tupleEnd => .invalidPattern
  | loopControlOutside _ => .loopControlOutsideLoop
  | reservedMacroName _ => .reservedName
  | nestingLimit _ => .nestingTooDeep
  | openComment _ => .unclosedComment
  | unexpectedInput | missingText .. | missingWord _ | missingName _ | missingPath _ | parameterEnd
  | elseNotLast | secondElse | noArm | trimmedExtension | strayWord _ | missingKeyword _
  | unknownWord _ => .unexpectedInput

end Problem

/-- Why a parse ended early. -/
inductive Failure where
  /-- The source is malformed at an offset. -/
  | malformed (problem : Problem) (offset : Nat)
  /-- Before an offset more brackets are open than there is room for. -/
  | tooDeep (offset : Nat)
  deriving Repr, DecidableEq

namespace Failure

def offset : Failure → Nat
  | malformed _ offset | tooDeep offset => offset

def message : Failure → String
  | malformed problem _ => problem.message
  | tooDeep _ => "Template is nested too deeply to parse"

def suggestion : Failure → Option String
  | malformed problem _ => problem.suggestion
  | tooDeep _ => none

def code : Failure → ErrorCode
  | malformed problem _ => problem.code
  | tooDeep _ => .nestingTooDeep

end Failure

end Templating
