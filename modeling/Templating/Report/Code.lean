/-! # Error codes

Every kind of error has a code by which it can be looked up. -/

namespace Templating

inductive ErrorCode where
  | unexpectedInput
  | unclosedTag
  | invalidExpression
  | invalidPattern
  | loopControlOutsideLoop
  | reservedName
  | nestingTooDeep
  | unclosedComment
  | invalidDelimiter
  | unknownSyntax
  | duplicateSyntax
  | invalidConfig
  | templateNotFound
  | syntaxError
  deriving Repr, DecidableEq

namespace ErrorCode

def all : List ErrorCode :=
  [unexpectedInput, unclosedTag, invalidExpression, invalidPattern, loopControlOutsideLoop,
    reservedName, nestingTooDeep, unclosedComment, invalidDelimiter, unknownSyntax, duplicateSyntax,
    invalidConfig, templateNotFound, syntaxError]

theorem mem_all (code : ErrorCode) : code ∈ all := by
  cases code <;> decide

/-- The part of the program that an error comes from. -/
inductive Category where
  | parser
  | config
  | template
  deriving Repr, DecidableEq

namespace Category

def name : Category → String
  | parser => "parser"
  | config => "config"
  | template => "template"

/-- How the category is written inside a code. -/
def mark : Category → String
  | parser => "PAR"
  | config => "CFG"
  | template => "TPL"

end Category

/-- The category of a code and its number in it. -/
def place : ErrorCode → Category × Nat
  | unexpectedInput => (.parser, 1)
  | unclosedTag => (.parser, 2)
  | invalidExpression => (.parser, 3)
  | invalidPattern => (.parser, 4)
  | loopControlOutsideLoop => (.parser, 5)
  | reservedName => (.parser, 6)
  | nestingTooDeep => (.parser, 7)
  | unclosedComment => (.parser, 8)
  | invalidDelimiter => (.config, 1)
  | unknownSyntax => (.config, 2)
  | duplicateSyntax => (.config, 3)
  | invalidConfig => (.config, 4)
  | templateNotFound => (.template, 1)
  | syntaxError => (.template, 2)

def category (code : ErrorCode) : Category :=
  code.place.1

/-- The code as it is written. -/
def text (code : ErrorCode) : String :=
  "T-" ++ code.category.mark ++ "-00" ++ toString code.place.2

/-- The name of the kind of error. -/
def name : ErrorCode → String
  | unexpectedInput => "UNEXPECTED_INPUT"
  | unclosedTag => "UNCLOSED_TAG"
  | invalidExpression => "INVALID_EXPRESSION"
  | invalidPattern => "INVALID_PATTERN"
  | loopControlOutsideLoop => "LOOP_CONTROL_OUTSIDE_LOOP"
  | reservedName => "RESERVED_NAME"
  | nestingTooDeep => "NESTING_TOO_DEEP"
  | unclosedComment => "UNCLOSED_COMMENT"
  | invalidDelimiter => "INVALID_DELIMITER"
  | unknownSyntax => "UNKNOWN_SYNTAX"
  | duplicateSyntax => "DUPLICATE_SYNTAX"
  | invalidConfig => "INVALID_CONFIG"
  | templateNotFound => "TEMPLATE_NOT_FOUND"
  | syntaxError => "SYNTAX_ERROR"

def ofName? (name : String) : Option ErrorCode :=
  all.find? fun code => code.name == name

theorem ofName?_name (code : ErrorCode) : ofName? code.name = some code := by
  cases code <;> decide

end ErrorCode

end Templating
