import Templating.Dialect.Basic
import Templating.Report.Basic
import Templating.Setting.Value

/-! # Dialects from settings

A table of settings describes a dialect: each delimiter and the nesting limit may be given
under its name, and what is not given is as in the standard dialect. The first setting that
is at fault decides what is reported. -/

namespace Templating

/-- Why settings describe no dialect. -/
inductive DialectProblem where
  | unknownOptions (names : List String)
  | shortDelimiter (role : DelimiterRole) (given : Value)
  | blankInDelimiter (role : DelimiterRole) (given : String)
  | ambiguous (first : DelimiterRole) (firstText : String)
      (second : DelimiterRole) (secondText : String)
  | depthNotInteger (given : Value)
  | depthNotPositive (given : Int)

namespace DialectProblem

def message : DialectProblem → String
  | unknownOptions names => "unknown syntax option(s): " ++ ", ".intercalate names
  | shortDelimiter role given =>
      s!"delimiter {role.name} must be at least two characters long, got {given.shown}"
  | blankInDelimiter role given =>
      s!"delimiter {role.name} may not contain whitespace, got {Text.quoted given}"
  | ambiguous first firstText second secondText =>
      s!"delimiters {first.name} ({Text.quoted firstText}) and {second.name} " ++
        s!"({Text.quoted secondText}) are ambiguous: one is a prefix of the other"
  | depthNotInteger given => s!"max_depth must be an integer, got {given.shown}"
  | depthNotPositive given => s!"max_depth must be positive, got {given}"

def code : DialectProblem → ErrorCode
  | shortDelimiter .. | blankInDelimiter .. | ambiguous .. => .invalidDelimiter
  | unknownOptions _ | depthNotInteger _ | depthNotPositive _ => .invalidConfig

def report (problem : DialectProblem) : Report :=
  .configuration problem.code problem.message

end DialectProblem

namespace Delimiter

/-- The delimiter that a setting gives for a role. -/
def ofValue (role : DelimiterRole) : Value → Except DialectProblem Delimiter
  | .text given =>
      if long : 2 ≤ given.toList.length then
        if solid : given.toList.any Text.isBlank = false then
          .ok ⟨given.toList, long, solid⟩
        else .error (.blankInDelimiter role given)
      else .error (.shortDelimiter role (.text given))
  | given => .error (.shortDelimiter role given)

/-- The delimiter for a role, which is the standard one unless the settings give another. -/
def ofSettings (settings : List Setting) (role : DelimiterRole) :
    Except DialectProblem Delimiter :=
  match Setting.find? settings role.name with
  | none => .ok (Dialect.standard.delimiter role)
  | some given => ofValue role given

end Delimiter

namespace Dialect

/-- The name of the setting that gives the nesting limit. -/
def depthName : String := "max_depth"

/-- The names that settings of a dialect may have. A dialect's own name belongs to whoever
keeps the dialect. -/
def optionNames : List String :=
  ["block_start", "block_end", "expr_start", "expr_end", "comment_start", "comment_end", depthName,
    "name"]

/-- A nesting limit that admits at least the top level. -/
def depthOfValue : Value → Except DialectProblem { depth : Nat // 0 < depth }
  | .integer given =>
      if positive : 0 < given then .ok ⟨given.toNat, by omega⟩
      else .error (.depthNotPositive given)
  | given => .error (.depthNotInteger given)

def depthOfSettings (settings : List Setting) :
    Except DialectProblem { depth : Nat // 0 < depth } :=
  match Setting.find? settings depthName with
  | none => .ok ⟨standard.maxDepth, standard.maxDepth_pos⟩
  | some given => depthOfValue given

/-- Two opening delimiters that can be told apart wherever one of them stands. -/
def checkApart (firstRole secondRole : DelimiterRole) (first second : Delimiter) :
    Except DialectProblem (PLift (first.Apart second)) :=
  if apart : first.Apart second then .ok ⟨apart⟩
  else .error (.ambiguous firstRole first.text secondRole second.text)

/-- The dialect that settings describe, or the first fault in them: unknown names, then each
delimiter, then each pair of opening delimiters, then the nesting limit. -/
def ofSettings (settings : List Setting) : Except DialectProblem Dialect := do
  let unknown := Setting.unknownNames optionNames settings
  unless unknown.isEmpty do
    throw (.unknownOptions unknown)
  let blockStart ← Delimiter.ofSettings settings .blockStart
  let blockEnd ← Delimiter.ofSettings settings .blockEnd
  let exprStart ← Delimiter.ofSettings settings .exprStart
  let exprEnd ← Delimiter.ofSettings settings .exprEnd
  let commentStart ← Delimiter.ofSettings settings .commentStart
  let commentEnd ← Delimiter.ofSettings settings .commentEnd
  let blockExpr ← checkApart .blockStart .exprStart blockStart exprStart
  let blockComment ← checkApart .blockStart .commentStart blockStart commentStart
  let exprComment ← checkApart .exprStart .commentStart exprStart commentStart
  let depth ← depthOfSettings settings
  return {
    blockStart, blockEnd, exprStart, exprEnd, commentStart, commentEnd
    maxDepth := depth.val
    block_apart_expr := blockExpr.down
    block_apart_comment := blockComment.down
    expr_apart_comment := exprComment.down
    maxDepth_pos := depth.property }

end Dialect

end Templating
