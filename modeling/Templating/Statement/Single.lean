import Templating.Grammar.Pattern
import Templating.Statement.Tag
import Templating.Tree.Node

/-! # Statements of a single tag

Each rule reads what stands behind the word of its tag, up to the closing delimiter. -/

namespace Templating.Grammar

/-- A pattern that takes the value behind an equals sign, or that is declared without a
value. -/
def assignment [Room] (opened : OpenedTag) : Grammar Node := do
  let pattern ← expect pattern (.missingPattern .binding)
  (do
    token "="
    let value ← expect expression (.missingExpr .value)
    return .assign opened.offset ⟨opened.trim, ← edge⟩ pattern value) <|>
  (do return .declare opened.offset ⟨opened.trim, ← edge⟩ pattern)

/-- The call of a macro, perhaps of one from an imported template. -/
def macroCall [Room] (opened : OpenedTag) : Grammar Node := do
  let first ← expect nameToken (.missingName .calledMacro)
  let second ← optional do
    token "::"
    expect nameToken (.missingName .scopedMacro)
  let arguments ←
    (do
      ahead fun rest => rest.head? == some '('
      expect arguments .callArguments) <|> pure []
  let edges : Edges := ⟨opened.trim, ← edge⟩
  match second with
  | none => return .macroCall opened.offset edges none first arguments
  | some second => return .macroCall opened.offset edges (some first) second arguments

/-- The parent of the template. Its tag takes no trim markers. -/
def extension (opened : OpenedTag) : Grammar Node := do
  if opened.trim.isSome then
    failAt .trimmedExtension opened.offset
  let template ← expect stringToken (.missingPath .parent)
  return .extendTemplate opened.offset template

def inclusion (opened : OpenedTag) : Grammar Node := do
  let template ← expect stringToken (.missingPath .template)
  return .includeTemplate opened.offset ⟨opened.trim, ← edge⟩ template

/-- Macros from another template, under a name of their own. -/
def importation (opened : OpenedTag) : Grammar Node := do
  let template ← expect stringToken (.missingPath .template)
  let _ ← expect (keyword "as") (.missingWord "as")
  let scope ← expect nameToken (.missingName .importAlias)
  return .importMacros opened.offset ⟨opened.trim, ← edge⟩ template scope

end Templating.Grammar
