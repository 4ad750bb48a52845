import Templating.Environment.Basic

/-! # Environments from configuration documents

A document has a section of general options and a list of dialects, each a table of settings
with a name. The first fault in the order of reading decides what is reported. -/

namespace Templating.Environment

/-- The settings of a table. What is no table has none. -/
def tableOf : Value → List Setting
  | .table entries => entries
  | _ => []

/-- The items of a list. What is no list has none. -/
def itemsOf : Value → List Value
  | .list items => items
  | _ => []

/-- The name that a dialect may be kept under, beside those that are taken already. -/
def nameOfEntry (entry : List Setting) (taken : List String) : Except ConfigProblem String := do
  let given := (Setting.find? entry "name").getD .null
  unless given.isGiven do
    throw .unnamedDialect
  let name := given.plain
  if name == standardName then
    throw .reservedName
  if taken.contains name then
    throw (.duplicateName name)
  return name

/-- The dialects that entries describe, in their order, beside those that have been read
already. -/
def dialectsOfEntries : (entries : List Value) → (read : List (String × Dialect)) →
    Except ConfigProblem (List (String × Dialect))
  | [], read => .ok read
  | entry :: entries, read => do
      let name ← nameOfEntry (tableOf entry) (read.map (·.1))
      match Dialect.ofSettings (tableOf entry) with
      | .error problem => throw (.dialect problem)
      | .ok dialect => dialectsOfEntries entries (read ++ [(name, dialect)])

/-- The environment that a document describes. -/
def ofDocument (document : List Setting) (loader : Option Loader) :
    Except ConfigProblem (Environment × List LogEvent) := do
  let unknown := Setting.unknownNames ["general", "syntax"] document
  unless unknown.isEmpty do
    throw (.unknownSections unknown)
  let general := ((Setting.find? document "general").map tableOf).getD []
  let unknown := Setting.unknownNames ["default_syntax"] general
  unless unknown.isEmpty do
    throw (.unknownGeneralOptions unknown)
  let entries := ((Setting.find? document "syntax").map itemsOf).getD []
  let dialects ← dialectsOfEntries entries []
  create dialects ((Setting.find? general "default_syntax").getD (.text standardName)) loader

/-- The environment of dialects that are each described by settings under a name. -/
def ofSettings (described : List (String × List Setting)) (defaultName : Value)
    (loader : Option Loader) : Except ConfigProblem (Environment × List LogEvent) := do
  let dialects ← described.mapM fun (name, settings) =>
    match Dialect.ofSettings settings with
    | .error problem => throw (.dialect problem)
    | .ok dialect => return (name, dialect)
  create dialects defaultName loader

end Templating.Environment
