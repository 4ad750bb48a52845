import Templating.Report.Basic
import Templating.Setting.Value

/-! # Loaders

A loader finds the sources of templates by name, in a table or by asking a function. -/

namespace Templating

/-- The source of a template and the file that it was read from, if it was. -/
structure LoadedSource where
  text : String
  filename : Option String := none
  deriving Repr, DecidableEq

inductive Loader where
  | table (sources : List (String × String))
  | function (load : String → Option LoadedSource)

/-- Why a template has no source. -/
inductive LoadProblem where
  | notInTable (name : String)
  | notFound (name : String)
  | noLoader (name : String)
  deriving Repr, DecidableEq

namespace LoadProblem

def message : LoadProblem → String
  | notInTable name => s!"Template '{name}' not found in DictLoader"
  | notFound name => s!"Template '{name}' not found"
  | noLoader name => s!"Template '{name}' requested but no loader is configured"

def report (problem : LoadProblem) : Report :=
  .missingTemplate problem.message

end LoadProblem

namespace Loader

/-- The source of the template with this name. -/
def load (name : String) : Loader → Except LoadProblem LoadedSource
  | table sources =>
      match sources.lookup name with
      | some text => .ok { text }
      | none => .error (.notInTable name)
  | function load =>
      match load name with
      | some source => .ok source
      | none => .error (.notFound name)

/-- The names of all templates, sorted, if the loader can tell them. -/
def names? : Loader → Option (List String)
  | table sources => some (Setting.sortNames (sources.map (·.1)))
  | function _ => none

end Loader

end Templating
