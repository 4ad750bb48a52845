import Templating.Dialect.Settings
import Templating.Environment.Loader
import Templating.Report.Failure
import Templating.Statement.Document

/-! # Environments

An environment keeps dialects under their names, one of which is used where none is asked
for, and perhaps a loader that finds templates by name. What it does it also writes to a
log. -/

namespace Templating

/-- Dialects under their names. Every name occurs once. -/
abbrev Registry := List (String × Dialect)

namespace Registry

/-- Puts a dialect under a name, in place of the one that had it before. -/
def insert (name : String) (dialect : Dialect) : Registry → Registry
  | [] => [(name, dialect)]
  | entry :: rest =>
      if entry.1 == name then (name, dialect) :: rest else entry :: insert name dialect rest

/-- Puts dialects under their names, one after the other. -/
def insertAll (entries : List (String × Dialect)) (registry : Registry) : Registry :=
  entries.foldl (fun registry entry => registry.insert entry.1 entry.2) registry

/-- The names in use, sorted. -/
def names (registry : Registry) : List String :=
  Setting.sortNames (registry.map (·.1))

/-- The dialect that was put under a name last. -/
theorem lookup_insert (name other : String) (dialect : Dialect) (registry : Registry) :
    (registry.insert name dialect).lookup other =
      if other == name then some dialect else registry.lookup other := by
  induction registry with
  | nil =>
      rw [insert, List.lookup_cons]
      cases other == name <;> rfl
  | cons entry rest induction =>
      obtain ⟨key, value⟩ := entry
      by_cases same : key = name
      · subst same
        rw [insert, if_pos (beq_self_eq_true key), List.lookup_cons, List.lookup_cons]
        cases other == key <;> rfl
      · rw [insert, if_neg (by simpa using same), List.lookup_cons, List.lookup_cons, induction]
        cases found : other == key with
        | false => rfl
        | true =>
            have : ¬ other = name := by
              rw [beq_iff_eq.mp found]
              exact same
            show some value = if other == name then some dialect else some value
            rw [if_neg (by simpa using this)]

end Registry

structure Environment where
  dialects : Registry
  /-- The name of the dialect that is used where none is asked for. -/
  defaultName : String
  loader : Option Loader := none

/-- Why there is no environment, or no dialect of a name in it. -/
inductive ConfigProblem where
  | unknownSections (names : List String)
  | unknownGeneralOptions (names : List String)
  | unnamedDialect
  | reservedName
  | duplicateName (name : String)
  | dialect (problem : DialectProblem)
  | undefinedDefault (given : String)
  | undefinedDialect (name : String)

/-- Name of the standard dialect, which every environment has. -/
def standardName : String := "default"

namespace ConfigProblem

def message : ConfigProblem → String
  | unknownSections names => "unknown configuration section(s): " ++ ", ".intercalate names
  | unknownGeneralOptions names => "unknown [general] option(s): " ++ ", ".intercalate names
  | unnamedDialect => "every [[syntax]] entry needs a name"
  | reservedName => s!"syntax name '{standardName}' is reserved"
  | duplicateName name => s!"syntax '{name}' is defined more than once"
  | dialect problem => problem.message
  | undefinedDefault given => s!"default syntax '{given}' is not defined"
  | undefinedDialect name => s!"syntax '{name}' is not defined"

def code : ConfigProblem → ErrorCode
  | unknownSections _ | unknownGeneralOptions _ | unnamedDialect => .invalidConfig
  | reservedName | duplicateName _ => .duplicateSyntax
  | dialect problem => problem.code
  | undefinedDefault _ | undefinedDialect _ => .unknownSyntax

def report (problem : ConfigProblem) : Report :=
  .configuration problem.code problem.message

end ConfigProblem

/-- What is written to the log. -/
inductive LogEvent where
  | configured (names : List String) (defaultName : String)
  | parsing (name : Option String) (length : Nat)
  | parsed (name : Option String) (nodes : Nat)
  deriving Repr, DecidableEq

namespace LogEvent

/-- A template without a name, or with an empty one, is given a substitute in the log. -/
def shownName (name : Option String) : String :=
  if name.getD "" == "" then "<string>" else name.getD ""

def message : LogEvent → String
  | configured names defaultName =>
      let list := (Value.list (names.map .text)).shown
      s!"environment configured with syntaxes {list} (default {Text.quoted defaultName})"
  | parsing name length => s!"parsing template {shownName name} ({length} chars)"
  | parsed name nodes => s!"parsed template {shownName name} into {nodes} top-level nodes"

end LogEvent

/-- Why an environment did not give what it was asked for. -/
inductive EnvironmentError where
  | config (problem : ConfigProblem)
  | load (problem : LoadProblem)
  | parse (source : Source) (failure : Failure)

namespace EnvironmentError

def report : EnvironmentError → Report
  | config problem => problem.report
  | load problem => problem.report
  | parse source failure => failure.report source

end EnvironmentError

namespace Environment

/-- An environment of the standard dialect and others, which may take its place. The default
is given as a value, which has to be the name of a dialect. -/
def create (others : List (String × Dialect)) (defaultName : Value) (loader : Option Loader) :
    Except ConfigProblem (Environment × List LogEvent) :=
  let dialects := Registry.insertAll others [(standardName, Dialect.standard)]
  match defaultName with
  | .text name =>
      if (dialects.lookup name).isSome then
        .ok ({ dialects, defaultName := name, loader }, [.configured dialects.names name])
      else .error (.undefinedDefault name)
  | other => .error (.undefinedDefault other.shown)

/-- The dialect of a name. Without a name, or with an empty one, it is the default. -/
def dialect (environment : Environment) (name : Option String) : Except ConfigProblem Dialect :=
  let name := if name.getD "" == "" then environment.defaultName else name.getD ""
  match environment.dialects.lookup name with
  | some dialect => .ok dialect
  | none => .error (.undefinedDialect name)

/-- The template that a source is in the dialect of a name, and what is logged about it. -/
def parse [Room] (environment : Environment) (source : Source) (dialectName : Option String) :
    Except EnvironmentError Template × List LogEvent :=
  match environment.dialect dialectName with
  | .error problem => (.error (.config problem), [])
  | .ok dialect =>
      let begun := LogEvent.parsing source.name source.chars.length
      match Template.parse dialect source with
      | .error failure => (.error (.parse source failure), [begun])
      | .ok template => (.ok template, [begun, .parsed source.name template.body.length])

/-- The source that the loader finds under a name. -/
def load (environment : Environment) (name : String) : Except LoadProblem LoadedSource :=
  match environment.loader with
  | none => .error (.noLoader name)
  | some loader => loader.load name

/-- The template that the loader finds under a name. -/
def template [Room] (environment : Environment) (name : String) (dialectName : Option String) :
    Except EnvironmentError Template × List LogEvent :=
  match environment.load name with
  | .error problem => (.error (.load problem), [])
  | .ok loaded =>
      environment.parse { text := loaded.text, name := some name, filename := loaded.filename }
        dialectName

/-- Puts a dialect under a name. -/
def register (environment : Environment) (name : String) (dialect : Dialect) : Environment :=
  { environment with dialects := environment.dialects.insert name dialect }

/-- Puts the dialect that settings describe under a name. -/
def registerSettings (environment : Environment) (name : String) (settings : List Setting) :
    Except ConfigProblem Environment :=
  match Dialect.ofSettings settings with
  | .error problem => .error (.dialect problem)
  | .ok dialect => .ok (environment.register name dialect)

def setLoader (environment : Environment) (loader : Option Loader) : Environment :=
  { environment with loader }

end Environment

end Templating
