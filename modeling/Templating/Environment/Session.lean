import Templating.Environment.Document

/-! # Sessions

A session is an environment that is asked one thing after another. Requests can add dialects
and change the loader; every other request leaves the environment as it is, and so does a
request that fails. -/

namespace Templating

/-- What an environment can be asked. -/
inductive Request where
  | parse (source : Source) (dialectName : Option String)
  | dialect (name : Option String)
  | template (name : String) (dialectName : Option String)
  | source (name : String)
  | names
  | register (name : String) (settings : List Setting)
  | setLoader (loader : Option Loader)

/-- What an environment answers. -/
inductive Answer where
  | template (template : Template)
  | dialect (dialect : Dialect)
  | source (source : LoadedSource)
  | names (names : Option (List String))
  | registered (names : List String)
  | loader (loader : Option Loader)
  | error (error : EnvironmentError)

namespace Environment

private def answerTemplate : Except EnvironmentError Template → Answer
  | .ok template => .template template
  | .error error => .error error

/-- The environment after a request, the answer, and what is logged. -/
def perform [Room] (environment : Environment) : Request → Environment × Answer × List LogEvent
  | .parse source dialectName =>
      let (result, events) := environment.parse source dialectName
      (environment, answerTemplate result, events)
  | .dialect name =>
      match environment.dialect name with
      | .ok dialect => (environment, .dialect dialect, [])
      | .error problem => (environment, .error (.config problem), [])
  | .template name dialectName =>
      let (result, events) := environment.template name dialectName
      (environment, answerTemplate result, events)
  | .source name =>
      match environment.load name with
      | .ok source => (environment, .source source, [])
      | .error problem => (environment, .error (.load problem), [])
  | .names => (environment, .names (environment.loader.bind Loader.names?), [])
  | .register name settings =>
      match environment.registerSettings name settings with
      | .ok environment => (environment, .registered environment.dialects.names, [])
      | .error problem => (environment, .error (.config problem), [])
  | .setLoader loader => (environment.setLoader loader, .loader loader, [])

/-- The answers to several requests, each with what is logged, and the environment after
them. -/
def performAll [Room] (environment : Environment) :
    List Request → Environment × List (Answer × List LogEvent)
  | [] => (environment, [])
  | request :: requests =>
      let (next, answer, events) := environment.perform request
      let (last, answers) := next.performAll requests
      (last, (answer, events) :: answers)

end Environment

end Templating
