import Templating.Source
import Templating.Statement.Body

/-! # Templates from sources

A source is a template if its outermost body goes on to its end. -/

namespace Templating

namespace Parser

/-- A whole source, which has to end with its outermost body. -/
def document [Room] (dialect : Dialect) : Parser (List Node) := do
  let body ← nodes dialect
  Grammar.endOfSource dialect
  return body

/-- A source either is a template or fails to be one. -/
theorem document_ne_noMatch [Room] (dialect : Dialect) (counters : Counters) (cursor : Cursor) :
    (document dialect counters cursor).1 ≠ .noMatch := by
  rw [document, bind_apply]
  cases read : nodes dialect counters cursor with
  | mk outcome counters' =>
      cases outcome with
      | matched body cursor' =>
          simp only [bind_apply, liftM_apply]
          cases ended : Grammar.endOfSource dialect cursor' with
          | matched _ cursor'' => simp
          | noMatch => exact absurd ended (Grammar.endOfSource_ne_noMatch dialect cursor')
          | failed failure => simp
      | noMatch =>
          have := nodes_ne_noMatch dialect counters cursor
          simp [read] at this
      | failed failure => simp

end Parser

namespace Template

/-- The template that a source is, or why it is none. Between a match and a failure there is
no third outcome, by `Parser.document_ne_noMatch`. -/
def parse [Room] (dialect : Dialect) (source : Source) : Except Failure Template :=
  match (Parser.document dialect .zero (.start source.chars)).1 with
  | .matched body _ => .ok { body, name := source.name }
  | .noMatch => .error (.malformed .unexpectedInput 0)
  | .failed failure => .error failure

end Template

end Templating
