import Templating.Grammar.Problem
import Templating.Source

/-! # Reports of failed parses

A failure is told in terms of offsets. For a caller it becomes a report, which names the
template and shows the line at fault. -/

namespace Templating

namespace Failure

/-- The report of a failure to parse a source. -/
def report (source : Source) (failure : Failure) : Report :=
  let position := Text.position source.chars failure.offset
  .parse failure.code failure.offset
    { message := failure.message
      line := some position.line
      column := some position.column
      source := some source.text
      name := source.name
      filename := source.filename }
    failure.suggestion

end Failure

end Templating
