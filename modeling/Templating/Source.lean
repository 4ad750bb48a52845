/-! # Sources

The text of a template together with what it is known by. -/

namespace Templating

/-- A text to be parsed. The name is what the template was asked for by, the filename where
its text was found. -/
structure Source where
  text : String
  name : Option String := none
  filename : Option String := none
  deriving Repr, DecidableEq

namespace Source

/-- The characters of the text, which offsets count. -/
def chars (source : Source) : List Char :=
  source.text.toList

end Source

end Templating
