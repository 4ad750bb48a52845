import Templating.Text.Blank

/-! # Delimiters

The texts that set tags off from the text around them. -/

namespace Templating

/-- A text that may serve as a delimiter: at least two characters, none of them blank. -/
structure Delimiter where
  chars : List Char
  long : 2 ≤ chars.length
  solid : chars.any Text.isBlank = false
  deriving DecidableEq, Repr

namespace Delimiter

def text (delimiter : Delimiter) : String :=
  String.ofList delimiter.chars

/-- Neither delimiter is the beginning of the other, so that at most one of them stands at
any place of a source. -/
def Apart (left right : Delimiter) : Prop :=
  ¬ left.chars <+: right.chars ∧ ¬ right.chars <+: left.chars

instance (left right : Delimiter) : Decidable (Apart left right) :=
  inferInstanceAs (Decidable (_ ∧ _))

/-- A delimiter does not begin with a blank of the template language. -/
theorem isSpace_head (delimiter : Delimiter) {character : Char} {rest : List Char}
    (shape : delimiter.chars = character :: rest) : Text.isSpace character = false := by
  have solid := delimiter.solid
  cases space : Text.isSpace character with
  | false => rfl
  | true => simp [shape, Text.isBlank_of_isSpace space] at solid

end Delimiter

/-- What a delimiter is for. -/
inductive DelimiterRole where
  | blockStart
  | blockEnd
  | exprStart
  | exprEnd
  | commentStart
  | commentEnd
  deriving DecidableEq, Repr

/-- The name of the setting that gives the delimiter. -/
def DelimiterRole.name : DelimiterRole → String
  | blockStart => "block_start"
  | blockEnd => "block_end"
  | exprStart => "expr_start"
  | exprEnd => "expr_end"
  | commentStart => "comment_start"
  | commentEnd => "comment_end"

end Templating
