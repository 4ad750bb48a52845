import Templating.Text.Printable

/-! # Quoted texts

A message shows a text that it was given between quotes, with everything that would not show
in the message escaped. The quote is the single one unless the text holds single quotes and
no double ones. -/

namespace Templating.Text

/-- The last `width` hexadecimal digits of a number, in lower case. -/
def hexadecimal : (width : Nat) → Nat → List Char
  | 0, _ => []
  | width + 1, number => hexadecimal width (number / 16) ++ [Nat.digitChar (number % 16)]

/-- The quote around a text. -/
def quoteFor (text : List Char) : Char :=
  if text.contains '\'' && !text.contains '"' then '"' else '\''

/-- How a character stands between quotes: the quote and the backslash behind a backslash,
line breaks and tabs by letter, any other character that leaves no mark by the shortest of
the two-, four- and eight-digit codes that holds it. -/
def escaped (quote character : Char) : List Char :=
  if character == quote || character == '\\' then ['\\', character]
  else if character == '\n' then ['\\', 'n']
  else if character == '\r' then ['\\', 'r']
  else if character == '\t' then ['\\', 't']
  else if isPrintable character then [character]
  else if character.toNat < 0x100 then '\\' :: 'x' :: hexadecimal 2 character.toNat
  else if character.toNat < 0x10000 then '\\' :: 'u' :: hexadecimal 4 character.toNat
  else '\\' :: 'U' :: hexadecimal 8 character.toNat

/-- The text between quotes. -/
def quoted (text : String) : String :=
  let quote := quoteFor text.toList
  String.ofList (quote :: text.toList.flatMap (escaped quote) ++ [quote])

example : quoted "it's" = "\"it's\"" := by decide
example : quoted "'\"\\\n" = "'\\'\"\\\\\\n'" := by decide
example : quoted "\x1b\u2028" = "'\\x1b\\u2028'" := by decide +kernel

end Templating.Text
