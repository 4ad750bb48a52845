import Templating.Grammar.Basic
import Templating.Text.Uppercase
import Templating.Tree.Trim

/-! # Lexemes

The smallest parts of a tag: names, words, numbers, quoted texts, qualified names and trim
markers. A lexeme stands exactly at the cursor; a token may have blanks on both sides, which
are read with it. -/

namespace Templating.Grammar

/-- Matches unless the next character would go on with a name. -/
def endOfWord : Grammar Unit :=
  ahead fun rest =>
    match rest with
    | first :: _ => !Text.continuesName first
    | [] => true

/-- A name: as many name characters as there are, the first of which is not a digit. -/
def name : Grammar String := do
  let first ← character Text.startsName
  let others ← characters Text.continuesName
  return String.ofList (first :: others)

/-- A word that is not the beginning of a longer name. -/
def word (text : String) : Grammar String := do
  exact text.toList
  endOfWord
  return text

/-- The first of several words that stands at the cursor. -/
def wordOf : List String → Grammar String
  | [] => noMatch
  | text :: others => word text <|> wordOf others

/-- Digits, and perhaps a point and further digits. -/
def number : Grammar String := do
  let first ← character Text.isDigit
  let whole ← characters Text.isDigit
  let fraction ← optional do
    exact ['.']
    let first ← character Text.isDigit
    let others ← characters Text.isDigit
    return first :: others
  match fraction with
  | none => return String.ofList (first :: whole)
  | some digits => return String.ofList (first :: whole ++ '.' :: digits)

def boolean : Grammar String :=
  word "true" <|> word "false"

/-- What stands before the first quote, if there is one. A backslash takes the character
behind it along, whichever it is. -/
def quotedBody? (quote : Char) : List Char → Option (List Char)
  | [] => none
  | '\\' :: escaped :: rest => (quotedBody? quote rest).map ('\\' :: escaped :: ·)
  | first :: rest =>
      if first == quote then some []
      else if first == '\\' then none
      else (quotedBody? quote rest).map (first :: ·)

/-- A text between two quotes, which is kept as it is written. -/
def between (quote : Char) : Grammar String := do
  exact [quote]
  let body ← fun cursor =>
    match quotedBody? quote cursor.rest with
    | some body => .matched body (cursor.advance body.length)
    | none => .noMatch
  exact [quote]
  return String.ofList body

def string : Grammar String := between '"'

def characterText : Grammar String := between '\''

/-- What separates the parts of a qualified name. -/
def separator : Grammar Unit := spaced (exact [':', ':'])

/-- A qualified name: two names or more, or one with a capital letter, or any number below
the root, which is recorded as an empty first segment. -/
def path : Grammar (List String) := do
  let root ← optional separator
  let first ← name
  let others ← many do
    separator
    name
  if root.isSome then
    return "" :: first :: others
  else if !others.isEmpty || first.toList.any Text.isUppercase then
    return first :: others
  else
    noMatch

/-- A trim marker. -/
def marker : Grammar Trim := fun cursor =>
  match cursor.rest with
  | first :: _ =>
      match Trim.ofMark? first with
      | some trim => .matched trim (cursor.advance 1)
      | none => .noMatch
  | [] => .noMatch

/-- The trim marker at the cursor, if there is one. -/
def edge : Grammar (Option Trim) :=
  optional marker

/-! ## Tokens -/

/-- A text with blanks around it. -/
def token (text : String) : Grammar Unit :=
  spaced (exact text.toList)

/-- A word with blanks around it. -/
def keyword (text : String) : Grammar String :=
  spaced (word text)

def nameToken : Grammar String :=
  spaced name

def stringToken : Grammar String :=
  spaced string

end Templating.Grammar
