/-! # Colours of a terminal

A coloured text is written between control sequences, each of which begins with the escape
character. Colours are off or on for a whole report, so that a caller decides once. -/

namespace Templating.Terminal

/-- The display attributes that a report may ask for. -/
inductive Colour where
  | reset
  | bold
  | dim
  | red
  | green
  | yellow
  | cyan
  | brightRed
  deriving Repr, DecidableEq

namespace Colour

/-- The control sequence that switches the attribute on. -/
def sequence : Colour → String
  | reset => "\x1b[0m"
  | bold => "\x1b[1m"
  | dim => "\x1b[2m"
  | red => "\x1b[31m"
  | green => "\x1b[32m"
  | yellow => "\x1b[33m"
  | cyan => "\x1b[36m"
  | brightRed => "\x1b[91m"

def name : Colour → String
  | reset => "reset"
  | bold => "bold"
  | dim => "dim"
  | red => "red"
  | green => "green"
  | yellow => "yellow"
  | cyan => "cyan"
  | brightRed => "bright_red"

def all : List Colour :=
  [reset, bold, dim, red, green, yellow, cyan, brightRed]

def ofName? (name : String) : Option Colour :=
  all.find? fun colour => colour.name == name

theorem ofName?_name (colour : Colour) : ofName? colour.name = some colour := by
  cases colour <;> decide

end Colour

/-- Colours are wanted if a variable forces them; else unless a variable forbids them; else
if the output is a terminal. A variable that is empty counts as absent. -/
def wantsColour (force forbid : Option String) (isTerminal : Bool) : Bool :=
  if force.getD "" != "" then true
  else if forbid.getD "" != "" then false
  else isTerminal

/-- The text in the given attributes, which end with it. Without any, or with colours off,
it stays as it is. -/
def paint (coloured : Bool) (colours : List Colour) (text : String) : String :=
  if !coloured || colours.isEmpty then text
  else String.join (colours.map Colour.sequence) ++ text ++ Colour.reset.sequence

/-! A report marks its parts by their role. -/

inductive Role where
  | code
  | location
  | lineNumber
  | caret
  | hint
  | decoration
  deriving Repr, DecidableEq

namespace Role

def colours : Role → List Colour
  | code => [.brightRed, .bold]
  | location => [.cyan]
  | lineNumber => [.yellow]
  | caret => [.brightRed]
  | hint => [.green]
  | decoration => [.dim]

def paint (role : Role) (coloured : Bool) (text : String) : String :=
  Terminal.paint coloured role.colours text

end Role

/-! ## Removing control sequences -/

/-- The number of characters of the control sequence at the head of a text, zero if none
stands there. After the escape character comes either one character from `@` to `_` other
than the bracket, or a bracket, parameters from `0` to `?`, intermediates from the space to
`/`, and one final character from `@` to `~`. -/
def sequenceLength : List Char → Nat
  | '\x1b' :: '[' :: rest =>
      let parameters := rest.takeWhile fun c => 0x30 ≤ c.toNat && c.toNat ≤ 0x3F
      let afterParameters := rest.drop parameters.length
      let intermediates := afterParameters.takeWhile fun c => 0x20 ≤ c.toNat && c.toNat ≤ 0x2F
      match afterParameters.drop intermediates.length with
      | final :: _ =>
          if 0x40 ≤ final.toNat && final.toNat ≤ 0x7E then
            2 + parameters.length + intermediates.length + 1
          else 0
      | [] => 0
  | '\x1b' :: final :: _ =>
      if 0x40 ≤ final.toNat && final.toNat ≤ 0x5F then 2 else 0
  | _ => 0

/-- Drops `skipped` characters and then every control sequence. -/
def stripFrom : (skipped : Nat) → List Char → List Char
  | _, [] => []
  | skipped + 1, _ :: rest => stripFrom skipped rest
  | 0, character :: rest =>
      match sequenceLength (character :: rest) with
      | 0 => character :: stripFrom 0 rest
      | length + 1 => stripFrom length rest

/-- The text without its control sequences. -/
def strip (text : String) : String :=
  String.ofList (stripFrom 0 text.toList)

example : strip (paint true [.red, .bold] "a") = "a" := by decide
example : strip "a\x1b[1;3" = "a\x1b[1;3" := by decide

end Templating.Terminal
