import Templating.Report.Code
import Templating.Terminal.Colour
import Templating.Text.Position

/-! # Error reports

What a caller is told about a failure. A report on a source names the place and shows the
line with a caret under the offending column. It is written in two forms: the message
proper, and a compact form for terminals that leads with the error code and may be
coloured. -/

namespace Templating

/-- A message about a place in a source, as far as the place is known. Lines count from one
and columns from zero. -/
structure SourceNote where
  message : String
  line : Option Int := none
  column : Option Int := none
  source : Option String := none
  name : Option String := none
  filename : Option String := none
  deriving Repr, DecidableEq

namespace SourceNote

/-- The template by its file, else by its name, with the line and column that are known. -/
def location (note : SourceNote) : String :=
  let template :=
    if note.filename.getD "" != "" then note.filename.getD ""
    else if note.name.getD "" != "" then note.name.getD ""
    else "<template>"
  match note.line with
  | none | some 0 => template
  | some line =>
      match note.column with
      | none => template ++ ":" ++ toString line
      | some column => template ++ ":" ++ toString line ++ ":" ++ toString column

/-- The line of the source that the note is about, if the source has that line. An empty
source has none. -/
def sourceLine? (note : SourceNote) : Option (Int × String) :=
  match note.source, note.line with
  | some source, some line =>
      if source != "" && 0 < line then
        ((Text.lines source.toList)[line.toNat - 1]?).map fun characters =>
          (line, String.ofList characters)
      else none
  | _, _ => none

/-- A line number in a margin of three columns. -/
def margin (line : Int) : String :=
  let digits := toString line
  String.ofList (List.replicate (3 - digits.length) ' ') ++ digits

/-- A caret under a column; before the first column it stands under the first. -/
def caret (column : Int) : String :=
  String.ofList (List.replicate column.toNat ' ') ++ "^"

def rendered (note : SourceNote) : String :=
  let header := "Syntax Error: " ++ note.message ++ "\n  --> " ++ note.location
  match note.sourceLine? with
  | none => header
  | some (line, text) =>
      header ++ "\n   |\n" ++ margin line ++ " | " ++ text ++
        match note.column with
        | none => ""
        | some column => "\n   | " ++ caret column

/-- The lines of the compact form. -/
def compactLines (note : SourceNote) (code : ErrorCode) (coloured : Bool) : List String :=
  let paint (role : Terminal.Role) := role.paint coloured
  let bar := paint .decoration "   |"
  let snippet :=
    match note.sourceLine? with
    | none => []
    | some (line, text) =>
        [bar, paint .lineNumber (margin line) ++ " | " ++ text] ++
          (match note.column with
            | none => []
            | some column => [bar ++ " " ++ paint .caret (caret column)]) ++
          [bar]
  [paint .code (code.text ++ ":") ++ " " ++ note.message,
    "  --> " ++ paint .location note.location] ++ snippet

def compact (note : SourceNote) (code : ErrorCode) (coloured : Bool) : String :=
  "\n".intercalate (note.compactLines code coloured)

end SourceNote

/-- Everything that can be reported. -/
inductive Report where
  | general (message : String)
  /-- A template that could not be found. -/
  | missingTemplate (message : String)
  | configuration (code : ErrorCode) (message : String)
  /-- A fault in a source at a place that may be known in part. -/
  | source (note : SourceNote)
  /-- A fault that stopped the parser at an offset. -/
  | parse (code : ErrorCode) (offset : Int) (note : SourceNote) (suggestion : Option String)
  deriving Repr, DecidableEq

namespace Report

def code : Report → Option ErrorCode
  | general _ => none
  | missingTemplate _ => some .templateNotFound
  | configuration code _ => some code
  | source _ => some .syntaxError
  | parse code .. => some code

/-- The message that a caller reads. -/
def text : Report → String
  | general message | missingTemplate message | configuration _ message => message
  | source note => note.rendered
  | parse _ _ note suggestion =>
      note.rendered ++
        if suggestion.getD "" == "" then "" else "\n\nSuggestion: " ++ suggestion.getD ""

/-- The text stands somewhere in another one. -/
def occursIn (text : List Char) : List Char → Bool
  | [] => text.isEmpty
  | character :: rest => text.isPrefixOf (character :: rest) || occursIn text rest

/-- A message with its code in front, unless it names the code already. -/
def headed (code : ErrorCode) (message : String) : String :=
  if occursIn code.text.toList message.toList then message else code.text ++ ": " ++ message

/-- The form for terminals. -/
def compact (coloured : Bool) : Report → String
  | general message => message
  | missingTemplate message => headed .templateNotFound message
  | configuration code message => headed code message
  | source note => note.compact .syntaxError coloured
  | parse code _ note suggestion =>
      note.compact code coloured ++
        if suggestion.getD "" == "" then ""
        else "\n" ++ Terminal.Role.hint.paint coloured "Suggestion:" ++ " " ++ suggestion.getD ""

end Report

end Templating
