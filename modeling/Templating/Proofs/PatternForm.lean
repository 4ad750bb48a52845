import Templating.Proofs.ExpressionForm
import Templating.Tree.Pattern

/-! # The form of patterns

How a pattern is written with a limited number of brackets open at once. Parentheses may stand
around any pattern, a comma behind the last item of a tuple or payload, the word `with` before a
payload, and a field that is bound under its own name may be written as that name. -/

namespace Templating

namespace Text

variable {α : Type} (spelled : α → (text rest : List Char) → Prop)

/-- Items each behind a comma. -/
def ListedTail : List α → (text rest : List Char) → Prop
  | [], text, rest => text = rest
  | head :: tail, text, rest =>
      ∃ comma start last, SymbolAt "," text comma ∧ Gap comma start ∧ spelled head start last ∧
        ListedTail tail last rest

/-- Items separated by commas. -/
def Listed : List α → (text rest : List Char) → Prop
  | [], text, rest => text = rest
  | head :: tail, text, rest =>
      ∃ start last, Gap text start ∧ spelled head start last ∧ ListedTail spelled tail last rest

end Text

namespace Pattern

open Text Templating.Expr

/-- The word that may stand before a payload, behind blanks at most. -/
def WithAt (text rest : List Char) : Prop :=
  text = rest ∨ ∃ start, Gap text start ∧ WordAt "with" start rest

section

variable (inner : Pattern → (text rest : List Char) → Prop)

/-- A field is written with its pattern behind a colon. A field that is bound under its own name
may be written as that name, and it has to be if the name is not a pattern by itself. -/
def FieldAt (field : Field) (text rest : List Char) : Prop :=
  (∃ offset, field.pattern = .name offset field.name) ∧ NameAt field.name text rest ∨
    ∃ named colon start, NameAt field.name text named ∧ SymbolAt ":" named colon ∧
      Gap colon start ∧ inner field.pattern start rest

/-- Items between brackets, the first of which has been read. -/
def PayloadAt {α : Type} (spelled : α → (text rest : List Char) → Prop) (close : String)
    (required : Bool) (items : List α) (text rest : List Char) : Prop :=
  ∃ last closing, Listed spelled items text last ∧
    TrailingComma required (!items.isEmpty) last closing ∧ SymbolAt close closing rest

theorem PayloadAt.of_gap {α : Type} {spelled : α → (text rest : List Char) → Prop}
    {close : String} {required : Bool} {items : List α} {text start rest : List Char}
    (gap : Gap text start) (payload : PayloadAt spelled close required items start rest) :
    PayloadAt spelled close required items text rest := by
  rcases payload with ⟨last, closing, listed, comma, symbol⟩
  cases items with
  | nil =>
      cases listed
      rcases comma with ⟨free, rfl⟩ | ⟨⟨⟩, _⟩
      exact ⟨text, text, rfl, .inl ⟨free, rfl⟩, gap.trans symbol⟩
  | cons item items =>
      rcases listed with ⟨start, middle, before, spelled, tail⟩
      exact ⟨last, closing, ⟨start, middle, gap.trans before, spelled, tail⟩, comma, symbol⟩

/-- A pattern without parentheses around it. -/
def BareAt : Pattern → (text rest : List Char) → Prop
  | literal _ kind value, text, rest => kind.Lexical value ∧ kind.LiteralAt value text rest
  | name _ value, text, rest =>
      (value ≠ "true" ∧ value ≠ "false" ∧ value.toList.any isUppercase = false) ∧
        NameAt value text rest
  | path _ segments, text, rest => IsReadable segments ∧ PathAt segments text rest
  | tuple _ [] items, text, rest =>
      ∃ opened, text = '(' :: opened ∧ PayloadAt inner ")" (items.length == 1) items opened rest
  | tuple _ segments items, text, rest =>
      IsReadable segments ∧ ∃ named payload opened, PathAt segments text named ∧ WithAt named payload ∧
        SymbolAt "(" payload opened ∧ PayloadAt inner ")" false items opened rest
  | record _ segments fields, text, rest =>
      IsReadable segments ∧ ∃ named payload opened, PathAt segments text named ∧ WithAt named payload ∧
        SymbolAt "\x7b" payload opened ∧ PayloadAt (FieldAt inner) "\x7d" false fields opened rest

/-- A pattern, perhaps in parentheses. -/
def SpelledOf (pattern : Pattern) (text rest : List Char) : Prop :=
  BareAt inner pattern text rest ∨
    ∃ opened start closing, text = '(' :: opened ∧ Gap opened start ∧
      inner pattern start closing ∧ SymbolAt ")" closing rest

end

/-- A pattern with at most so many brackets open at once. -/
def SpelledWithin : (brackets : Nat) → Pattern → (text rest : List Char) → Prop
  | 0, _, _, _ => False
  | brackets + 1, pattern, text, rest => SpelledOf (SpelledWithin brackets) pattern text rest

end Pattern

end Templating
