import Templating.Proofs.Gap
import Templating.Text.Uppercase
import Templating.Tree.Expr

/-! # Spellings of lexemes

How a lexeme is written, said of the text from one place on and of the text that is left
behind the lexeme. A lexeme ends where it cannot go on, so what is left has a say in it. -/

namespace Templating

namespace Text

/-- A symbol is not empty and does not begin with a blank. -/
def isSymbol (symbol : String) : Bool :=
  match symbol.toList with
  | [] => false
  | first :: _ => !isSpace first

/-- The symbol stands behind blanks at most. -/
def SymbolAt (symbol : String) (text rest : List Char) : Prop :=
  Gap text (symbol.toList ++ rest)

def WordAt (word : String) (text rest : List Char) : Prop :=
  text = word.toList ++ rest ∧ EndsName rest

def isName : List Char → Bool
  | [] => false
  | first :: others => startsName first && others.all continuesName

def NameAt (name : String) (text rest : List Char) : Prop :=
  isName name.toList = true ∧ WordAt name text rest

def isDigits (text : List Char) : Bool :=
  !text.isEmpty && text.all isDigit

/-- Digits, and perhaps a point and further digits. -/
def IsNumber (text : List Char) : Prop :=
  isDigits text = true ∨
    ∃ whole fraction, isDigits whole = true ∧ isDigits fraction = true ∧
      text = whole ++ '.' :: fraction

def EndsDigits (text : List Char) : Prop :=
  ∀ first ∈ text.head?, isDigit first = false

/-- The number does not go on with the rest, neither with a digit nor with a fraction. -/
def EndsNumber (number rest : List Char) : Prop :=
  EndsDigits rest ∧
    (isDigits number = true → ∀ after, rest = '.' :: after → EndsDigits after)

/-- What may stand between two quotes: no quote and no backslash by itself. -/
def isBody (quote : Char) : List Char → Bool
  | [] => true
  | '\\' :: _ :: rest => isBody quote rest
  | first :: rest => first != quote && first != '\\' && isBody quote rest

/-! ## Qualified names -/

/-- The first segment of a qualified name is empty at the root. Otherwise there are several
names, or one with a capital letter. -/
def IsQualified : List String → Prop
  | [] => False
  | first :: others =>
      (first = "" ∧ others ≠ [] ∨
        isName first.toList = true ∧
          (others ≠ [] ∨ first.toList.any isUppercase = true)) ∧
      ∀ name ∈ others, isName name.toList = true

/-- A qualified name that is not taken for a literal at its beginning. -/
def IsReadable (segments : List String) : Prop :=
  IsQualified segments ∧ ∀ first ∈ segments.head?, first ≠ "true" ∧ first ≠ "false"

/-- Each of the names stands behind a separator. -/
def NamesAt : List String → (text rest : List Char) → Prop
  | [], text, rest => text = rest
  | name :: names, text, rest =>
      ∃ separated start middle, SymbolAt "::" text separated ∧ Gap separated start ∧
        NameAt name start middle ∧ NamesAt names middle rest

def PathAt : List String → (text rest : List Char) → Prop
  | [], _, _ => False
  | first :: others, text, rest =>
      Solid text ∧ ∃ middle, WordAt first text middle ∧ NamesAt others middle rest

variable {text rest rest' : List Char}

theorem solid_symbol {symbol : String} (isSymbol : isSymbol symbol = true) (rest : List Char) :
    Solid (symbol.toList ++ rest) := by
  unfold Text.isSymbol at isSymbol
  split at isSymbol
  case h_1 => cases isSymbol
  case h_2 first others shape =>
      rw [shape]
      simpa using isSymbol

theorem startsName_of_isName {name : List Char} (isName : isName name = true) :
    ∃ first others, name = first :: others ∧ startsName first = true ∧
      others.all continuesName = true := by
  cases name with
  | nil => cases isName
  | cons first others =>
      rw [Text.isName, Bool.and_eq_true] at isName
      exact ⟨first, others, rfl, isName.1, isName.2⟩

theorem continuesName_of_isName {name : List Char} (isName : isName name = true) :
    name.all continuesName = true := by
  rcases startsName_of_isName isName with ⟨first, others, rfl, starts, continues⟩
  simp [continuesName_of_startsName starts, continues]

theorem NameAt.head? {name : String} (spelled : NameAt name text rest) :
    ∃ first, text.head? = some first ∧ startsName first = true := by
  rcases spelled with ⟨isName, rfl, _⟩
  rcases startsName_of_isName isName with ⟨first, others, shape, starts, _⟩
  exact ⟨first, by simp [shape], starts⟩

theorem NameAt.solid {name : String} (spelled : NameAt name text rest) : Solid text := by
  rcases spelled.head? with ⟨first, shape, starts⟩
  apply Solid.of_endsName_not
  rw [shape]
  rintro _ ⟨⟩
  exact continuesName_of_startsName starts

theorem WordAt.takeWhile_eq {word : String} (continues : word.toList.all continuesName = true)
    (spelled : WordAt word text rest) : text.takeWhile continuesName = word.toList := by
  rcases spelled with ⟨rfl, ends⟩
  rw [List.takeWhile_append_of_pos (List.all_eq_true.mp continues)]
  cases rest with
  | nil => simp
  | cons first rest => simp [endsName_cons.mp ends]

/-- Two words that stand at the same place are the same word. -/
theorem WordAt.unique {first second : String}
    (continues : first.toList.all continuesName = true)
    (continues' : second.toList.all continuesName = true)
    (spelled : WordAt first text rest) (spelled' : WordAt second text rest') :
    first = second ∧ rest = rest' := by
  have same : first.toList = second.toList :=
    (spelled.takeWhile_eq continues).symm.trans (spelled'.takeWhile_eq continues')
  have whole := spelled.1.symm.trans spelled'.1
  rw [same] at whole
  exact ⟨String.toList_injective same, List.append_cancel_left whole⟩

theorem WordAt.not_wordAt {first second : String}
    (continues : first.toList.all continuesName = true)
    (continues' : second.toList.all continuesName = true) (apart : first ≠ second)
    (spelled : WordAt first text rest) (rest' : List Char) : ¬ WordAt second text rest' :=
  fun spelled' => apart (WordAt.unique continues continues' spelled spelled').1

end Text

namespace LiteralKind

open Text

/-- The texts that literals of the kind have. -/
def Lexical : LiteralKind → String → Prop
  | boolean, text => text = "true" ∨ text = "false"
  | number, text => IsNumber text.toList
  | string, text => isBody '"' text.toList = true
  | character, text => isBody '\'' text.toList = true

/-- How the literal is written. -/
def written : LiteralKind → String → List Char
  | boolean, text | number, text => text.toList
  | string, text => '"' :: (text.toList ++ ['"'])
  | character, text => '\'' :: (text.toList ++ ['\''])

/-- The literal does not go on with the rest. -/
def Ends : LiteralKind → String → List Char → Prop
  | boolean, _, rest => EndsName rest
  | number, text, rest => EndsNumber text.toList rest
  | string, _, _ | character, _, _ => True

def LiteralAt (kind : LiteralKind) (literal : String) (text rest : List Char) : Prop :=
  text = kind.written literal ++ rest ∧ kind.Ends literal rest

end LiteralKind

end Templating
