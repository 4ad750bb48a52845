import Templating.Decimal.Notation
import Templating.Text.Quoted

/-! # Setting values

A configuration document gives its settings as plain values. Messages show a value in the
form in which it can be told apart from every other: texts quoted, numbers with a point or
an exponent if they are not whole. -/

namespace Templating

mutual

inductive Value where
  | null
  | boolean (value : Bool)
  | integer (value : Int)
  | number (value : Float)
  | text (value : String)
  | list (items : List Value)
  | table (entries : List Setting)

/-- A value under its name. -/
structure Setting where
  name : String
  value : Value

end

instance : Inhabited Value := ⟨.null⟩

/-! What a message shows of a value. -/

mutual

def Value.shown : Value → String
  | .null => "None"
  | .boolean true => "True"
  | .boolean false => "False"
  | .integer value => toString value
  | .number value => Decimal.numeralOf value
  | .text value => Text.quoted value
  | .list items => "[" ++ ", ".intercalate (Value.shownAll items) ++ "]"
  | .table entries => "\x7b" ++ ", ".intercalate (Setting.shownAll entries) ++ "\x7d"
termination_by structural value => value

def Value.shownAll : List Value → List String
  | [] => []
  | head :: tail => head.shown :: Value.shownAll tail
termination_by structural values => values

def Setting.shown : Setting → String
  | ⟨name, value⟩ => Text.quoted name ++ ": " ++ value.shown
termination_by structural setting => setting

def Setting.shownAll : List Setting → List String
  | [] => []
  | head :: tail => head.shown :: Setting.shownAll tail
termination_by structural settings => settings

end

namespace Value

/-- A text by itself and any other value as messages show it. -/
def plain : Value → String
  | text value => value
  | value => value.shown

/-- The value counts as given: it is neither null nor false, nor zero, nor empty. -/
def isGiven : Value → Bool
  | null => false
  | boolean value => value
  | integer value => value != 0
  | number value => value != 0
  | text value => value != ""
  | list items => !items.isEmpty
  | table entries => !entries.isEmpty

end Value

/-! Settings are looked up by name. A document has every name once. -/

namespace Setting

def find? (settings : List Setting) (name : String) : Option Value :=
  (settings.find? fun setting => setting.name == name).map Setting.value

def names (settings : List Setting) : List String :=
  settings.map Setting.name

/-- Names in the order of their code points, which is how messages list them. -/
def sortNames (names : List String) : List String :=
  names.mergeSort fun left right => left ≤ right

/-- The names of the settings that are not among those known, sorted. -/
def unknownNames (known : List String) (settings : List Setting) : List String :=
  sortNames ((names settings).filter fun name => !known.contains name)

end Setting

example : (Value.list [.integer 1, .text "a", .null]).shown = "[1, 'a', None]" := by decide +kernel

end Templating
