/-! # Character classes of the template language

The blank characters, name characters and digits that the grammar of tags is written in. All
of them are decided by the character alone. -/

namespace Templating.Text

/-- A blank of the template language: space, tab, carriage return or line feed, and nothing
else. -/
def isSpace (character : Char) : Bool :=
  character == ' ' || character == '\t' || character == '\r' || character == '\n'

/-- The character lies between two others, both included, in code point order. -/
def isBetween (first last character : Char) : Bool :=
  first.toNat ≤ character.toNat && character.toNat ≤ last.toNat

/-- An ASCII digit, the only kind of digit that a number has. -/
def isDigit (character : Char) : Bool :=
  isBetween '0' '9' character

/-- A name begins with an ASCII letter, an underscore or anything outside ASCII. -/
def startsName (character : Char) : Bool :=
  isBetween 'a' 'z' character || isBetween 'A' 'Z' character || character == '_' ||
    0x80 ≤ character.toNat

/-- A name goes on with what may begin one and with digits. -/
def continuesName (character : Char) : Bool :=
  startsName character || isDigit character

theorem continuesName_of_startsName {character : Char} (starts : startsName character = true) :
    continuesName character = true := by
  simp [continuesName, starts]

theorem isDigit_iff {character : Char} :
    isDigit character = true ↔ 48 ≤ character.toNat ∧ character.toNat ≤ 57 := by
  simp [isDigit, isBetween]

/-- A digit may stand inside a name and never begins one. -/
theorem startsName_eq_false_of_isDigit {character : Char} (digit : isDigit character = true) :
    startsName character = false := by
  rw [isDigit_iff] at digit
  have notUnderscore : character ≠ '_' := by
    rintro rfl
    simp at digit
  simp [startsName, isBetween, notUnderscore]
  omega

/-- No blank stands in a name. -/
theorem continuesName_eq_false_of_isSpace {character : Char} (space : isSpace character = true) :
    continuesName character = false := by
  simp only [isSpace, Bool.or_eq_true, beq_iff_eq] at space
  rcases space with ((rfl | rfl) | rfl) | rfl <;> decide

end Templating.Text
