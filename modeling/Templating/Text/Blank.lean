import Templating.Text.Space
import Templating.Text.CodeRange

/-! # Blank characters of Unicode

What a delimiter may not hold. This class is wider than the blanks of the template language:
it has the line and paragraph separators and the information separators of ASCII as well. -/

namespace Templating.Text

/-- The code points of blank characters, in increasing order. -/
def blankRanges : List CodeRange := [
  ⟨0x9, 0xD, 1⟩, ⟨0x1C, 0x20, 1⟩, ⟨0x85, 0x85, 1⟩, ⟨0xA0, 0xA0, 1⟩, ⟨0x1680, 0x1680, 1⟩,
  ⟨0x2000, 0x200A, 1⟩, ⟨0x2028, 0x2029, 1⟩, ⟨0x202F, 0x202F, 1⟩, ⟨0x205F, 0x205F, 1⟩,
  ⟨0x3000, 0x3000, 1⟩]

/-- The character is blank in the sense of Unicode. -/
def isBlank (character : Char) : Bool :=
  inRanges blankRanges character

/-- Every blank of the template language is blank. -/
theorem isBlank_of_isSpace {character : Char} (space : isSpace character = true) :
    isBlank character = true := by
  simp only [isSpace, Bool.or_eq_true, beq_iff_eq] at space
  rcases space with ((rfl | rfl) | rfl) | rfl <;> decide

end Templating.Text
