import Templating.Text.Quoted
import Templating.Text.Space

/-! # Trim markers

A marker just inside a delimiter says what becomes of the blanks on that side of the tag. -/

namespace Templating

/-- What a trim marker asks for. -/
inductive Trim where
  | preserve
  | suppress
  | minimize
  deriving Repr, DecidableEq

namespace Trim

/-- The character that is written for the marker. -/
def mark : Trim → Char
  | preserve => '+'
  | suppress => '-'
  | minimize => '~'

def ofMark? : Char → Option Trim
  | '+' => some preserve
  | '-' => some suppress
  | '~' => some minimize
  | _ => none

theorem ofMark?_mark (trim : Trim) : ofMark? trim.mark = some trim := by
  cases trim <;> rfl

theorem ofMark?_eq_some_iff {character : Char} {trim : Trim} :
    ofMark? character = some trim ↔ character = trim.mark := by
  constructor
  · intro found
    unfold ofMark? at found
    split at found <;> cases found <;> rfl
  · rintro rfl
    exact ofMark?_mark trim

/-- The marker that is written as this text, or what to say if there is none. -/
def ofText (text : String) : Except String Trim :=
  match text.toList with
  | [character] =>
      match ofMark? character with
      | some trim => .ok trim
      | none => .error s!"unsupported whitespace marker {Text.quoted text}"
  | _ => .error s!"unsupported whitespace marker {Text.quoted text}"

end Trim

/-- The markers of one tag: `left` stands behind its opening delimiter and concerns the text
before the tag, `right` stands before its closing delimiter and concerns the text behind it.
Without a marker the surroundings decide. -/
structure Edges where
  left : Option Trim := none
  right : Option Trim := none
  deriving Repr, DecidableEq

/-- A run of text cut at its outer blanks, so that markers beside it can be applied to them.
A text of blanks only is all `lead`. -/
structure Passage where
  lead : String
  core : String
  trail : String
  deriving Repr, DecidableEq

namespace Passage

def ofChars (characters : List Char) : Passage :=
  let inner := characters.dropWhile Text.isSpace
  let core := inner.reverse.dropWhile Text.isSpace |>.reverse
  { lead := String.ofList (characters.takeWhile Text.isSpace)
    core := String.ofList core
    trail := String.ofList (inner.drop core.length) }

/-- The text that was cut. -/
def text (passage : Passage) : String :=
  passage.lead ++ passage.core ++ passage.trail

/-- Cutting loses nothing. -/
theorem text_ofChars (characters : List Char) :
    (ofChars characters).text = String.ofList characters := by
  let inner := characters.dropWhile Text.isSpace
  let core := (inner.reverse.dropWhile Text.isSpace).reverse
  have inner_eq : core ++ (inner.reverse.takeWhile Text.isSpace).reverse = inner := by
    rw [← List.reverse_append, List.takeWhile_append_dropWhile, List.reverse_reverse]
  have core_append_drop : core ++ inner.drop core.length = inner := by
    have dropped : inner.drop core.length = (inner.reverse.takeWhile Text.isSpace).reverse := by
      conv => lhs; rw [← inner_eq]
      exact List.drop_left
    rw [dropped, inner_eq]
  show String.ofList (characters.takeWhile Text.isSpace) ++ String.ofList core ++
    String.ofList (inner.drop core.length) = String.ofList characters
  rw [← String.ofList_append, ← String.ofList_append, List.append_assoc, core_append_drop,
    List.takeWhile_append_dropWhile]

end Passage

end Templating
