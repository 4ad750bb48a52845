/-! # Lines and columns

Offsets count characters from the start of a text. A line ends at a line feed and at nothing
else; lines are numbered from one and columns from zero. -/

namespace Templating.Text

/-- A place in a text as a reader counts it. -/
structure Position where
  line : Nat
  column : Nat
  deriving Repr, DecidableEq

/-- The offsets just after each line feed, where `offset` is that of the first character. -/
def breaksFrom (offset : Nat) : List Char → List Nat
  | [] => []
  | character :: rest =>
      if character == '\n' then (offset + 1) :: breaksFrom (offset + 1) rest
      else breaksFrom (offset + 1) rest

/-- The offsets at which the lines of a text begin, in increasing order. -/
def lineStarts (text : List Char) : List Nat :=
  0 :: breaksFrom 0 text

/-- The place of an offset among lines that begin at `starts`: its line is the last that
begins at or before it. An offset past the end of the text lies on the last line. -/
def positionAmong (starts : List Nat) (offset : Nat) : Position :=
  let begun := starts.takeWhile (· ≤ offset)
  ⟨begun.length, offset - begun.getLastD 0⟩

/-- The place of an offset in a text. -/
def position (text : List Char) (offset : Nat) : Position :=
  positionAmong (lineStarts text) offset

/-- The lines of a text without their line feeds. There is always at least one. -/
def lines : List Char → List (List Char)
  | [] => [[]]
  | character :: rest =>
      if character == '\n' then [] :: lines rest
      else match lines rest with
        | [] => [[character]]
        | line :: later => (character :: line) :: later

theorem lines_ne_nil (text : List Char) : lines text ≠ [] := by
  cases text with
  | nil => simp [lines]
  | cons character rest =>
      rw [lines]
      split
      · simp
      · split <;> simp

example : position "ab\nc".toList 3 = ⟨2, 0⟩ := by decide
example : position "ab\nc".toList 9 = ⟨2, 6⟩ := by decide

end Templating.Text
