/-! # Tables of code points

A property of characters that a standard gives by enumeration is kept as a list of ranges,
each with a stride, because scripts with paired letter cases alternate between the two. -/

namespace Templating.Text

/-- The code points `first`, `first + stride`, `first + 2 * stride`, … up to `last`. -/
structure CodeRange where
  first : Nat
  last : Nat
  stride : Nat := 1
  deriving Repr, DecidableEq

namespace CodeRange

def contains (range : CodeRange) (code : Nat) : Bool :=
  range.first ≤ code && code ≤ range.last && (code - range.first) % range.stride == 0

end CodeRange

/-- The character's code point lies in one of the ranges. -/
def inRanges (ranges : List CodeRange) (character : Char) : Bool :=
  ranges.any fun range => range.contains character.toNat

end Templating.Text
