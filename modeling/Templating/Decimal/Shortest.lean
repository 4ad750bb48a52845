/-! # Shortest decimals

A binary number of 64 bits stands for an interval of reals: those nearer to it than to
either of its neighbours, and the ends of the interval too if its significand is even. Its
shortest decimal is the one of fewest digits in that interval, and of those the nearest to
the number. -/

namespace Templating

/-- The decimal `digits * 10 ^ exponent`. -/
structure Decimal where
  digits : Nat
  exponent : Int
  deriving Repr, DecidableEq

namespace Decimal

/-- The number `significand * 2 ^ exponent`, where `narrowBelow` says that the neighbour
below lies half as far away as the one above. -/
structure Binary where
  significand : Nat
  exponent : Int
  narrowBelow : Bool
  deriving Repr, DecidableEq

/-- One in the exponent field of a number's representation, above the 52 bits of its
fraction. -/
def exponentUnit : Nat := 0x10000000000000

/-- One in the sign field of a number's representation, above the 11 bits of its
exponent. -/
def signUnit : Nat := 0x8000000000000000

/-- The magnitude below the sign field of a number's representation, for exponents below the
one that is reserved for infinity. -/
def Binary.ofBits (bits : Nat) : Binary :=
  let fraction := bits % exponentUnit
  let biased := bits / exponentUnit % 0x800
  if biased == 0 then ⟨fraction, -1074, false⟩
  else ⟨fraction + exponentUnit, (biased : Int) - 1075, fraction == 0 && biased != 1⟩

/-- The decimal on the grid of multiples of `10 ^ exponent` that reads back as the number,
if there is one. Of two it is the nearer, and of two equally near ones that with an even
digit. -/
def onGrid? (number : Binary) (exponent : Int) : Option Decimal :=
  let scale := Nat.pow 2 (number.exponent - 2).toNat * Nat.pow 10 (-exponent).toNat
  let step := Nat.pow 2 (2 - number.exponent).toNat * Nat.pow 10 exponent.toNat
  let value := 4 * number.significand * scale
  let low := (4 * number.significand - if number.narrowBelow then 1 else 2) * scale
  let high := (4 * number.significand + 2) * scale
  let endsIncluded := number.significand % 2 == 0
  let readsBack (digits : Nat) : Bool :=
    if endsIncluded then low ≤ digits * step && digits * step ≤ high
    else low < digits * step && digits * step < high
  let below := value / step
  let distanceBelow := value - below * step
  let distanceAbove := (below + 1) * step - value
  let belowIsNearer :=
    distanceBelow < distanceAbove || (distanceBelow == distanceAbove && below % 2 == 0)
  match readsBack below, readsBack (below + 1) with
  | true, false => some ⟨below, exponent⟩
  | false, true => some ⟨below + 1, exponent⟩
  | true, true => some ⟨if belowIsNearer then below else below + 1, exponent⟩
  | false, false => none

/-- The first decimal that reads back on ever finer grids, at most `count` of them. -/
def onFinerGrid? (number : Binary) (exponent : Int) : (count : Nat) → Option Decimal
  | 0 => none
  | count + 1 =>
      match onGrid? number exponent with
      | some decimal => some decimal
      | none => onFinerGrid? number (exponent - 1) count

/-- The shortest decimal of a number other than zero. The first grid is coarser than the
number, since `30103 / 100000` is just above the logarithm of two, and seventeen digits are
always enough. -/
def shortest (number : Binary) : Decimal :=
  let magnitude := Nat.log2 number.significand + number.exponent
  let coarsest := Int.fdiv (magnitude * 30103) 100000 + 2
  (onFinerGrid? number coarsest 21).getD ⟨0, 0⟩

example : shortest (.ofBits 0x3FB999999999999A) = ⟨1, -1⟩ := by decide +kernel
example : shortest (.ofBits 1) = ⟨5, -324⟩ := by decide +kernel

end Decimal

end Templating
