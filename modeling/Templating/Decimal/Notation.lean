import Templating.Decimal.Shortest

/-! # Writing numbers

A number is written with its shortest decimal. The point stands where it belongs if the
number is at least `10 ^ -4` and less than `10 ^ 16`; a whole number then ends in `.0`.
Other numbers have an exponent of at least two digits with its sign. -/

namespace Templating.Decimal

/-- The numeral of a decimal other than zero. -/
def numeral (decimal : Decimal) : String :=
  let digits := Nat.toDigits 10 decimal.digits
  let point := digits.length + decimal.exponent
  if -4 < point && point ≤ 0 then
    "0." ++ String.ofList (List.replicate (-point).toNat '0' ++ digits)
  else if 0 < point && point ≤ 16 then
    if 0 ≤ decimal.exponent then
      String.ofList (digits ++ List.replicate decimal.exponent.toNat '0') ++ ".0"
    else
      String.ofList (digits.take point.toNat) ++ "." ++ String.ofList (digits.drop point.toNat)
  else
    let fraction := digits.drop 1
    let exponent := point - 1
    let exponentDigits := Nat.toDigits 10 exponent.natAbs
    String.ofList (digits.take 1) ++
      (if fraction.isEmpty then "" else "." ++ String.ofList fraction) ++
      (if exponent < 0 then "e-" else "e+") ++
      (if exponentDigits.length < 2 then "0" else "") ++ String.ofList exponentDigits

/-- The numeral of a binary number of 64 bits. -/
def numeralOfBits (bits : Nat) : String :=
  let negative := bits / signUnit % 2 == 1
  let magnitude := bits % signUnit
  let infinity := 0x7FF * exponentUnit
  let written :=
    if magnitude == 0 then "0.0"
    else if magnitude == infinity then "inf"
    else if infinity < magnitude then "nan"
    else numeral (shortest (.ofBits magnitude))
  if negative && magnitude ≤ infinity then "-" ++ written else written

/-- The numeral of a floating-point number. -/
def numeralOf (number : Float) : String :=
  numeralOfBits number.toBits.toNat

end Templating.Decimal
