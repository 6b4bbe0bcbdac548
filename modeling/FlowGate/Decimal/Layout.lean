/-
This file writes a decimal as text. A layout says which exponents are written positionally and how
an exponent is marked; a positional decimal always has a digit on both sides of its point.
-/

import FlowGate.Decimal.Shortest

namespace FlowGate.Decimal

/-- How decimals are written: positionally when the power of ten of the leading digit lies between
`first` and `last`, otherwise with an exponent behind `negativeMark` or `positiveMark`. -/
structure Layout where
  first : Int
  last : Int
  negativeMark : String
  positiveMark : String

/-- A text of `count` zeros. -/
def zeros (count : Nat) : String :=
  String.ofList (List.replicate count '0')

/-- The text of a decimal without zeros at its end. -/
def Layout.write (layout : Layout) (digits : Digits) : String :=
  let figures := Nat.toDigits 10 digits.coefficient
  let leading : Int := digits.exponent + figures.length - 1
  if layout.first ≤ leading ∧ leading ≤ layout.last then
    if 0 ≤ digits.exponent then
      String.ofList figures ++ zeros digits.exponent.toNat ++ ".0"
    else if 0 ≤ leading then
      String.ofList (figures.take (leading.toNat + 1)) ++ "." ++
        String.ofList (figures.drop (leading.toNat + 1))
    else
      "0." ++ zeros (-leading - 1).toNat ++ String.ofList figures
  else
    let fraction := figures.drop 1
    let significand :=
      String.ofList (figures.take 1) ++
        (if fraction.isEmpty then "" else "." ++ String.ofList fraction)
    let mark := if leading < 0 then layout.negativeMark else layout.positiveMark
    significand ++ mark ++ toString leading.natAbs

end FlowGate.Decimal
