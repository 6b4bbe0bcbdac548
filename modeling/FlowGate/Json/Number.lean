/-
This file writes numbers and turns the parts of a written number into its value. Reals are written
with the fewest digits that read back, positionally from `0.00001` to below `1e16`, and never
without a point or an exponent, so that no real is read back as an integer.
-/

import FlowGate.Json.Basic
import FlowGate.Decimal.Layout

namespace FlowGate.Number

/-! ### Writing -/

/-- Reals are positional from the fifth decimal to the sixteenth digit before the point. -/
def realLayout : Decimal.Layout :=
  { first := -5, last := 15, negativeMark := "e-", positiveMark := "e+" }

/-- The text of a finite real. -/
def realText (value : Float) : String :=
  let sign := if Nat.pow 2 63 ≤ value.toBits.toNat then "-" else ""
  if value == 0.0 then sign ++ "0.0"
  else sign ++ realLayout.write (Decimal.Cell.ofFloat value).shortest

/-- The text of a number. -/
def text : Number → String
  | .integer value _ _ => toString value
  | .real value => realText value

/-! ### Reading -/

/-- The largest significand that is collected digit by digit. -/
def largestSignificand : Nat := Nat.pow 2 64 - 1

/-- The largest power of ten that is applied in one step. -/
def largestPower : Nat := 308

/-- A power of ten up to the largest one, rounded to the nearest real. -/
def powerOfTen (exponent : Nat) : Float :=
  Float.ofScientific 1 false exponent

/-- Divides by powers of ten, the largest one first, until the exponent is used up or nothing is
left of the number. -/
def dividedBy (value : Float) (exponent : Nat) : Float :=
  if exponent ≤ largestPower then value / powerOfTen exponent
  else if value == 0.0 then value
  else dividedBy (value / powerOfTen largestPower) (exponent - largestPower)
termination_by exponent
decreasing_by simp only [largestPower] at *; omega

/-- The real `significand * 10 ^ exponent` by one multiplication or by divisions, or none when it
is too large. -/
def scaled? (significand : Nat) (exponent : Int) : Option Float :=
  let value := significand.toUInt64.toFloat
  if exponent < 0 then some (dividedBy value exponent.natAbs)
  else if exponent.toNat ≤ largestPower then
    let product := value * powerOfTen exponent.toNat
    if product.isInf then none else some product
  else if value == 0.0 then some value
  else none

/-- A real with its sign. -/
def signed (negative : Bool) (value : Float) : Number :=
  .real (if negative then -value else value)

/-- A number written without point and exponent: an integer if it fits, and a real for minus zero
and for negative integers that do not fit. -/
def ofWhole (negative : Bool) (significand : Nat) : Number :=
  if fits : 0 < significand ∧ significand ≤ 9223372036854775808 ∧ negative = true then
    .integer (-significand) (by omega) (by omega)
  else if fits : negative = false ∧ significand < 18446744073709551616 then
    .integer significand (by omega) (by omega)
  else signed negative significand.toUInt64.toFloat

end FlowGate.Number
