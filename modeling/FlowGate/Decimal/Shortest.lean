/-
This file finds the shortest decimal that reads back as a given double-precision number. A finite
number is `mantissa * 2 ^ exponent`; the real numbers that round to it fill a cell around it,
whose ends belong to it when the mantissa is even. Of the grids of one, two, up to seventeen
digits the first with a point in the cell gives the answer: the point nearer to the number, and
of two equally near ones the even one. All arithmetic is exact.
-/

namespace FlowGate.Decimal

/-- A positive decimal, `coefficient * 10 ^ exponent`. -/
structure Digits where
  coefficient : Nat
  exponent : Int
  deriving DecidableEq, Repr

/-- The numbers that round to one value: `low`, `value` and `high` are numerators over
`denominator`, and `closed` tells whether the two ends belong to the cell. -/
structure Cell where
  low : Nat
  value : Nat
  high : Nat
  denominator : Nat
  closed : Bool
  deriving DecidableEq, Repr

/-- The cell of `mantissa * 2 ^ exponent`. A power of two whose lower neighbour lies in the next
smaller binade is `narrow`: the lower half of its cell has half the width. -/
def Cell.ofBinary (mantissa : Nat) (exponent : Int) (narrow : Bool) : Cell :=
  let scale := Nat.pow 2 (exponent - 2).toNat
  { low := (4 * mantissa - (if narrow then 1 else 2)) * scale
    value := 4 * mantissa * scale
    high := (4 * mantissa + 2) * scale
    denominator := Nat.pow 2 (2 - exponent).toNat
    closed := mantissa % 2 == 0 }

/-- The cell of a finite double-precision number that is not zero, its sign left aside. -/
def Cell.ofFloat (number : Float) : Cell :=
  let bits : Nat := number.toBits.toNat
  let biased : Nat := bits / Nat.pow 2 52 % Nat.pow 2 11
  let fraction : Nat := bits % Nat.pow 2 52
  if biased = 0 then .ofBinary fraction (-1074) false
  else .ofBinary (Nat.pow 2 52 + fraction) ((biased : Int) - 1075) (fraction == 0 && 1 < biased)

/-- How many decimal digits a natural number has; zero has none. -/
def digitCount (number : Nat) : Nat :=
  if number = 0 then 0 else digitCount (number / 10) + 1

/-- The power of ten of the leading digit of the cell's value. -/
def Cell.leading (cell : Cell) : Int :=
  if cell.denominator ≤ cell.value then digitCount (cell.value / cell.denominator) - 1
  else -(digitCount ((cell.denominator - 1) / cell.value))

/-- The point of the grid of multiples of `10 ^ exponent` that lies in the cell nearest to its
value, if there is one. -/
def Cell.point? (cell : Cell) (exponent : Int) : Option Digits :=
  let unit := cell.denominator * Nat.pow 10 exponent.toNat
  let scale := Nat.pow 10 (-exponent).toNat
  let below := cell.value * scale / unit
  let inside (coefficient : Nat) : Bool :=
    let point := coefficient * unit
    if cell.closed then
      decide (cell.low * scale ≤ point) && decide (point ≤ cell.high * scale)
    else
      decide (cell.low * scale < point) && decide (point < cell.high * scale)
  let twice := 2 * (cell.value * scale)
  let middle := (2 * below + 1) * unit
  match inside below, inside (below + 1) with
  | true, true =>
    if twice < middle ∨ twice = middle ∧ below % 2 = 0 then some ⟨below, exponent⟩
    else some ⟨below + 1, exponent⟩
  | true, false => some ⟨below, exponent⟩
  | false, true => some ⟨below + 1, exponent⟩
  | false, false => none

/-- The same decimal without zeros at its end. -/
def Digits.trimmed (digits : Digits) : Digits :=
  if 0 < digits.coefficient ∧ digits.coefficient % 10 = 0 then
    Digits.trimmed ⟨digits.coefficient / 10, digits.exponent + 1⟩
  else digits
termination_by digits.coefficient
decreasing_by omega

/-- The decimal with the fewest digits in the cell, and of these the one nearest to its value. -/
def Cell.shortest (cell : Cell) : Digits :=
  let found := (List.range 17).findSome? fun (extra : Nat) => cell.point? (cell.leading - extra)
  (found.getD ⟨cell.value / cell.denominator, 0⟩).trimmed

end FlowGate.Decimal
