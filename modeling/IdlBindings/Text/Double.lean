/-
This file rounds natural numbers to doubles, whose significands have fifty-three bits.
-/

namespace IdlBindings.Text

/-- The distance between doubles from the greatest power of two in a number on. -/
def doubleUnit (number : Nat) : Nat := Nat.pow 2 (number.log2 - 52)

/-- This rounds to the nearest double, as if exponents had no bound. A tie goes to the even
neighbour. -/
def roundToDouble (number : Nat) : Nat :=
  let unit := doubleUnit number
  let quotient := number / unit
  let twice := 2 * (number % unit)
  if unit < twice || (unit == twice && quotient % 2 == 1) then (quotient + 1) * unit
  else quotient * unit

/-- The least number that rounds to an infinite double. -/
def doubleBound : Nat := (Nat.pow 2 54 - 1) * Nat.pow 2 970

end IdlBindings.Text
