import IdlBindings.Text.Double
import IdlBindings.Text.Numeral

/-
This file reads decimal literals and tells which of them a double can hold.
-/

namespace IdlBindings.Text

/-- The parts of a literal: the digits before and after the point, and the written exponent. -/
structure Real where
  whole : List Char
  fraction : List Char
  exponent : Int

def digitsNumber (digits : List Char) : Nat := (readNumeral? 10 digits).getD 0

def withoutSign (text : List Char) : List Char :=
  match text with
  | '-' :: rest => rest
  | '+' :: rest => rest
  | other => other

/-- The exponent part of a literal, which may be missing. -/
def readExponent? (text : List Char) : Option Int :=
  match text with
  | [] => some 0
  | mark :: rest =>
      if mark == 'e' || mark == 'E' then
        (readNumeral? 10 (withoutSign rest)).map fun magnitude =>
          if rest.head? == some '-' then - (magnitude : Int) else magnitude
      else none

/-- A literal has a digit before or after its point, and may have a sign and an exponent. -/
def readReal? (text : List Char) : Option Real :=
  let unsigned := withoutSign text
  let whole := unsigned.takeWhile Char.isDigit
  let afterWhole := unsigned.dropWhile Char.isDigit
  let afterPoint := if afterWhole.head? == some '.' then afterWhole.drop 1 else []
  let fraction := afterPoint.takeWhile Char.isDigit
  let rest :=
    if afterWhole.head? == some '.' then afterPoint.dropWhile Char.isDigit else afterWhole
  if whole.isEmpty && fraction.isEmpty then none
  else
    (readExponent? rest).map fun exponent => { whole, fraction, exponent }

namespace Real

/-- The digits without leading zeros. -/
def digits (real : Real) : List Char := (real.whole ++ real.fraction).dropWhile (· == '0')

/-- The power of ten that scales the digits. -/
def scale (real : Real) : Int := real.exponent - real.fraction.length

/-- Whether the nearest double is finite. This compares with the bound only where the count of
digits leaves a doubt. -/
def isFinite (real : Real) : Bool :=
  let size := (real.digits.length : Int) + real.scale
  if real.digits.isEmpty || size < 300 then true
  else if 310 < size then false
  else if 0 ≤ real.scale then
    digitsNumber real.digits * Nat.pow 10 real.scale.toNat < doubleBound
  else digitsNumber real.digits < doubleBound * Nat.pow 10 (- real.scale).toNat

end Real

end IdlBindings.Text
