import IdlBindings.Text.Double
import IdlBindings.Text.Real

/-
This file tells which numbers of a JSON text can be held as doubles. A number is reckoned as a word
of sixty-four bits times a power of ten, each of them rounded to a double.
-/

namespace IdlBindings.Json

/-- A word and the power of ten that scales it. -/
structure Scaled where
  significand : Nat
  exponent : Int

namespace Scaled

def wordBound : Nat := Nat.pow 2 64

/-- This puts digits after a significand as long as the word holds them. The digits from the first
that does not fit are left over. -/
def appendDigits (significand : Nat) : List Char → Nat × List Char
  | [] => (significand, [])
  | digit :: rest =>
      let longer := significand * 10 + Text.digitsNumber [digit]
      if longer < wordBound then appendDigits longer rest else (significand, digit :: rest)

/-- A whole digit that is left over counts for the exponent, and one of the fraction for nothing. -/
def ofReal (number : Text.Real) : Scaled :=
  let (whole, wholeLeft) := appendDigits 0 number.whole
  let (significand, fractionLeft) := appendDigits whole number.fraction
  let fractionTaken := number.fraction.length - fractionLeft.length
  { significand, exponent := number.exponent + wholeLeft.length - fractionTaken }

/-- The greatest power of ten that a double can hold. -/
def greatestExponent : Int := 308

def isFinite (scaled : Scaled) : Bool :=
  scaled.significand == 0 || scaled.exponent < 0 ||
    (scaled.exponent ≤ greatestExponent &&
      Text.roundToDouble scaled.significand *
          Text.roundToDouble (Nat.pow 10 scaled.exponent.toNat) < Text.doubleBound)

end Scaled

/-- Whether the number that a literal spells can be held. -/
def isHeld (literal : List Char) : Bool :=
  match Text.readReal? literal with
  | some number => (Scaled.ofReal number).isFinite
  | none => false

end IdlBindings.Json
