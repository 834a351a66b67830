/-
This file writes and reads numbers in a base up to sixteen.
-/

namespace IdlBindings.Text

/-- The digit of a value below sixteen, in lower case. -/
def digitCharacter (value : Nat) : Char :=
  if value < 10 then Char.ofNat (0x30 + value) else Char.ofNat (0x57 + value)

/-- The value of a digit in either case. -/
def digitValue? (character : Char) : Option Nat :=
  let code := character.toNat
  if 0x30 ≤ code && code ≤ 0x39 then some (code - 0x30)
  else if 0x61 ≤ code && code ≤ 0x66 then some (code - 0x57)
  else if 0x41 ≤ code && code ≤ 0x46 then some (code - 0x37)
  else none

/-- The digits of a number, the most significant first; the fuel bounds their count. -/
def digitsWithin (base : Nat) : Nat → Nat → List Nat
  | 0, _ => []
  | fuel + 1, number =>
      if number < base then [number]
      else digitsWithin base fuel (number / base) ++ [number % base]

def numeral (base number : Nat) : List Char :=
  (digitsWithin base (number + 1) number).map digitCharacter

/-- This reads a nonempty run of digits of the base and nothing else. -/
def readNumeral? (base : Nat) (text : List Char) : Option Nat :=
  if text.isEmpty then none
  else
    text.foldlM (fun number character =>
      match digitValue? character with
      | some digit => if digit < base then some (number * base + digit) else none
      | none => none) 0

def decimal (number : Nat) : String := String.ofList (numeral 10 number)

def signedDecimal (number : Int) : String :=
  match number with
  | .ofNat magnitude => decimal magnitude
  | .negSucc predecessor => "-" ++ decimal (predecessor + 1)

def hexadecimal (number : Nat) : String := String.ofList (numeral 16 number)

/-- The two digits of a byte. -/
def hexByte (byte : UInt8) : List Char :=
  [digitCharacter (byte.toNat / 16), digitCharacter (byte.toNat % 16)]

end IdlBindings.Text
