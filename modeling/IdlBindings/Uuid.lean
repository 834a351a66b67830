import IdlBindings.Text.Blank
import IdlBindings.Text.Bytes
import IdlBindings.Text.Numeral
import IdlBindings.Text.Quoted

/-
This file holds the sixteen-byte identifiers of libraries, categories and interfaces, with the
texts they are read from and written as.
-/

namespace IdlBindings

structure Uuid where
  bytes : List UInt8
  length_bytes : bytes.length = 16
deriving DecidableEq

inductive UuidFault where
  | layout (text : String)
  | oddDigitCount
  | wrongDigitCount
  | badDigit (byte : UInt8) (position : Nat)
deriving DecidableEq

def UuidFault.message : UuidFault → String
  | .layout text => "dashes must separate 8-4-4-4-12 digit groups in '" ++ text ++ "'"
  | .oddDigitCount => "invalid hexadecimal UUID: Odd number of digits"
  | .wrongDigitCount => "invalid hexadecimal UUID: Invalid string length"
  | .badDigit byte position =>
      "invalid hexadecimal UUID: Invalid character " ++
        Text.quotedCharacter (Char.ofNat byte.toNat) ++ " at position " ++ Text.decimal position

namespace Uuid

/-- The digits of the five groups, one after the other. -/
def digits (uuid : Uuid) : List Char := uuid.bytes.flatMap Text.hexByte

def text (uuid : Uuid) : String :=
  let digits := uuid.digits
  String.ofList (digits.take 8 ++ ['-'] ++ (digits.drop 8).take 4 ++ ['-'] ++
    (digits.drop 12).take 4 ++ ['-'] ++ (digits.drop 16).take 4 ++ ['-'] ++ digits.drop 20)

/-- One pair of braces goes only if both are there. -/
def withoutBraces (text : List Char) : List Char :=
  match text with
  | '\x7b' :: inner => if inner.getLast? == some '\x7d' then inner.dropLast else text
  | _ => text

def dash : UInt8 := 0x2D

def hasGroupDashes (bytes : List UInt8) : Bool :=
  bytes.length == 36 && [8, 13, 18, 23].all fun position => bytes[position]? == some dash

def digitAt (position : Nat) (byte : UInt8) : Except UuidFault Nat :=
  match Text.digitValue? (Char.ofNat byte.toNat) with
  | some value => .ok value
  | none => .error (.badDigit byte position)

/-- This reads the bytes of the digits two by two, counting positions from the given one. -/
def readPairs : Nat → List UInt8 → Except UuidFault (List UInt8)
  | position, high :: low :: rest => do
      let upper ← digitAt position high
      let lower ← digitAt (position + 1) low
      let bytes ← readPairs (position + 2) rest
      return UInt8.ofNat (16 * upper + lower) :: bytes
  | _, _ => .ok []

def ofDigits (digits : List UInt8) : Except UuidFault Uuid :=
  if digits.length % 2 ≠ 0 then .error .oddDigitCount
  else if digits.length ≠ 32 then .error .wrongDigitCount
  else do
    let bytes ← readPairs 0 digits
    if complete : bytes.length = 16 then .ok ⟨bytes, complete⟩ else .error .wrongDigitCount

def parse (source : String) : Except UuidFault Uuid :=
  let bytes := Text.utf8 (withoutBraces (Text.trim source.toList))
  if bytes.contains dash then
    if hasGroupDashes bytes then ofDigits (bytes.filter (· != dash))
    else .error (.layout source)
  else ofDigits bytes

end Uuid

end IdlBindings
