import IdlBindings.Text.Real

/-
This file holds what a plain scalar denotes besides its text.
-/

namespace IdlBindings.Yaml.Scalar

def nullWords : List String := ["null", "Null", "NULL", "~"]

def booleanWords : List String := ["true", "True", "TRUE", "false", "False", "FALSE"]

def specialReals : List String :=
  [".inf", ".Inf", ".INF", "+.inf", "+.Inf", "+.INF", "-.inf", "-.Inf", "-.INF", ".nan", ".NaN",
    ".NAN"]

def isAbsent (text : String) : Bool := text.isEmpty || nullWords.contains text

/-- Digits after a leading zero are a text and no number. -/
def isPaddedNumber (text : List Char) : Bool :=
  match Text.withoutSign text with
  | '0' :: rest => !rest.isEmpty && rest.all Char.isDigit
  | _ => false

/-- The size of a number without its sign: decimal, or in a base that is named before it. -/
def magnitude? (text : List Char) : Option Nat :=
  match text with
  | '0' :: 'x' :: digits => Text.readNumeral? 16 digits
  | '0' :: 'o' :: digits => Text.readNumeral? 8 digits
  | '0' :: 'b' :: digits => Text.readNumeral? 2 digits
  | digits => Text.readNumeral? 10 digits

def integer? (text : String) : Option Int :=
  let characters := text.toList
  if isPaddedNumber characters then none
  else
    match characters with
    | '-' :: rest => (magnitude? rest).map fun size => - (size : Int)
    | '+' :: rest => (magnitude? rest).map fun size => (size : Int)
    | _ => (magnitude? characters).map fun size => (size : Int)

/-- A natural number has no minus sign, not even before a zero. -/
def natural? (text : String) : Option Nat :=
  if text.toList.head? == some '-' then none else (integer? text).map Int.toNat

def isReal (text : String) : Bool :=
  specialReals.contains text ||
    (!isPaddedNumber text.toList &&
      match Text.readReal? text.toList with
      | some real => real.isFinite
      | none => false)

/-- Whether one hundred and twenty-eight bits hold a number but sixty-four do not. -/
def isWide (number : Int) : Bool :=
  (Int.pow 2 64 ≤ number && number < Int.pow 2 128) ||
    (-Int.pow 2 127 ≤ number && number < -Int.pow 2 63)

/-- What a plain scalar denotes where any type may stand. -/
inductive Typed where
  | absent
  | natural (value : Nat)
  | other
  | wide
  | text
deriving DecidableEq

def typed (text : String) : Typed :=
  if isAbsent text then .absent
  else if booleanWords.contains text then .other
  else
    match integer? text with
    | some number =>
        if isWide number then .wide
        else if number < -Int.pow 2 127 ∨ Int.pow 2 128 ≤ number then
          if isReal text then .other else .text
        else
          match natural? text with
          | some value => .natural value
          | none => .other
    | none => if isReal text then .other else .text

end IdlBindings.Yaml.Scalar
