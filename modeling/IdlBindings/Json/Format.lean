import IdlBindings.Document.Decoding
import IdlBindings.Json.Number
import IdlBindings.Json.Reader

/-
This file reads a model from JSON. A record is an object, or an array of its members in order.
-/

namespace IdlBindings.Json

def isContainer : Json → Bool
  | array _ | object _ => true
  | _ => false

/-- Members with other names are skipped. -/
def members? (names : List String) : Json → Option (List (String × Json))
  | array elements => if elements.length ≤ names.length then some (names.zip elements) else none
  | object members =>
      let known := members.filter fun member => names.contains member.1
      if (known.map (·.1)).Nodup then some known else none
  | _ => none

def elements? : Json → Option (List Json)
  | array elements => some elements
  | _ => none

def text? : Json → Option String
  | string value => some value
  | _ => none

/-- A word may stand as the key of an object with nothing behind it. -/
def word? (allowance : Nat) : Json → Option String
  | string value => some value
  | object [(key, null)] => if 0 < allowance then some key else none
  | _ => none

def isAbsent : Json → Bool
  | null => true
  | _ => false

def integer? : Json → Option Int
  | integer value => some value
  | _ => none

def natural? : Json → Option Nat
  | integer (.ofNat value) => some value
  | _ => none

mutual

/-- Whether a value can be held: it stays within the allowance, and every text and number in it
denotes something. -/
def isReadable (allowance : Nat) : Json → Bool
  | undecodable => false
  | real literal => isHeld literal
  | array elements => 0 < allowance && areReadable (allowance - 1) elements
  | object members => 0 < allowance && areMembersReadable (allowance - 1) members
  | _ => true

def areReadable (allowance : Nat) : List Json → Bool
  | [] => true
  | element :: rest => isReadable allowance element && areReadable allowance rest

def areMembersReadable (allowance : Nat) : List (String × Json) → Bool
  | [] => true
  | (_, value) :: rest => isReadable allowance value && areMembersReadable allowance rest

end

def leaf : Json → Document.Leaf
  | null => .absent
  | string value => .text value
  | _ => .other

def entry (value : Json) : Document.Entry :=
  match value with
  | object members => .pairs (members.map fun member => (.text member.1, leaf member.2))
  | other => .leaf (leaf other)

def entryWithin? (allowance : Nat) (value : Json) : Option Document.Entry :=
  if isReadable allowance value then some (entry value) else none

def format : Document.Format Json where
  isContainer := isContainer
  members? := members?
  elements? := elements?
  text? := text?
  word? := word?
  isAbsent := isAbsent
  integer? := integer?
  natural? := natural?
  entryWithin? := entryWithin?

/-- The number of containers that may stand inside each other in a text. -/
def textAllowance : Nat := 127

end IdlBindings.Json

namespace IdlBindings.Model

/-- A value in hand may nest as deep as it does. -/
def Document.ofJson? (value : Json) : Option Document := Json.format.document value.nesting value

def Library.ofJson? (value : Json) : Option Library := Json.format.library value.nesting value

def Interface.ofJson? (value : Json) : Option Interface := Json.format.interface value.nesting value

def Argument.ofJson? (value : Json) : Option Argument := Json.format.argument value.nesting value

def DataType.ofJson? (value : Json) : Option DataType := Json.format.dataType value.nesting value

def Document.ofJsonText? (text : String) : Option Document :=
  (Json.read? text).bind (Json.format.document Json.textAllowance)

end IdlBindings.Model
