/-
This file holds JSON values.
-/

namespace IdlBindings

/-- The members of an object keep their order. A `real` is a number that is not written as a
plain integer, with the characters it is written by. An `undecodable` is a string with an
unpaired surrogate, or an object with such a key: it can be skipped but never used. -/
inductive Json where
  | null
  | boolean (value : Bool)
  | integer (value : Int)
  | real (literal : List Char)
  | string (value : String)
  | array (elements : List Json)
  | object (members : List (String × Json))
  | undecodable

namespace Json

mutual

/-- The greatest number of arrays and objects that stand inside each other. -/
def nesting : Json → Nat
  | array elements => nestingOfElements elements + 1
  | object members => nestingOfMembers members + 1
  | _ => 0

def nestingOfElements : List Json → Nat
  | [] => 0
  | element :: rest => max (nesting element) (nestingOfElements rest)

def nestingOfMembers : List (String × Json) → Nat
  | [] => 0
  | (_, value) :: rest => max (nesting value) (nestingOfMembers rest)

end

end Json

end IdlBindings
