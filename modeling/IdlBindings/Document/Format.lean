/-
This file says what the decoders of a document ask of a format, whatever its nodes are.
-/

namespace IdlBindings.Document

/-- A value that stands alone inside an attribute entry. -/
inductive Leaf where
  | absent
  | text (value : String)
  | position (index : Nat)
  | other
deriving DecidableEq

/-- An attribute entry is one value, or pairs of a key and a value. -/
inductive Entry where
  | leaf (value : Leaf)
  | pairs (members : List (Leaf × Leaf))
deriving DecidableEq

/-- The views of a node. A view that does not fit the node is `none`. An allowance bounds how many
containers may stand inside each other. -/
structure Format (Node : Type) where
  isContainer : Node → Bool
  /-- The members of a record that have one of the names, each name at most once. -/
  members? : List String → Node → Option (List (String × Node))
  elements? : Node → Option (List Node)
  text? : Node → Option String
  /-- The word of a choice without content. -/
  word? : Nat → Node → Option String
  isAbsent : Node → Bool
  integer? : Node → Option Int
  natural? : Node → Option Nat
  /-- An entry counts as a whole, so that all of it has to be readable. -/
  entryWithin? : Nat → Node → Option Entry

/-- The allowance inside a node: a container takes one level of it. -/
def Format.inside? {Node : Type} (format : Format Node) (allowance : Nat) (node : Node) :
    Option Nat :=
  if format.isContainer node then
    match allowance with
    | 0 => none
    | rest + 1 => some rest
  else some allowance

end IdlBindings.Document
