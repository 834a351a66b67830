import IdlBindings.Document.Decoding
import IdlBindings.Yaml.Node
import IdlBindings.Yaml.Scalar

/-
This file reads a model from YAML. Nothing written is an empty record or list, and a text is any
scalar; only in attribute entries plain scalars have types. A model that uses tags, anchors,
aliases, block scalars or directives is not read, since the tokens leave them out.
-/

namespace IdlBindings.Yaml.Node

def isContainer : Node → Bool
  | sequence _ | mapping _ => true
  | scalar _ _ => false

def isEmpty : Node → Bool
  | scalar true "" => true
  | _ => false

def text? : Node → Option String
  | scalar _ text => some text
  | _ => none

/-- Members with other names are skipped, but every key is a scalar. -/
def members? (names : List String) : Node → Option (List (String × Node))
  | mapping members => do
      let named ← members.mapM fun member => (text? member.1).map fun key => (key, member.2)
      let known := named.filter fun member => names.contains member.1
      if (known.map (·.1)).Nodup then some known else none
  | other => if isEmpty other then some [] else none

def elements? : Node → Option (List Node)
  | sequence elements => some elements
  | other => if isEmpty other then some [] else none

def isAbsent : Node → Bool
  | scalar true text => Scalar.isAbsent text
  | _ => false

def integer? : Node → Option Int
  | scalar true text => Scalar.integer? text
  | _ => none

def natural? : Node → Option Nat
  | scalar true text => Scalar.natural? text
  | _ => none

mutual

/-- Whether a node can be held with the types of its scalars. -/
def isReadable (allowance : Nat) : Node → Bool
  | scalar plain text => !(plain && Scalar.typed text = .wide)
  | sequence elements => 0 < allowance && areReadable (allowance - 1) elements
  | mapping members => 0 < allowance && areMembersReadable (allowance - 1) members

def areReadable (allowance : Nat) : List Node → Bool
  | [] => true
  | element :: rest => isReadable allowance element && areReadable allowance rest

def areMembersReadable (allowance : Nat) : List (Node × Node) → Bool
  | [] => true
  | (key, value) :: rest =>
      isReadable allowance key && isReadable allowance value && areMembersReadable allowance rest

end

def leaf : Node → Document.Leaf
  | scalar true text =>
      match Scalar.typed text with
      | .absent => .absent
      | .natural value => .position value
      | .text => .text text
      | .other | .wide => .other
  | scalar false text => .text text
  | _ => .other

def entry (node : Node) : Document.Entry :=
  match node with
  | mapping members => .pairs (members.map fun member => (leaf member.1, leaf member.2))
  | other => .leaf (leaf other)

def entryWithin? (allowance : Nat) (node : Node) : Option Document.Entry :=
  if isReadable allowance node then some (entry node) else none

def format : Document.Format Node where
  isContainer := isContainer
  members? := members?
  elements? := elements?
  text? := text?
  word? := fun _ node => text? node
  isAbsent := isAbsent
  integer? := integer?
  natural? := natural?
  entryWithin? := entryWithin?

/-- The number of containers that may stand inside each other in a text. -/
def textAllowance : Nat := 128

end IdlBindings.Yaml.Node

namespace IdlBindings.Model

/-- The document is decoded before the text after it is looked at. -/
def Document.ofYamlText (text : String) : Except Yaml.Fault Document := do
  let tokens ← Yaml.Token.scan text
  let (node, rest) ← Yaml.Node.readFirst tokens
  match Yaml.Node.format.document Yaml.Node.textAllowance node with
  | some document => do
      Yaml.Node.finish rest
      return document
  | none => .error .malformed

end IdlBindings.Model
