import IdlBindings.Document.Format
import IdlBindings.Model

/-
This file decodes the model from the nodes of a format.
-/

namespace IdlBindings.Document

open Model

/-- A decoder takes the allowance that is left and a node. -/
abbrev Decoder (Node Result : Type) := Nat → Node → Option Result

variable {Node Result : Type}

/-- This decodes a record by its members that have the given names. -/
def Format.record (format : Format Node) (names : List String)
    (decode : Nat → List (String × Node) → Option Result) : Decoder Node Result :=
  fun allowance node => do
    let inner ← format.inside? allowance node
    let members ← format.members? names node
    decode inner members

def Format.list (format : Format Node) (element : Decoder Node Result) :
    Decoder Node (List Result) :=
  fun allowance node => do
    let inner ← format.inside? allowance node
    let elements ← format.elements? node
    elements.mapM (element inner)

def Format.optional (format : Format Node) (decode : Decoder Node Result) :
    Decoder Node (Option Result) :=
  fun allowance node =>
    if format.isAbsent node then some none else (decode allowance node).map some

def required (name : String) (members : List (String × Node)) (decode : Node → Option Result) :
    Option Result :=
  match members.lookup name with
  | some node => decode node
  | none => none

def defaulted (name : String) (members : List (String × Node)) (default : Result)
    (decode : Node → Option Result) : Option Result :=
  match members.lookup name with
  | some node => decode node
  | none => some default

def Format.text (format : Format Node) : Decoder Node String := fun _ node => format.text? node

def Format.uuid (format : Format Node) : Decoder Node Uuid :=
  fun _ node =>
    match (format.text? node).map Uuid.parse with
    | some (.ok uuid) => some uuid
    | _ => none

def Format.kind (format : Format Node) : Decoder Node Kind :=
  fun allowance node => (format.word? allowance node).bind Kind.ofWord?

/-- A value that thirty-two bits hold. -/
def Format.itemValue (format : Format Node) : Decoder Node Int32 :=
  fun _ node => do
    let value ← format.integer? node
    if -Int.pow 2 31 ≤ value ∧ value < Int.pow 2 31 then some (Int32.ofInt value) else none

/-- An index that sixty-four bits hold. -/
def Format.index (format : Format Node) : Decoder Node UInt64 :=
  fun _ node => do
    let value ← format.natural? node
    if value < Nat.pow 2 64 then some (UInt64.ofNat value) else none

/-- The fuel bounds how deep template types nest. -/
def Format.dataTypeWithin (format : Format Node) : Nat → Decoder Node DataType
  | 0 => fun _ _ => none
  | fuel + 1 =>
      format.record ["kind", "name", "template-index", "template-types"] fun allowance members => do
        let kind ← required "kind" members (format.kind allowance)
        let name ← defaulted "name" members none (format.optional format.text allowance)
        let templateIndex ←
          defaulted "template-index" members none (format.optional format.index allowance)
        let templateTypes ←
          defaulted "template-types" members [] (format.list (format.dataTypeWithin fuel) allowance)
        return { kind, name, templateIndex, templateTypes }

/-- Each type takes a level, so the allowance is fuel enough. -/
def Format.dataType (format : Format Node) : Decoder Node DataType :=
  fun allowance node => format.dataTypeWithin (allowance + 1) allowance node

/-- A member of an entry is known by its name or by its position. -/
inductive AttributeMember where
  | name
  | value
  | unknown
deriving DecidableEq

def AttributeMember.ofKey? : Leaf → Option AttributeMember
  | .text key =>
      some (if key = "name" then .name else if key = "value" then .value else .unknown)
  | .position index => some (if index = 0 then .name else if index = 1 then .value else .unknown)
  | .absent | .other => none

/-- The values of the members of one sort. -/
def valuesOf (member : AttributeMember) (members : List (AttributeMember × Leaf)) : List Leaf :=
  (members.filter fun entry => entry.1 = member).map (·.2)

def attributeOfPairs? (pairs : List (Leaf × Leaf)) : Option Attribute := do
  let members ← pairs.mapM fun pair =>
    (AttributeMember.ofKey? pair.1).map fun member => (member, pair.2)
  let name ←
    match valuesOf .name members with
    | [.text name] => some name
    | _ => none
  let value ←
    match valuesOf .value members with
    | [] | [.absent] => some none
    | [.text value] => some (some value)
    | _ => none
  return { name, value }

/-- An attribute is its bare name, or a name with an optional value. -/
def attributeOf? : Entry → Option Attribute
  | .leaf (.text name) => some { name }
  | .leaf _ => none
  | .pairs members => attributeOfPairs? members

def Format.attribute (format : Format Node) : Decoder Node Attribute :=
  fun allowance node => (format.entryWithin? allowance node).bind attributeOf?

def Format.argument (format : Format Node) : Decoder Node Argument :=
  format.record ["name", "attributes", "data-type"] fun allowance members => do
    let name ← required "name" members (format.text allowance)
    let attributes ← defaulted "attributes" members [] (format.list format.attribute allowance)
    let dataType ← required "data-type" members (format.dataType allowance)
    return { name, attributes, dataType }

def Format.method (format : Format Node) : Decoder Node Method :=
  format.record ["name", "attributes", "return-type", "arguments"] fun allowance members => do
    let name ← required "name" members (format.text allowance)
    let attributes ← defaulted "attributes" members [] (format.list format.attribute allowance)
    let returnType ←
      defaulted "return-type" members none (format.optional format.dataType allowance)
    let arguments ← defaulted "arguments" members [] (format.list format.argument allowance)
    return { name, attributes, returnType, arguments }

def Format.interface (format : Format Node) : Decoder Node Interface :=
  format.record ["name", "uuid", "template-args", "methods"] fun allowance members => do
    let name ← required "name" members (format.text allowance)
    let uuid ← required "uuid" members (format.uuid allowance)
    let templateArguments ←
      defaulted "template-args" members [] (format.list format.text allowance)
    let methods ← defaulted "methods" members [] (format.list format.method allowance)
    return { name, uuid, templateArguments, methods }

def Format.enumerationItem (format : Format Node) : Decoder Node EnumerationItem :=
  format.record ["name", "value"] fun allowance members => do
    let name ← required "name" members (format.text allowance)
    let value ← required "value" members (format.itemValue allowance)
    return { name, value }

def Format.enumeration (format : Format Node) : Decoder Node Enumeration :=
  format.record ["name", "items"] fun allowance members => do
    let name ← required "name" members (format.text allowance)
    let items ← defaulted "items" members [] (format.list format.enumerationItem allowance)
    return { name, items }

def Format.category (format : Format Node) : Decoder Node Category :=
  format.record ["name", "uuid"] fun allowance members => do
    let name ← required "name" members (format.text allowance)
    let uuid ← required "uuid" members (format.uuid allowance)
    return { name, uuid }

def Format.library (format : Format Node) : Decoder Node Library :=
  format.record ["name", "uuid", "category-ids", "enumerations", "interfaces"]
    fun allowance members => do
      let name ← required "name" members (format.text allowance)
      let uuid ← required "uuid" members (format.uuid allowance)
      let categories ←
        defaulted "category-ids" members [] (format.list format.category allowance)
      let enumerations ←
        defaulted "enumerations" members [] (format.list format.enumeration allowance)
      let interfaces ←
        defaulted "interfaces" members [] (format.list format.interface allowance)
      return { name, uuid, categories, enumerations, interfaces }

def Format.document (format : Format Node) : Decoder Node Document :=
  format.record ["libraries"] fun allowance members => do
    let libraries ← defaulted "libraries" members [] (format.list format.library allowance)
    return { libraries }

end IdlBindings.Document
