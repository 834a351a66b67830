import IdlBindings.Uuid

/-
This file holds the model a document declares: libraries of enumerations and interfaces.
-/

namespace IdlBindings.Model

inductive Kind where
  | boolean
  | integer
  | real
  | result
  | uuid
  | enumeration
  | windowId
  | string
  | arrayString
  | value
  | arrayInteger
  | arrayBoolean
  | arrayReal
  | arrayValue
  | arrayByte
  | arrayEnumeration
  | interface
  | templateArgument
  | invalid
deriving DecidableEq

namespace Kind

def all : List Kind :=
  [boolean, integer, real, result, uuid, enumeration, windowId, string, arrayString, value,
    arrayInteger, arrayBoolean, arrayReal, arrayValue, arrayByte, arrayEnumeration, interface,
    templateArgument, invalid]

/-- The word a document writes for the kind. -/
def word : Kind → String
  | boolean => "boolean"
  | integer => "integer"
  | real => "real"
  | result => "result"
  | uuid => "uuid"
  | enumeration => "enumeration"
  | windowId => "window-id"
  | string => "string"
  | arrayString => "array-string"
  | value => "value"
  | arrayInteger => "array-integer"
  | arrayBoolean => "array-boolean"
  | arrayReal => "array-real"
  | arrayValue => "array-value"
  | arrayByte => "array-byte"
  | arrayEnumeration => "array-enumeration"
  | interface => "interface"
  | templateArgument => "template-argument"
  | invalid => "invalid"

def ofWord? (text : String) : Option Kind := all.find? fun kind => kind.word == text

/-- The name of the type in the support library, used when a declaration gives none. -/
def canonicalName : Kind → String
  | boolean => "CapeBoolean"
  | integer => "CapeInteger"
  | real => "CapeReal"
  | result => "CapeResult"
  | uuid => "CapeUUID"
  | enumeration => "CapeEnumeration"
  | windowId => "CapeWindowId"
  | string => "CapeString"
  | arrayString => "CapeArrayString"
  | value => "CapeValue"
  | arrayInteger => "CapeArrayInteger"
  | arrayBoolean => "CapeArrayBoolean"
  | arrayReal => "CapeArrayReal"
  | arrayValue => "CapeArrayValue"
  | arrayByte => "CapeArrayByte"
  | arrayEnumeration => "CapeArrayEnumeration"
  | interface => "CapeObject"
  | templateArgument => ""
  | invalid => ""

theorem ofWord?_word (kind : Kind) : ofWord? kind.word = some kind := by
  cases kind <;> decide

end Kind

/-- A declared type; the index refers to the template arguments of the owning interface. -/
structure DataType where
  kind : Kind
  name : Option String := none
  templateIndex : Option UInt64 := none
  templateTypes : List DataType := []

/-- The declared name, or else the canonical one. -/
def DataType.typeName (type : DataType) : String :=
  type.name.getD type.kind.canonicalName

structure Attribute where
  name : String
  value : Option String := none
deriving DecidableEq

structure Argument where
  name : String
  attributes : List Attribute := []
  dataType : DataType

structure Method where
  name : String
  attributes : List Attribute := []
  returnType : Option DataType := none
  arguments : List Argument := []

structure Interface where
  name : String
  uuid : Uuid
  templateArguments : List String := []
  methods : List Method := []

def Interface.arity (interface : Interface) : Nat := interface.templateArguments.length

structure EnumerationItem where
  name : String
  value : Int32
deriving DecidableEq

/-- The value as the thirty-two bits that hold it. -/
def EnumerationItem.bits (item : EnumerationItem) : UInt32 := item.value.toUInt32

def isSingleBit (bits : UInt32) : Bool :=
  bits != 0 && bits &&& (bits - 1) == 0

structure Enumeration where
  name : String
  items : List EnumerationItem := []
deriving DecidableEq

/-- An enumeration is a flag set if it has at least two items and each is a single bit. -/
def Enumeration.isBitFlag (enumeration : Enumeration) : Bool :=
  decide (2 ≤ enumeration.items.length) && enumeration.items.all fun item => isSingleBit item.bits

structure Category where
  name : String
  uuid : Uuid
deriving DecidableEq

structure Library where
  name : String
  uuid : Uuid
  categories : List Category := []
  enumerations : List Enumeration := []
  interfaces : List Interface := []

structure Document where
  libraries : List Library := []

end IdlBindings.Model
