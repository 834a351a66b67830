import IdlBindings.ScopedName

/-
This file holds the resolved type of an argument and every name that generated code uses for it.
-/

namespace IdlBindings

inductive Direction where
  | input
  | output
deriving DecidableEq

namespace Direction

def word : Direction → String
  | input => "in"
  | output => "out"

def suffix : Direction → String
  | input => "In"
  | output => "Out"

end Direction

inductive EnumerationReference where
  | generic
  | named (name : ScopedName)
deriving DecidableEq

namespace EnumerationReference

def displayName (context : Context) : EnumerationReference → String
  | generic => context.supportPath "CapeEnumeration"
  | named name => name.displayName context

def rawName (context : Context) : EnumerationReference → String
  | generic => context.supportRaw "CapeEnumeration"
  | named name => name.rawName context

def foreignSpaces : EnumerationReference → List String
  | generic => []
  | named name => name.foreignSpace?.toList

end EnumerationReference

/-- A value that is passed as it is, or through a pointer when it is an output. -/
inductive ScalarType where
  | boolean
  | integer
  | real
  | result
  | uuid
  | enumeration (reference : EnumerationReference)
  | windowId
deriving DecidableEq

namespace ScalarType

def supportName : ScalarType → String
  | boolean => "CapeBoolean"
  | integer => "CapeInteger"
  | real => "CapeReal"
  | result => "CapeResult"
  | uuid => "CapeUUID"
  | enumeration _ => "CapeEnumeration"
  | windowId => "CapeWindowId"

/-- The type as the two sides of a call see it. -/
def typeName (context : Context) : ScalarType → String
  | enumeration reference => reference.displayName context
  | other => other.supportName

/-- The type as it crosses the boundary. -/
def rawName (context : Context) : ScalarType → String
  | enumeration reference => reference.rawName context
  | windowId => context.supportRaw "CapeWindowId"
  | other => other.supportName

/-- A window identifier is never an output and so has no initial value. -/
def initialValue? : ScalarType → Option String
  | boolean => some "false as CapeBoolean"
  | integer => some "0"
  | enumeration _ => some "0"
  | real => some "0.0"
  | result => some "COBIAERR_NOERROR"
  | uuid => some "CapeUUID::null()"
  | windowId => none

def initialValue (type : ScalarType) : String :=
  type.initialValue?.getD "Default::default()"

/-- A named enumeration crosses the boundary as its raw integer. -/
def packedName? : ScalarType → Option ScopedName
  | enumeration (.named name) => some name
  | _ => none

/-- What has to follow a value to make it raw. -/
def rawConversion (context : Context) (type : ScalarType) : String :=
  match type.packedName? with
  | some name => " as " ++ name.rawName context
  | none => ""

def isWindowId : ScalarType → Bool
  | windowId => true
  | _ => false

end ScalarType

/-- A value that is carried across the boundary by an interface of its own. -/
inductive CarriedType where
  | string
  | arrayString
  | value
  | arrayInteger
  | arrayBoolean
  | arrayReal
  | arrayValue
  | arrayByte
  | arrayEnumeration (element : EnumerationReference)
deriving DecidableEq

namespace CarriedType

def supportName : CarriedType → String
  | string => "CapeString"
  | arrayString => "CapeArrayString"
  | value => "CapeValue"
  | arrayInteger => "CapeArrayInteger"
  | arrayBoolean => "CapeArrayBoolean"
  | arrayReal => "CapeArrayReal"
  | arrayValue => "CapeArrayValue"
  | arrayByte => "CapeArrayByte"
  | arrayEnumeration _ => "CapeArrayEnumeration"

def rawName (context : Context) (type : CarriedType) : String :=
  context.supportRaw ("I" ++ type.supportName)

/-- The view through which the provider sees the value. -/
def viewName (context : Context) (direction : Direction) : CarriedType → String
  | arrayEnumeration element =>
      "CapeArrayEnumeration" ++ direction.suffix ++ "<" ++ element.displayName context ++ ">"
  | other => other.supportName ++ direction.suffix

/-- The capability that a consumer's argument has to offer. -/
def providerName (direction : Direction) (type : CarriedType) : String :=
  type.supportName ++ "Provider" ++ direction.suffix

/-- The method of a provider that yields the raw view. -/
def rawMethod (direction : Direction) (type : CarriedType) : String :=
  "as_" ++ Identifier.snakeCase type.supportName ++ "_" ++ direction.word

end CarriedType

inductive ObjectInterface where
  | base
  | named (name : ScopedName)
deriving DecidableEq

/-- What fills one place of a generic interface. -/
inductive TemplateArgument where
  | parameter (name : String)
  | object (interface : ObjectInterface) (arguments : List TemplateArgument)

structure ObjectType where
  interface : ObjectInterface
  arguments : List TemplateArgument

/-- A list of type arguments between brackets, and nothing for no arguments. -/
def bracketed (arguments : List String) : String :=
  if arguments.isEmpty then "" else "<" ++ String.intercalate "," arguments ++ ">"

namespace ObjectInterface

def rawName (context : Context) : ObjectInterface → String
  | base => context.supportRaw "ICapeInterface"
  | named name => name.rawName context

/-- The handle of an interface whose places are filled by the given types. -/
def handleName (context : Context) (arguments : List String) : ObjectInterface → String
  | base => context.supportPath "CapeObject"
  | named name => name.handleName context ++ bracketed arguments

def displayName (context : Context) (arguments : List String) : ObjectInterface → String
  | base => context.supportRaw "ICapeInterface"
  | named name => name.displayName context ++ bracketed arguments

def foreignSpaces : ObjectInterface → List String
  | base => []
  | named name => name.foreignSpace?.toList

end ObjectInterface

namespace TemplateArgument

mutual

def handleName (context : Context) : TemplateArgument → String
  | parameter name => name
  | object interface arguments => interface.handleName context (handleNames context arguments)

def handleNames (context : Context) : List TemplateArgument → List String
  | [] => []
  | argument :: rest => argument.handleName context :: handleNames context rest

end

mutual

def displayName (context : Context) : TemplateArgument → String
  | parameter name => name
  | object interface arguments => interface.displayName context (displayNames context arguments)

def displayNames (context : Context) : List TemplateArgument → List String
  | [] => []
  | argument :: rest => argument.displayName context :: displayNames context rest

end

mutual

def foreignSpaces : TemplateArgument → List String
  | parameter _ => []
  | object interface arguments => interface.foreignSpaces ++ foreignSpacesOf arguments

def foreignSpacesOf : List TemplateArgument → List String
  | [] => []
  | argument :: rest => argument.foreignSpaces ++ foreignSpacesOf rest

end

end TemplateArgument

namespace ObjectType

/-- All instances of a generic interface share one raw declaration. -/
def rawName (context : Context) (type : ObjectType) : String :=
  type.interface.rawName context

def handleName (context : Context) (type : ObjectType) : String :=
  type.interface.handleName context (TemplateArgument.handleNames context type.arguments)

def displayName (context : Context) (type : ObjectType) : String :=
  type.interface.displayName context (TemplateArgument.displayNames context type.arguments)

def foreignSpaces (type : ObjectType) : List String :=
  type.interface.foreignSpaces ++ TemplateArgument.foreignSpacesOf type.arguments

end ObjectType

inductive ArgumentType where
  | scalar (type : ScalarType)
  | carried (type : CarriedType)
  | object (type : ObjectType)
  | parameter (index : Nat) (name : String)

namespace ArgumentType

def category : ArgumentType → String
  | scalar _ => "basic"
  | carried _ => "data-interface"
  | object _ => "object-interface"
  | parameter _ _ => "template-argument"

def rawName (context : Context) : ArgumentType → String
  | scalar type => type.rawName context
  | carried type => type.rawName context
  | object type => type.rawName context
  | parameter _ _ => context.supportRaw "ICapeInterface"

/-- Objects, and parameters that stand for objects, are held by a handle. -/
def handleName? (context : Context) : ArgumentType → Option String
  | object type => some (type.handleName context)
  | parameter _ name => some name
  | _ => none

def isObject : ArgumentType → Bool
  | object _ => true
  | parameter _ _ => true
  | _ => false

/-- The foreign namespaces of every name in the type, in the order of the names. -/
def foreignSpaces : ArgumentType → List String
  | scalar (.enumeration reference) => reference.foreignSpaces
  | carried (.arrayEnumeration element) => element.foreignSpaces
  | object type => type.foreignSpaces
  | _ => []

end ArgumentType

end IdlBindings
