import IdlBindings.Binding.Basic

/-
This file holds the forms that several parts of the generated source share.
-/

namespace IdlBindings.Source

def noError : String := "COBIAERR_NOERROR"

def nullPointer : String := "COBIAERR_NULLPOINTER"

def invalidEnumeration : String := "Invalid enumeration value"

/-- One value stands alone; any other number of values is a tuple. -/
def tuple (values : List String) : String :=
  match values with
  | [value] => value
  | _ => "(" ++ String.intercalate "," values ++ ")"

/-- The pattern that takes a tuple apart; nothing is bound by the empty one. -/
def tuplePattern (names : List String) : String :=
  match names with
  | [] => "_"
  | _ => tuple names

/-- The type of an argument at the boundary. -/
inductive RawType where
  | value (name : String)
  | pointer (name : String)
  | pointerToPointer (name : String)
deriving DecidableEq

def RawType.text : RawType → String
  | value name => name
  | pointer name => "*mut " ++ name
  | pointerToPointer name => "*mut *mut " ++ name

/-- The type of a parameter by the way it is handed over. -/
inductive ParameterType where
  | value (name : String)
  | shared (name : String)
  | exclusive (name : String)
deriving DecidableEq

def ParameterType.text : ParameterType → String
  | value name => name
  | shared name => "&" ++ name
  | exclusive name => "&mut " ++ name

structure Parameter where
  name : String
  type : ParameterType
deriving DecidableEq

def Parameter.text (parameter : Parameter) : String :=
  "," ++ parameter.name ++ ":" ++ parameter.type.text

/-- The type under which an argument without a scalar or carried value is held. -/
def handleType (context : Context) (type : ArgumentType) : String :=
  (type.handleName? context).getD (type.rawName context)

/-- The type that a result has for both sides of a call. -/
def resultType (context : Context) (argument : Binding.Argument) : String :=
  match argument.type with
  | .scalar type => type.typeName context
  | other => handleType context other

/-- An output scalar that is not a result is written through a slot of the caller, and so keeps
its raw type. -/
def scalarParameterType (context : Context) (argument : Binding.Argument) (type : ScalarType) :
    ParameterType :=
  if argument.isOutput then .exclusive (type.rawName context) else .value (type.typeName context)

/-- A value that is lent is lent for writing if it is an output. -/
def lent (argument : Binding.Argument) (name : String) : ParameterType :=
  if argument.isOutput then .exclusive name else .shared name

end IdlBindings.Source
