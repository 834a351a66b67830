import IdlBindings.ArgumentType
import IdlBindings.Model

/-
This file holds the binding of a library: its declarations with every name and type resolved.
-/

namespace IdlBindings.Binding

inductive EnumerationKind where
  | plain
  | bitFlags
deriving DecidableEq

structure EnumerationItem where
  declaredName : String
  name : String
  value : Int32
deriving DecidableEq

structure Enumeration where
  name : String
  kind : EnumerationKind
  items : List EnumerationItem
deriving DecidableEq

structure Argument where
  declaredName : String
  name : String
  direction : Direction
  returned : Bool
  type : ArgumentType

namespace Argument

def isOutput (argument : Argument) : Bool := argument.direction == .output

/-- A returned scalar and every output object are part of the result of a call. -/
def isResult (argument : Argument) : Bool :=
  match argument.type with
  | .scalar _ => argument.returned
  | .carried _ => false
  | .object _ | .parameter _ _ => argument.isOutput

end Argument

/-- The adjusted name is the declared one after the naming attributes. From it come the name of
the operation and the symbol of its entry point; the slot is the field of the dispatch table. -/
structure Method where
  declaredName : String
  adjustedName : String
  operation : String
  slot : String
  symbol : String
  arguments : List Argument

namespace Method

def results (method : Method) : List Argument := method.arguments.filter Argument.isResult

def parameters (method : Method) : List Argument :=
  method.arguments.filter fun argument => !argument.isResult

end Method

structure Interface where
  name : String
  uuid : Uuid
  handle : String
  templateArguments : List String
  methods : List Method

namespace Interface

def isGeneric (interface : Interface) : Bool := !interface.templateArguments.isEmpty

/-- The template arguments with the bound that each has to meet. -/
def genericParameters (interface : Interface) : String :=
  bracketed (interface.templateArguments.map fun argument => argument ++ ":CapeSmartPointer")

def genericArguments (interface : Interface) : String := bracketed interface.templateArguments

def uuidConstant (interface : Interface) : String := Identifier.upperCase interface.name ++ "_UUID"

/-- The label under which a failing method is recorded. -/
def errorContext (interface : Interface) (method : Method) : String :=
  interface.name ++ "::" ++ method.adjustedName

end Interface

structure Library where
  name : String
  uuid : Uuid
  categories : List Model.Category
  enumerations : List Enumeration
  interfaces : List Interface
  foreignSpaces : List String

namespace Library

def hasGenericInterfaces (library : Library) : Bool := library.interfaces.any Interface.isGeneric

def hasBitFlags (library : Library) : Bool :=
  library.enumerations.any fun enumeration => enumeration.kind == .bitFlags

end Library

end IdlBindings.Binding
