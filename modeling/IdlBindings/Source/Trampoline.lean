import IdlBindings.Source.Shape

/-
This file writes trampolines: the functions through which a raw call reaches a provider. A
trampoline refuses null pointers, prepares its arguments, makes the call, and stores the results
only if the call succeeds.
-/

namespace IdlBindings.Source

structure RawParameter where
  name : String
  type : RawType
deriving DecidableEq

def RawParameter.text (parameter : RawParameter) : String :=
  "," ++ parameter.name ++ ":" ++ parameter.type.text

/-- A step that makes the form of one argument that the provider expects. -/
inductive Preparation where
  | inputView (name view : String)
  | outputView (name view raw : String)
  | handle (name type : String)
  | parameter (name type object : String)
  | storage (name raw initial : String)
  | enumeration (name type : String)
deriving DecidableEq

namespace Preparation

def ofArgument? (context : Context) (argument : Binding.Argument) : Option Preparation :=
  match argument.type with
  | .carried type =>
      let view := Identifier.expressionPath (type.viewName context argument.direction)
      if argument.isOutput then some (.outputView argument.name view (type.rawName context))
      else some (.inputView argument.name view)
  | .object type =>
      if argument.isOutput then none
      else some (.handle argument.name (Identifier.expressionPath (type.handleName context)))
  | .parameter _ name =>
      if argument.isOutput then none
      else some (.parameter argument.name name (context.supportPath "CapeObject"))
  | .scalar type =>
      if argument.isResult then none
      else if argument.isOutput then
        some (.storage argument.name (type.rawName context) type.initialValue)
      else type.packedName?.map fun _ => .enumeration argument.name (type.typeName context)

def text (label : String) : Preparation → String
  | inputView name view => "\t\tlet " ++ name ++ "=" ++ view ++ "::new(&" ++ name ++ ");\n"
  | outputView name view raw =>
      "\t\tlet mut " ++ name ++ "=unsafe\x7b*((&" ++ name ++ " as *const *mut " ++ raw ++
        ") as *mut *mut " ++ raw ++ ")\x7d;\n\t\tlet mut " ++ name ++ "=" ++ view ++
        "::new(&mut " ++ name ++ ");\n"
  | handle name type =>
      "\t\tlet " ++ name ++ "=" ++ type ++ "::from_interface_pointer(" ++ name ++ ");\n"
  | parameter name type object =>
      "\t\tlet " ++ name ++ "=match " ++ type ++ "::from_object(&" ++ object ++
        "::from_interface_pointer(" ++ name ++ ")) \x7b\n\t\t\tOk(_" ++ name ++ ") => _" ++ name ++
        ",\n\t\t\tErr(e) => \x7breturn myself.set_last_error(e,\"" ++ label ++
        "\");\x7d\n\t\t\x7d;\n"
  | storage name raw initial =>
      "\t\tlet mut _" ++ name ++ ":" ++ raw ++ "=" ++ initial ++ ";\n"
  | enumeration name type =>
      "\t\tlet " ++ name ++ "=match " ++ type ++ "::from(" ++ name ++ ") \x7b\n\t\t\tSome(_" ++
        name ++ ") => _" ++ name ++
        ",\n\t\t\tNone => \x7breturn myself.set_last_error(COBIAError::Message(\"" ++
        invalidEnumeration ++ "\".to_string()),\"" ++ label ++ "\");\x7d\n\t\t\x7d;\n"

end Preparation

/-- An argument in the call to the provider. -/
inductive CallArgument where
  | storage (name : String)
  | windowId (converter name : String)
  | exclusive (name : String)
  | shared (name : String)
  | value (name : String)
deriving DecidableEq

namespace CallArgument

def ofArgument (context : Context) (argument : Binding.Argument) : CallArgument :=
  match argument.type with
  | .scalar type =>
      if argument.isOutput then .storage argument.name
      else if type.isWindowId then
        .windowId (context.supportPath "CapeWindowIdFromRaw") argument.name
      else .value argument.name
  | .carried _ => if argument.isOutput then .exclusive argument.name else .shared argument.name
  | _ => .value argument.name

def text : CallArgument → String
  | storage name => "&mut _" ++ name
  | windowId converter name => converter ++ "(" ++ name ++ ")"
  | exclusive name => "&mut " ++ name
  | shared name => "&" ++ name
  | value name => name

end CallArgument

/-- The write of a result to where the caller wants it. -/
structure Store where
  name : String
  conversion : String
deriving DecidableEq

namespace Store

/-- What has to follow a result to make it raw. -/
def conversionOf (context : Context) (type : ArgumentType) : String :=
  match type with
  | .scalar scalar => scalar.rawConversion context
  | .object _ => ".detach()"
  | .parameter _ _ => ".detach() as *mut " ++ context.supportRaw "ICapeInterface"
  | .carried _ => ""

def text (store : Store) : String :=
  "\t\t\t\tunsafe\x7b*" ++ store.name ++ "=_" ++ store.name ++ store.conversion ++ ";\x7d\n"

end Store

structure Trampoline where
  symbol : String
  parameters : List RawParameter
  status : String
  guarded : List String
  preparations : List Preparation
  operation : String
  arguments : List CallArgument
  bindings : List String
  stores : List Store
  label : String

namespace Trampoline

def rawType (context : Context) (argument : Binding.Argument) : RawType :=
  let raw := argument.type.rawName context
  match argument.type with
  | .scalar _ => if argument.isOutput then .pointer raw else .value raw
  | .carried _ => .pointer raw
  | _ => if argument.isOutput then .pointerToPointer raw else .pointer raw

def isGuarded (argument : Binding.Argument) : Bool :=
  argument.isOutput || argument.type.isObject

/-- A scalar that the provider writes into local storage. -/
def isStored (argument : Binding.Argument) : Bool :=
  match argument.type with
  | .scalar _ => argument.isOutput
  | _ => false

def ofMethod (context : Context) (interface : Binding.Interface) (method : Binding.Method) :
    Trampoline where
  symbol := method.symbol
  parameters := method.arguments.map fun argument => ⟨argument.name, rawType context argument⟩
  status := context.supportRaw "CapeResult"
  guarded := (method.arguments.filter isGuarded).map Binding.Argument.name
  preparations := method.arguments.filterMap (Preparation.ofArgument? context)
  operation := method.operation
  arguments := method.parameters.map (CallArgument.ofArgument context)
  bindings := method.results.map fun argument => "_" ++ argument.name
  stores :=
    ((method.parameters.filter isStored).map fun argument => ⟨argument.name, ""⟩) ++
      method.results.map fun argument =>
        ⟨argument.name, Store.conversionOf context argument.type⟩
  label := interface.errorContext method

def guardText (indent : String) (names : List String) : String :=
  if names.isEmpty then ""
  else
    indent ++ "if " ++ String.intercalate "||" (names.map fun name => name ++ ".is_null()") ++
      " \x7b\n" ++ indent ++ "\treturn " ++ nullPointer ++ ";\n" ++ indent ++ "\x7d\n"

def successText (trampoline : Trampoline) : String :=
  if trampoline.stores.isEmpty then "\t\t\tOk(_) => " ++ noError ++ ",\n"
  else
    "\t\t\tOk(" ++ tuplePattern trampoline.bindings ++ ") => \x7b\n" ++
      String.join (trampoline.stores.map Store.text) ++ "\t\t\t\t" ++ noError ++ "\n\t\t\t\x7d,\n"

def text (trampoline : Trampoline) : String :=
  "\textern \"C\" fn " ++ trampoline.symbol ++ "(me: *mut std::ffi::c_void" ++
    String.join (trampoline.parameters.map RawParameter.text) ++ ") -> " ++ trampoline.status ++
    " \x7b\n" ++ guardText "\t\t" trampoline.guarded ++
    "\t\tlet p = me as *mut Self::T;\n\t\tlet myself=unsafe \x7b &mut *p \x7d;\n" ++
    String.join (trampoline.preparations.map (Preparation.text trampoline.label)) ++
    "\t\tmatch myself." ++ trampoline.operation ++ "(" ++
    String.intercalate "," (trampoline.arguments.map CallArgument.text) ++ ") \x7b\n" ++
    trampoline.successText ++ "\t\t\tErr(e) => myself.set_last_error(e,\"" ++ trampoline.label ++
    "\")\n\t\t\x7d\n\t\x7d\n\n"

end Trampoline

end IdlBindings.Source
