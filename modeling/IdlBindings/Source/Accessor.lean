import IdlBindings.Source.Shape

/-
This file writes accessors: the functions through which a consumer calls a method by the dispatch
table. Every reference that a call hands over is owned before anything can return early.
-/

namespace IdlBindings.Source

/-- The type parameter that stands for the provider of a carried argument. -/
structure TypeParameter where
  name : String
  bound : String
deriving DecidableEq

def TypeParameter.text (parameter : TypeParameter) : String :=
  parameter.name ++ ":" ++ parameter.bound

/-- The local that receives a result. -/
inductive ResultLocal where
  | scalar (name raw initial : String)
  | object (name raw : String)
deriving DecidableEq

namespace ResultLocal

def ofArgument (context : Context) (argument : Binding.Argument) : ResultLocal :=
  match argument.type with
  | .scalar type => .scalar argument.name (type.rawName context) type.initialValue
  | other => .object argument.name (other.rawName context)

def text : ResultLocal → String
  | scalar name raw initial => "\t\tlet mut " ++ name ++ ":" ++ raw ++ "=" ++ initial ++ ";\n"
  | object name raw => "\t\tlet mut " ++ name ++ ": *mut " ++ raw ++ "=std::ptr::null_mut();\n"

end ResultLocal

/-- An argument in the raw call. -/
inductive RawArgument where
  | carried (name method raw : String)
  | cast (expression : String) (type : RawType)
  | windowId (converter name : String)
  | value (name : String)
deriving DecidableEq

namespace RawArgument

def ofArgument (context : Context) (argument : Binding.Argument) : RawArgument :=
  let name := argument.name
  let raw := argument.type.rawName context
  match argument.type with
  | .carried type => .carried name (type.rawMethod argument.direction) raw
  | .scalar type =>
      if argument.returned then .cast ("&mut " ++ name) (.pointer raw)
      else if argument.isOutput then .cast name (.pointer raw)
      else if type.isWindowId then .windowId (context.supportPath "CapeWindowIdToRaw") name
      else if type.packedName?.isSome then .cast name (.value raw)
      else .value name
  | _ =>
      if argument.isOutput then .cast ("&mut " ++ name) (.pointerToPointer raw)
      else .cast (name ++ ".as_interface_pointer()") (.pointer raw)

def text : RawArgument → String
  | carried name method raw =>
      "(&" ++ name ++ "." ++ method ++ "() as *const " ++ raw ++ ").cast_mut()"
  | cast expression type => expression ++ " as " ++ type.text
  | windowId converter name => converter ++ "(" ++ name ++ ")"
  | value name => name

end RawArgument

/-- The step that takes over the reference a result carries. -/
structure Attachment where
  name : String
  handle : String
deriving DecidableEq

namespace Attachment

def ofArgument? (context : Context) (argument : Binding.Argument) : Option Attachment :=
  match argument.type with
  | .object type => some ⟨argument.name, Identifier.expressionPath (type.handleName context)⟩
  | .parameter _ _ => some ⟨argument.name, context.supportPath "CapeObject"⟩
  | _ => none

def text (attachment : Attachment) : String :=
  "\t\t\t\tlet " ++ attachment.name ++ "=" ++ attachment.handle ++ "::attach(" ++
    attachment.name ++ ");\n"

end Attachment

/-- The step that checks a result and may return early. -/
inductive Conversion where
  | enumeration (name type : String)
  | parameter (name type : String)
deriving DecidableEq

namespace Conversion

def ofArgument? (context : Context) (argument : Binding.Argument) : Option Conversion :=
  match argument.type with
  | .scalar type => type.packedName?.map fun _ => .enumeration argument.name (type.typeName context)
  | .parameter _ name => some (.parameter argument.name name)
  | _ => none

def text : Conversion → String
  | enumeration name type =>
      "\t\t\t\tlet " ++ name ++ "=match " ++ type ++ "::from(" ++ name ++
        ") \x7b\n\t\t\t\t\tSome(_" ++ name ++ ") => _" ++ name ++
        ",\n\t\t\t\t\tNone => \x7breturn Err(COBIAError::Message(\"" ++ invalidEnumeration ++
        "\".to_string()));\x7d\n\t\t\t\t\x7d;\n"
  | parameter name type =>
      "\t\t\t\tlet " ++ name ++ "=match " ++ type ++ "::from_object(&" ++ name ++
        ") \x7b\n\t\t\t\t\tOk(_" ++ name ++ ") => _" ++ name ++
        ",\n\t\t\t\t\tErr(e) => \x7breturn Err(e);\x7d\n\t\t\t\t\x7d;\n"

end Conversion

structure Accessor where
  name : String
  typeParameters : List TypeParameter
  parameters : List Parameter
  resultTypes : List String
  locals : List ResultLocal
  slot : String
  arguments : List RawArgument
  attachments : List Attachment
  conversions : List Conversion
  values : List String

namespace Accessor

def typeParameter? (argument : Binding.Argument) : Option TypeParameter :=
  match argument.type with
  | .carried type =>
      some ⟨Identifier.providerParameter argument.name, type.providerName argument.direction⟩
  | _ => none

def parameterType (context : Context) (argument : Binding.Argument) : ParameterType :=
  match argument.type with
  | .carried _ => lent argument (Identifier.providerParameter argument.name)
  | .scalar type => scalarParameterType context argument type
  | other => .shared (handleType context other)

def ofMethod (context : Context) (method : Binding.Method) : Accessor where
  name := method.operation
  typeParameters := method.parameters.filterMap typeParameter?
  parameters := method.parameters.map fun argument =>
    ⟨argument.name, parameterType context argument⟩
  resultTypes := method.results.map (resultType context)
  locals := method.results.map (ResultLocal.ofArgument context)
  slot := method.slot
  arguments := method.arguments.map (RawArgument.ofArgument context)
  attachments := method.results.filterMap (Attachment.ofArgument? context)
  conversions := method.results.filterMap (Conversion.ofArgument? context)
  values := method.results.map Binding.Argument.name

def successText (accessor : Accessor) : String :=
  let steps := String.join (accessor.attachments.map Attachment.text) ++
    String.join (accessor.conversions.map Conversion.text)
  if accessor.attachments.isEmpty && accessor.conversions.isEmpty then
    "\t\t\t" ++ noError ++ " => Ok(" ++ tuple accessor.values ++ "),\n"
  else
    "\t\t\t" ++ noError ++ " => \x7b\n" ++ steps ++ "\t\t\t\tOk(" ++ tuple accessor.values ++
      ")\n\t\t\t\x7d,\n"

def text (accessor : Accessor) : String :=
  "\tpub fn " ++ accessor.name ++ bracketed (accessor.typeParameters.map TypeParameter.text) ++
    "(&self" ++ String.join (accessor.parameters.map Parameter.text) ++ ") -> Result<" ++
    tuple accessor.resultTypes ++ ",COBIAError> \x7b\n" ++
    String.join (accessor.locals.map ResultLocal.text) ++
    "\t\tlet result_code = unsafe \x7b\n\t\t\t((*(*self.interface).vTbl)." ++ accessor.slot ++
    ".unwrap())((*self.interface).me" ++
    String.join (accessor.arguments.map fun argument => "," ++ argument.text) ++
    ")\n\t\t\x7d;\n\t\tmatch result_code \x7b\n" ++ accessor.successText ++
    "\t\t\t_ => Err(COBIAError::from_object(result_code,self))\n\t\t\x7d\n\t\x7d\n\n"

end Accessor

end IdlBindings.Source
