import IdlBindings.Binding.Basic
import IdlBindings.Json.Value

/-
This file writes a binding as a JSON value that loses nothing of it.
-/

namespace IdlBindings

/-- A constructor with content is an object of one member. -/
def Json.tagged (tag : String) (content : Json) : Json := .object [(tag, content)]

def Json.texts (values : List String) : Json := .array (values.map .string)

def Origin.toJson : Origin → Json
  | .own => .string "local"
  | .wellKnown space aliasName =>
      .tagged "well-known" (.object [("namespace", .string space), ("alias", .string aliasName)])
  | .foreign space => .tagged "foreign" (.object [("namespace", .string space)])

def ScopedName.toJson (resolved : ScopedName) : Json :=
  .object [("origin", resolved.origin.toJson), ("name", .string resolved.name)]

def EnumerationReference.toJson : EnumerationReference → Json
  | .generic => .string "generic"
  | .named name => .tagged "named" name.toJson

def ScalarType.toJson : ScalarType → Json
  | .boolean => .string "boolean"
  | .integer => .string "integer"
  | .real => .string "real"
  | .result => .string "result"
  | .uuid => .string "uuid"
  | .enumeration reference => .tagged "enumeration" reference.toJson
  | .windowId => .string "window-id"

def CarriedType.toJson : CarriedType → Json
  | .string => .string "string"
  | .arrayString => .string "array-string"
  | .value => .string "value"
  | .arrayInteger => .string "array-integer"
  | .arrayBoolean => .string "array-boolean"
  | .arrayReal => .string "array-real"
  | .arrayValue => .string "array-value"
  | .arrayByte => .string "array-byte"
  | .arrayEnumeration element => .tagged "array-enumeration" element.toJson

def ObjectInterface.toJson : ObjectInterface → Json
  | .base => .string "base"
  | .named name => .tagged "named" name.toJson

mutual

def TemplateArgument.toJson : TemplateArgument → Json
  | .parameter name => .tagged "parameter" (.string name)
  | .object interface arguments =>
      .tagged "object" (.object [("interface", interface.toJson),
        ("template_args", .array (TemplateArgument.listToJson arguments))])

def TemplateArgument.listToJson : List TemplateArgument → List Json
  | [] => []
  | argument :: rest => argument.toJson :: TemplateArgument.listToJson rest

end

def ObjectType.toJson (type : ObjectType) : Json :=
  .object [("interface", type.interface.toJson),
    ("template_args", .array (TemplateArgument.listToJson type.arguments))]

def ArgumentType.toJson : ArgumentType → Json
  | .scalar type => .tagged "basic" type.toJson
  | .carried type => .tagged "data" type.toJson
  | .object type => .tagged "object" type.toJson
  | .parameter index name =>
      .tagged "template-argument" (.object [("index", .integer index), ("name", .string name)])

namespace Binding

def EnumerationKind.word : EnumerationKind → String
  | .plain => "plain"
  | .bitFlags => "bit-flags"

def EnumerationItem.toJson (item : EnumerationItem) : Json :=
  .object [("idl_name", .string item.declaredName), ("name", .string item.name),
    ("value", .integer item.value.toInt)]

def Enumeration.toJson (enumeration : Enumeration) : Json :=
  .object [("name", .string enumeration.name), ("kind", .string enumeration.kind.word),
    ("items", .array (enumeration.items.map EnumerationItem.toJson))]

def Argument.toJson (argument : Argument) : Json :=
  .object [("idl_name", .string argument.declaredName), ("name", .string argument.name),
    ("direction", .string argument.direction.word), ("retval", .boolean argument.returned),
    ("descriptor", argument.type.toJson)]

def Method.toJson (method : Method) : Json :=
  .object [("idl_name", .string method.declaredName),
    ("adjusted_name", .string method.adjustedName), ("rust_name", .string method.operation),
    ("raw_slot", .string method.slot), ("native_symbol", .string method.symbol),
    ("arguments", .array (method.arguments.map Argument.toJson))]

def Interface.toJson (interface : Interface) : Json :=
  .object [("name", .string interface.name), ("uuid", .string interface.uuid.text),
    ("smart_name", .string interface.handle),
    ("template_args", .texts interface.templateArguments),
    ("methods", .array (interface.methods.map Method.toJson))]

def Library.categoryToJson (category : Model.Category) : Json :=
  .object [("name", .string category.name), ("uuid", .string category.uuid.text)]

def Library.toJson (library : Library) : Json :=
  .object [("name", .string library.name), ("uuid", .string library.uuid.text),
    ("categories", .array (library.categories.map categoryToJson)),
    ("enumerations", .array (library.enumerations.map Enumeration.toJson)),
    ("interfaces", .array (library.interfaces.map Interface.toJson)),
    ("foreign_namespaces", .texts library.foreignSpaces)]

end Binding

end IdlBindings
