import IdlBindings.Json.Value
import IdlBindings.Model

/-
This file encodes the model as a JSON value. Every member is written, also one at its default.
-/

namespace IdlBindings.Model

def optionalText : Option String → Json
  | some text => .string text
  | none => .null

mutual

def DataType.toJson : DataType → Json
  | ⟨kind, name, templateIndex, templateTypes⟩ =>
      .object [("kind", .string kind.word), ("name", optionalText name),
        ("template-index",
          match templateIndex with
          | some index => .integer index.toNat
          | none => .null),
        ("template-types", .array (DataType.listToJson templateTypes))]

def DataType.listToJson : List DataType → List Json
  | [] => []
  | type :: rest => type.toJson :: DataType.listToJson rest

end

def Attribute.toJson (entry : Attribute) : Json :=
  .object [("name", .string entry.name), ("value", optionalText entry.value)]

def Argument.toJson (argument : Argument) : Json :=
  .object [("name", .string argument.name),
    ("attributes", .array (argument.attributes.map Attribute.toJson)),
    ("data-type", argument.dataType.toJson)]

def Method.toJson (method : Method) : Json :=
  .object [("name", .string method.name),
    ("attributes", .array (method.attributes.map Attribute.toJson)),
    ("return-type",
      match method.returnType with
      | some type => type.toJson
      | none => .null),
    ("arguments", .array (method.arguments.map Argument.toJson))]

def Interface.toJson (interface : Interface) : Json :=
  .object [("name", .string interface.name), ("uuid", .string interface.uuid.text),
    ("template-args", .array (interface.templateArguments.map Json.string)),
    ("methods", .array (interface.methods.map Method.toJson))]

def EnumerationItem.toJson (item : EnumerationItem) : Json :=
  .object [("name", .string item.name), ("value", .integer item.value.toInt)]

def Enumeration.toJson (enumeration : Enumeration) : Json :=
  .object [("name", .string enumeration.name),
    ("items", .array (enumeration.items.map EnumerationItem.toJson))]

def Category.toJson (category : Category) : Json :=
  .object [("name", .string category.name), ("uuid", .string category.uuid.text)]

def Library.toJson (library : Library) : Json :=
  .object [("name", .string library.name), ("uuid", .string library.uuid.text),
    ("category-ids", .array (library.categories.map Category.toJson)),
    ("enumerations", .array (library.enumerations.map Enumeration.toJson)),
    ("interfaces", .array (library.interfaces.map Interface.toJson))]

def Document.toJson (document : Document) : Json :=
  .object [("libraries", .array (document.libraries.map Library.toJson))]

end IdlBindings.Model
