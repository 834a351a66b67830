import IdlBindings.Binding.OfModel
import IdlBindings.Proofs.DeclaredType

/-
This file lists every violation of the rules for a model, in the order of the declarations. A
violation never hides another, so that the list shows more than a build can report.
-/

namespace IdlBindings

/-- Each entry with all the entries before it. -/
def precededFrom {α : Type} (earlier : List α) : List α → List (List α × α)
  | [] => []
  | entry :: rest => (earlier, entry) :: precededFrom (earlier ++ [entry]) rest

/-- Every entry with the entries before it. -/
def preceded {α : Type} (entries : List α) : List (List α × α) := precededFrom [] entries

/-- The entries whose key an earlier entry has too. -/
def repeated {α β : Type} [DecidableEq β] (key : α → β) (entries : List α) : List α :=
  ((preceded entries).filter fun placed => key placed.2 ∈ placed.1.map key).map Prod.snd

namespace Model

/-- The name of an item in generated code. -/
def EnumerationItem.boundName (item : EnumerationItem) : String :=
  Identifier.escape (Identifier.camelCase item.name)

/-- All that is wrong with an enumeration. -/
def Enumeration.violations (enumeration : Enumeration) : List BuildFault :=
  (if enumeration.items = [] then [.emptyEnumeration enumeration.name] else []) ++
    (if enumeration.isBitFlag then []
      else (repeated EnumerationItem.value enumeration.items).map fun item =>
        .repeatedValue enumeration.name item.value) ++
    (repeated EnumerationItem.boundName enumeration.items).map fun item =>
      .repeatedItem enumeration.name item.boundName

/-- The attributes that name a method. -/
def namingWords : List String := ["property_get", "property_set", "long_name"]

/-- The attribute decides the name of its method. -/
def Attribute.isNaming (entry : Attribute) : Bool := namingWords.contains entry.name

/-- What one attribute of a method violates, given the attributes before it. -/
def Method.attributeViolations (interface : String) (method : Method)
    (earlier : List Attribute) (entry : Attribute) : List BuildFault :=
  (if entry.isNaming then [] else [.unknownMethodAttribute interface method.name entry.name]) ++
    (if entry.name = "long_name" ∧ entry.value = none then
      [.longNameWithoutValue interface method.name] else []) ++
    (if entry.isNaming ∧ earlier.any Attribute.isNaming then
      [.conflictingNames interface method.name] else [])

/-- All that is wrong with the naming of a method. -/
def Method.namingViolations (interface : String) (method : Method) : List BuildFault :=
  (preceded method.attributes).flatMap fun placed =>
    method.attributeViolations interface placed.1 placed.2

/-- The name of a method once its naming attribute is taken into account. -/
def Method.adjustedName (method : Method) : String :=
  match method.attributes.find? Attribute.isNaming with
  | none => method.name
  | some naming =>
      if naming.name = "property_get" then "Get" ++ method.name
      else if naming.name = "property_set" then "Set" ++ method.name
      else naming.value.getD method.name

/-- The attributes that an argument may have. -/
def flagWords : List String := ["in", "out", "retval", "orphan"]

/-- The argument has an attribute of the word. -/
def Argument.has (argument : Argument) (word : String) : Bool :=
  argument.attributes.any fun entry => entry.name == word

/-- The direction that the attributes of an argument ask for. -/
def Argument.direction (argument : Argument) : Direction :=
  if argument.has "out" then .output else .input

end Model

namespace Scope

variable (scope : Scope) (owner : Model.Interface)

/-- What a reference to an interface violates if it has the given number of arguments. -/
def referenceViolations (declared : String) (found : Nat) : List TypeFault :=
  match scope.arityOf? (scope.referred declared) with
  | none => [.unresolvedInterface declared]
  | some expected =>
      if expected = found then [] else [.templateCount declared expected found]

/-- All that is wrong with a template parameter. -/
def parameterViolations (type : Model.DataType) : List TypeFault :=
  (if type.templateTypes = [] then [] else [.nestedTemplate]) ++
    match type.templateIndex with
    | none => [.templateIndex none]
    | some index =>
        if index.toNat < owner.templateArguments.length then [] else [.templateIndex (some index)]

mutual

/-- What a type violates that fills a place: a reference comes before what fills it in turn. -/
def placeViolations : Model.DataType → List TypeFault
  | ⟨.templateArgument, name, index, types⟩ =>
      parameterViolations owner ⟨.templateArgument, name, index, types⟩
  | ⟨.interface, name, _, types⟩ =>
      scope.referenceViolations (name.getD Model.Kind.interface.canonicalName) types.length ++
        placesViolations types
  | type => [.invalidTemplateArgument type.typeName]

/-- All that is wrong with template arguments, one after the other. -/
def placesViolations : List Model.DataType → List TypeFault
  | [] => []
  | type :: rest => placeViolations type ++ placesViolations rest

end

/-- The violations of template arguments are those of each of them. -/
theorem placesViolations_eq_flatMap (types : List Model.DataType) :
    scope.placesViolations owner types = types.flatMap (scope.placeViolations owner) := by
  induction types with
  | nil => rw [placesViolations, List.flatMap_nil]
  | cons type rest ih => rw [placesViolations, List.flatMap_cons, ih]

/-- A template argument can be wrong as a parameter only. -/
theorem placeViolations_of_templateArgument {type : Model.DataType}
    (kind : type.kind = .templateArgument) :
    scope.placeViolations owner type = parameterViolations owner type := by
  obtain ⟨_, name, index, types⟩ := type
  subst kind
  rw [placeViolations]

/-- An interface can be wrong as a reference, and then in what fills it. -/
theorem placeViolations_of_interface {type : Model.DataType} (kind : type.kind = .interface) :
    scope.placeViolations owner type =
      scope.referenceViolations type.typeName type.templateTypes.length ++
        type.templateTypes.flatMap (scope.placeViolations owner) := by
  obtain ⟨_, name, index, types⟩ := type
  subst kind
  rw [placeViolations, placesViolations_eq_flatMap]
  rfl

/-- Any other template argument is wrong as such. -/
theorem placeViolations_of_other {type : Model.DataType}
    (notParameter : type.kind ≠ .templateArgument) (notInterface : type.kind ≠ .interface) :
    scope.placeViolations owner type = [.invalidTemplateArgument type.typeName] := by
  obtain ⟨kind, name, index, types⟩ := type
  cases kind with
  | templateArgument => exact absurd rfl notParameter
  | interface => exact absurd rfl notInterface
  | _ => rw [placeViolations] <;> simp

/-- All that is wrong with the elements of an array. -/
def elementViolations : List Model.DataType → List TypeFault
  | [element] => if element.kind = .enumeration then [] else [.elementKind element.typeName]
  | types => [.elementCount types.length]

/-- All that is wrong with the type of an argument. -/
def typeViolations (direction : Direction) (type : Model.DataType) : List TypeFault :=
  match type.kind with
  | .windowId => if direction = .output then [.windowIdOut] else []
  | .arrayEnumeration => elementViolations type.templateTypes
  | .interface | .templateArgument => scope.placeViolations owner type
  | .invalid => [.invalidType type.typeName]
  | _ => []

/-- All that is wrong with an argument, its attributes first. -/
def argumentViolations (argument : Model.Argument) : List TypeFault :=
  ((argument.attributes.filter fun entry => !Model.flagWords.contains entry.name).map fun entry =>
      .unknownAttribute entry.name) ++
    (if argument.has "in" = argument.has "out" then [.direction] else []) ++
    (if argument.has "retval" ∧ ¬ argument.has "out" then [.returnWithoutOut] else []) ++
    scope.typeViolations owner argument.direction argument.dataType

/-- All that is wrong with a method, its naming first. -/
def methodViolations (method : Model.Method) : List BuildFault :=
  method.namingViolations owner.name ++
    (if method.returnType.map Model.DataType.kind = some .result then []
      else [.missingStatus owner.name method.adjustedName]) ++
    method.arguments.flatMap fun argument =>
      (scope.argumentViolations owner argument).map
        (.argument scope.library owner.name method.adjustedName argument.name)

end Scope

/-- The enumerations come first, then the methods of the interfaces. -/
def Model.Library.violations (external : String → Option Nat) (library : Model.Library) :
    List BuildFault :=
  library.enumerations.flatMap Model.Enumeration.violations ++
    library.interfaces.flatMap fun interface =>
      interface.methods.flatMap
        ((Scope.ofLibrary library external).methodViolations interface)

/-- Only the first library is looked at, and there has to be one. -/
def violations (external : String → Option Nat) : List Model.Library → List BuildFault
  | [] => [.noLibraries]
  | library :: _ => library.violations external

end IdlBindings
