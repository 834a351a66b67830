import IdlBindings.Event
import IdlBindings.Scope

/-
This file builds the binding of a library from its model. The first fault in the order of the
declarations decides; enumerations come before interfaces.
-/

namespace IdlBindings.Binding

/-- The first entry whose key is that of an earlier entry. -/
def firstRepeat? {α β : Type} [DecidableEq β] (key : α → β) : List β → List α → Option α
  | _, [] => none
  | seen, entry :: rest =>
      if key entry ∈ seen then some entry else firstRepeat? key (key entry :: seen) rest

namespace EnumerationItem

/-- Distinct declared names can meet once their letter case is converted. -/
def ofModel (item : Model.EnumerationItem) : EnumerationItem where
  declaredName := item.name
  name := Identifier.escape (Identifier.camelCase item.name)
  value := item.value

end EnumerationItem

namespace Enumeration

def kindOf (enumeration : Model.Enumeration) : EnumerationKind :=
  if enumeration.isBitFlag then .bitFlags else .plain

/-- Only a plain enumeration has to keep its values apart. -/
def repeatedValue? (enumeration : Model.Enumeration) : Option Model.EnumerationItem :=
  match kindOf enumeration with
  | .plain => firstRepeat? Model.EnumerationItem.value [] enumeration.items
  | .bitFlags => none

def ofModel (enumeration : Model.Enumeration) : Except BuildFault Enumeration :=
  if enumeration.items.isEmpty then .error (.emptyEnumeration enumeration.name)
  else
    match repeatedValue? enumeration with
    | some item => .error (.repeatedValue enumeration.name item.value)
    | none =>
        let items := enumeration.items.map EnumerationItem.ofModel
        match firstRepeat? EnumerationItem.name [] items with
        | some item => .error (.repeatedItem enumeration.name item.name)
        | none => .ok ⟨enumeration.name, kindOf enumeration, items⟩

end Enumeration

/-- The attributes of an argument that have been met. -/
structure ArgumentFlags where
  input : Bool := false
  output : Bool := false
  returned : Bool := false
deriving DecidableEq

namespace ArgumentFlags

def add (flags : ArgumentFlags) (word : String) : Except TypeFault ArgumentFlags :=
  if word == "in" then .ok { flags with input := true }
  else if word == "out" then .ok { flags with output := true }
  else if word == "retval" then .ok { flags with returned := true }
  else if word == "orphan" then .ok flags
  else .error (.unknownAttribute word)

def addAll : ArgumentFlags → List Model.Attribute → Except TypeFault ArgumentFlags
  | flags, [] => .ok flags
  | flags, first :: rest =>
      match flags.add first.name with
      | .ok extended => addAll extended rest
      | .error fault => .error fault

/-- Exactly one direction is given, and only an output is returned. -/
def direction (flags : ArgumentFlags) : Except TypeFault Direction :=
  if flags.input = flags.output then .error .direction
  else if flags.returned && !flags.output then .error .returnWithoutOut
  else .ok (if flags.output then .output else .input)

end ArgumentFlags

namespace Argument

def nameOf (declared : String) : String :=
  Identifier.escapeArgument (Identifier.snakeCase declared)

def ofModel (scope : Scope) (owner : Model.Interface) (argument : Model.Argument) :
    Except TypeFault Argument := do
  let flags ← ArgumentFlags.addAll {} argument.attributes
  let direction ← flags.direction
  let type ← scope.argumentType owner direction argument.dataType
  return ⟨argument.name, nameOf argument.name, direction, flags.returned, type⟩

end Argument

structure MethodNames where
  adjusted : String
  slot : String
deriving DecidableEq

namespace MethodNames

/-- A property prefixes the name of the method; a long name replaces it. -/
def ofAttribute (interface : String) (method : Model.Method) (naming : Model.Attribute) :
    Except BuildFault MethodNames :=
  if naming.name == "property_get" then .ok ⟨"Get" ++ method.name, "get" ++ method.name⟩
  else if naming.name == "property_set" then .ok ⟨"Set" ++ method.name, "put" ++ method.name⟩
  else if naming.name == "long_name" then
    match naming.value with
    | some longName => .ok ⟨longName, longName⟩
    | none => .error (.longNameWithoutValue interface method.name)
  else .error (.unknownMethodAttribute interface method.name naming.name)

def ofAttributes (interface : String) (method : Model.Method) :
    Option MethodNames → List Model.Attribute → Except BuildFault MethodNames
  | chosen, [] => .ok (chosen.getD ⟨method.name, method.name⟩)
  | chosen, naming :: rest =>
      match ofAttribute interface method naming with
      | .error fault => .error fault
      | .ok names =>
          if chosen.isSome then .error (.conflictingNames interface method.name)
          else ofAttributes interface method (some names) rest

def ofMethod (interface : String) (method : Model.Method) : Except BuildFault MethodNames :=
  ofAttributes interface method none method.attributes

end MethodNames

namespace Method

def returnsStatus (method : Model.Method) : Bool :=
  match method.returnType with
  | some type => type.kind == .result
  | none => false

def argumentOfModel (scope : Scope) (owner : Model.Interface) (adjustedName : String)
    (argument : Model.Argument) : Except BuildFault Argument :=
  match Argument.ofModel scope owner argument with
  | .ok bound => .ok bound
  | .error cause => .error (.argument scope.library owner.name adjustedName argument.name cause)

def ofModel (scope : Scope) (owner : Model.Interface) (method : Model.Method) :
    Except BuildFault Method := do
  let names ← MethodNames.ofMethod owner.name method
  if returnsStatus method then
    let arguments ← method.arguments.mapM (argumentOfModel scope owner names.adjusted)
    return {
      declaredName := method.name
      adjustedName := names.adjusted
      operation := Identifier.escape (Identifier.snakeCase names.adjusted)
      slot := names.slot
      symbol := Identifier.nativeSymbol names.adjusted
      arguments := arguments }
  else .error (.missingStatus owner.name names.adjusted)

end Method

def Interface.ofModel (scope : Scope) (interface : Model.Interface) :
    Except BuildFault Interface := do
  let methods ← interface.methods.mapM (Method.ofModel scope interface)
  return ⟨interface.name, interface.uuid, Identifier.handleName interface.name,
    interface.templateArguments, methods⟩

/-- This keeps a list of texts sorted by code points and without repetition. -/
def insertSorted (text : String) : List String → List String
  | [] => [text]
  | first :: rest =>
      if text = first then first :: rest
      else if text < first then text :: first :: rest
      else first :: insertSorted text rest

def sortedSet (texts : List String) : List String := texts.foldr insertSorted []

namespace Library

def foreignSpacesOf (interfaces : List Interface) : List String :=
  sortedSet (interfaces.flatMap fun interface => interface.methods.flatMap fun method =>
    method.arguments.flatMap fun argument => argument.type.foreignSpaces)

def ofModel (external : String → Option Nat) (library : Model.Library) :
    Except BuildFault Library := do
  let scope := Scope.ofLibrary library external
  let enumerations ← library.enumerations.mapM Enumeration.ofModel
  let interfaces ← library.interfaces.mapM (Interface.ofModel scope)
  return ⟨library.name, library.uuid, library.categories, enumerations, interfaces,
    foreignSpacesOf interfaces⟩

end Library

/-- The first library is the one to bind; the others only take part through the arities. -/
def build (external : String → Option Nat) (libraries : List Model.Library) :
    Except BuildFault Library :=
  match libraries with
  | [] => .error .noLibraries
  | library :: _ => Library.ofModel external library

end IdlBindings.Binding
