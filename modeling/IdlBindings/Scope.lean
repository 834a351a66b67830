import IdlBindings.ArgumentType
import IdlBindings.Fault
import IdlBindings.Model

/-
This file resolves the declared types of one library. A name of the library itself is known by
its own declarations first; every other name is known by what lies outside.
-/

namespace IdlBindings

/-- What a declared type may refer to. -/
structure Scope where
  library : String
  interfaces : List Model.Interface
  external : String → Option Nat

namespace Scope

def baseInterface : String := "CapeObject"

def genericEnumeration : String := "CapeEnumeration"

def ofLibrary (library : Model.Library) (external : String → Option Nat) : Scope where
  library := library.name
  interfaces := library.interfaces
  external := external

/-- Of two declarations of one name, the last counts. -/
def ownArity? (scope : Scope) (name : String) : Option Nat :=
  (scope.interfaces.reverse.find? fun interface => interface.name == name).map
    Model.Interface.arity

def arity? (scope : Scope) (resolved : ScopedName) : Option Nat :=
  match resolved.origin with
  | .own =>
      match scope.ownArity? resolved.name with
      | some arity => some arity
      | none => scope.external resolved.lookupName
  | _ => scope.external resolved.lookupName

def enumeration (scope : Scope) (type : Model.DataType) : EnumerationReference :=
  match type.name with
  | none => .generic
  | some declared =>
      if declared == genericEnumeration then .generic
      else .named (ScopedName.resolve scope.library declared)

/-- The interface a declared name refers to, with the number of its template arguments. -/
def interface (scope : Scope) (declared : String) : Except TypeFault (ObjectInterface × Nat) :=
  if declared == baseInterface then .ok (.base, 0)
  else
    let resolved := ScopedName.resolve scope.library declared
    match scope.arity? resolved with
    | some arity => .ok (.named resolved, arity)
    | none => .error (.unresolvedInterface declared)

/-- The interface, once the number of its template arguments is the expected one. -/
def filledInterface (scope : Scope) (declared : String) (found : Nat) :
    Except TypeFault ObjectInterface :=
  match scope.interface declared with
  | .error fault => .error fault
  | .ok (interface, expected) =>
      if expected = found then .ok interface
      else .error (.templateCount declared expected found)

/-- The parameter of the owning interface that a template argument stands for. -/
def parameter (owner : Model.Interface) (type : Model.DataType) :
    Except TypeFault (Nat × String) :=
  if !type.templateTypes.isEmpty then .error .nestedTemplate
  else
    match type.templateIndex with
    | none => .error (.templateIndex none)
    | some index =>
        match owner.templateArguments[index.toNat]? with
        | some name => .ok (index.toNat, name)
        | none => .error (.templateIndex (some index))

mutual

def templateArgument (scope : Scope) (owner : Model.Interface) :
    Model.DataType → Except TypeFault TemplateArgument
  | ⟨.templateArgument, name, index, types⟩ => do
      let (_, parameterName) ← parameter owner ⟨.templateArgument, name, index, types⟩
      return .parameter parameterName
  | ⟨.interface, name, _, types⟩ => do
      let interface ← scope.filledInterface (name.getD Model.Kind.interface.canonicalName)
        types.length
      let arguments ← templateArguments scope owner types
      return .object interface arguments
  | type => .error (.invalidTemplateArgument type.typeName)

def templateArguments (scope : Scope) (owner : Model.Interface) :
    List Model.DataType → Except TypeFault (List TemplateArgument)
  | [] => .ok []
  | type :: rest => do
      let argument ← templateArgument scope owner type
      let arguments ← templateArguments scope owner rest
      return argument :: arguments

end

def object (scope : Scope) (owner : Model.Interface) (type : Model.DataType) :
    Except TypeFault ObjectType := do
  let interface ← scope.filledInterface type.typeName type.templateTypes.length
  let arguments ← scope.templateArguments owner type.templateTypes
  return ⟨interface, arguments⟩

def element (scope : Scope) (types : List Model.DataType) :
    Except TypeFault EnumerationReference :=
  match types with
  | [type] =>
      if type.kind = .enumeration then .ok (scope.enumeration type)
      else .error (.elementKind type.typeName)
  | _ => .error (.elementCount types.length)

def argumentType (scope : Scope) (owner : Model.Interface) (direction : Direction)
    (type : Model.DataType) : Except TypeFault ArgumentType :=
  match type.kind with
  | .boolean => .ok (.scalar .boolean)
  | .integer => .ok (.scalar .integer)
  | .real => .ok (.scalar .real)
  | .result => .ok (.scalar .result)
  | .uuid => .ok (.scalar .uuid)
  | .enumeration => .ok (.scalar (.enumeration (scope.enumeration type)))
  | .windowId =>
      if direction = .output then .error .windowIdOut else .ok (.scalar .windowId)
  | .string => .ok (.carried .string)
  | .arrayString => .ok (.carried .arrayString)
  | .value => .ok (.carried .value)
  | .arrayInteger => .ok (.carried .arrayInteger)
  | .arrayBoolean => .ok (.carried .arrayBoolean)
  | .arrayReal => .ok (.carried .arrayReal)
  | .arrayValue => .ok (.carried .arrayValue)
  | .arrayByte => .ok (.carried .arrayByte)
  | .arrayEnumeration => do
      let reference ← scope.element type.templateTypes
      return .carried (.arrayEnumeration reference)
  | .interface => do
      let objectType ← scope.object owner type
      return .object objectType
  | .templateArgument => do
      let (index, name) ← parameter owner type
      return .parameter index name
  | .invalid => .error (.invalidType type.typeName)

end Scope

end IdlBindings
