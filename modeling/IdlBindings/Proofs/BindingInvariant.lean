import IdlBindings.Proofs.FirstFault
import IdlBindings.Proofs.Occurrence

/-
This file shows what every binding guarantees. It has one declaration for each declared one, in
the same order, and its arguments are sound at every depth of their types.
-/

namespace IdlBindings

/-- The kind that a scalar was declared with. -/
def ScalarType.kind : ScalarType → Model.Kind
  | boolean => .boolean
  | integer => .integer
  | real => .real
  | result => .result
  | uuid => .uuid
  | enumeration _ => .enumeration
  | windowId => .windowId

/-- The kind that a carried type was declared with. -/
def CarriedType.kind : CarriedType → Model.Kind
  | string => .string
  | arrayString => .arrayString
  | value => .value
  | arrayInteger => .arrayInteger
  | arrayBoolean => .arrayBoolean
  | arrayReal => .arrayReal
  | arrayValue => .arrayValue
  | arrayByte => .arrayByte
  | arrayEnumeration _ => .arrayEnumeration

/-- The declared kind that a resolved type stands for. -/
def ArgumentType.kind : ArgumentType → Model.Kind
  | scalar type => type.kind
  | carried type => type.kind
  | object _ => .interface
  | parameter _ _ => .templateArgument

namespace Scope

/-- The ways in which the declared type of an argument is resolved. -/
inductive Resolves (scope : Scope) (owner : Model.Interface) (direction : Direction)
    (type : Model.DataType) : ArgumentType → Prop
  | scalar (scalar : ScalarType) (kind : scalar.kind = type.kind)
      (inward : scalar = .windowId → direction = .input)
      (reference : ∀ found, scalar = .enumeration found → found = scope.enumeration type) :
      Resolves scope owner direction type (.scalar scalar)
  | carried (carried : CarriedType) (kind : carried.kind = type.kind)
      (element : ∀ found, carried = .arrayEnumeration found →
        scope.element type.templateTypes = .ok found) :
      Resolves scope owner direction type (.carried carried)
  | object (objectType : ObjectType) (kind : type.kind = .interface)
      (resolved : scope.object owner type = .ok objectType) :
      Resolves scope owner direction type (.object objectType)
  | parameter (index : Nat) (name : String) (kind : type.kind = .templateArgument)
      (found : Scope.parameter owner type = .ok (index, name)) :
      Resolves scope owner direction type (.parameter index name)

variable {scope : Scope} {owner : Model.Interface} {direction : Direction}
  {type : Model.DataType} {bound : ArgumentType}

/-- A type that is resolved is so by one of the rules. -/
theorem resolves_of_argumentType
    (resolved : scope.argumentType owner direction type = .ok bound) :
    scope.Resolves owner direction type bound := by
  unfold argumentType at resolved
  cases kind : type.kind with
  | windowId =>
      rw [kind] at resolved
      cases direction with
      | output => cases resolved
      | input =>
          cases resolved
          exact .scalar .windowId kind.symm (fun _ => rfl) nofun
  | enumeration =>
      rw [kind] at resolved
      cases resolved
      refine .scalar _ kind.symm nofun ?_
      intro found same
      cases same
      rfl
  | arrayEnumeration =>
      rw [kind] at resolved
      obtain ⟨reference, found, same⟩ := bind_eq_ok_iff.mp resolved
      cases same
      refine .carried _ kind.symm ?_
      intro other same
      cases same
      exact found
  | interface =>
      rw [kind] at resolved
      obtain ⟨objectType, found, same⟩ := bind_eq_ok_iff.mp resolved
      cases same
      exact .object objectType kind found
  | templateArgument =>
      rw [kind] at resolved
      obtain ⟨⟨index, name⟩, found, same⟩ := bind_eq_ok_iff.mp resolved
      cases same
      exact .parameter index name kind found
  | invalid =>
      rw [kind] at resolved
      cases resolved
  | boolean | integer | real | result | uuid =>
      rw [kind] at resolved
      cases resolved
      exact .scalar _ kind.symm nofun nofun
  | _ =>
      rw [kind] at resolved
      cases resolved
      exact .carried _ kind.symm nofun

/-- Resolving keeps the kind of a type. -/
theorem Resolves.kind_eq (resolves : scope.Resolves owner direction type bound) :
    bound.kind = type.kind := by
  cases resolves with
  | scalar _ kind _ _ => exact kind
  | carried _ kind _ => exact kind
  | object _ kind _ => exact kind.symm
  | parameter _ _ kind _ => exact kind.symm

/-- A window is only ever an input. -/
theorem Resolves.input_of_windowId
    (resolves : scope.Resolves owner direction type (.scalar .windowId)) :
    direction = .input := by
  cases resolves with
  | scalar _ _ inward _ => exact inward rfl

/-- All that a resolved type holds is sound. -/
theorem Resolves.sound (resolves : scope.Resolves owner direction type bound)
    {part : TemplateArgument} (held : bound.Holds part) :
    part.Sound scope owner.templateArguments := by
  cases resolves with
  | scalar _ _ _ _ => cases held
  | carried _ _ _ => cases held
  | object _ kind resolved => exact object_sound kind resolved held
  | parameter _ _ _ _ => cases held

/-- A parameter stands at its own place among the template arguments. -/
theorem Resolves.getElem?_eq {index : Nat} {name : String}
    (resolves : scope.Resolves owner direction type (.parameter index name)) :
    owner.templateArguments[index]? = some name := by
  cases resolves with
  | parameter _ _ _ found =>
      obtain ⟨_, _, named⟩ := (parameter_eq_ok_iff owner type index name).mp found
      exact named

end Scope

namespace Binding

/-- What generated code relies on, without looking again, for each argument of an interface with
the given parameters. -/
structure Argument.Sound (scope : Scope) (parameters : List String) (argument : Argument) :
    Prop where
  returned : argument.returned = true → argument.direction = .output
  windowId : argument.direction = .output → argument.type ≠ .scalar .windowId
  parts : ∀ part : TemplateArgument, argument.type.Holds part → part.Sound scope parameters
  index : ∀ index name, argument.type = .parameter index name →
    ∃ inRange : index < parameters.length, parameters[index] = name

/-- An argument stands for a declared one: under its name, in its direction, of its kind. -/
structure Argument.Binds (declared : Model.Argument) (bound : Argument) : Prop where
  declaredName : bound.declaredName = declared.name
  name : bound.name = Argument.nameOf declared.name
  direction : bound.direction = declared.direction
  returned : bound.returned = declared.has "retval"
  kind : bound.type.kind = declared.dataType.kind

/-- A method stands for a declared one: under its names, with its arguments in order. -/
structure Method.Binds (declared : Model.Method) (bound : Method) : Prop where
  declaredName : bound.declaredName = declared.name
  adjustedName : bound.adjustedName = declared.adjustedName
  arguments : List.Forall₂ Argument.Binds declared.arguments bound.arguments

/-- An interface stands for a declared one: under its name and UUID, with its methods in order. -/
structure Interface.Binds (declared : Model.Interface) (bound : Interface) : Prop where
  name : bound.name = declared.name
  uuid : bound.uuid = declared.uuid
  templateArguments : bound.templateArguments = declared.templateArguments
  methods : List.Forall₂ Method.Binds declared.methods bound.methods

/-- An item stands for a declared one: under its name, with its value. -/
structure EnumerationItem.Binds (declared : Model.EnumerationItem) (bound : EnumerationItem) :
    Prop where
  declaredName : bound.declaredName = declared.name
  name : bound.name = declared.boundName
  value : bound.value = declared.value

/-- An enumeration stands for a declared one: under its name, with its items in order. -/
structure Enumeration.Binds (declared : Model.Enumeration) (bound : Enumeration) : Prop where
  name : bound.name = declared.name
  kind : bound.kind = .bitFlags ↔ declared.isBitFlag = true
  items : List.Forall₂ EnumerationItem.Binds declared.items bound.items

/-- A binding stands for a declared library: there is one declaration for each declared one, and
they are in the same order. -/
structure Library.Binds (declared : Model.Library) (bound : Library) : Prop where
  name : bound.name = declared.name
  uuid : bound.uuid = declared.uuid
  categories : bound.categories = declared.categories
  enumerations : List.Forall₂ Enumeration.Binds declared.enumerations bound.enumerations
  interfaces : List.Forall₂ Interface.Binds declared.interfaces bound.interfaces

variable {scope : Scope} {owner : Model.Interface}

/-- Everything that a successful resolution of an argument consists of. -/
theorem Argument.ofModel_eq_ok {declared : Model.Argument} {bound : Argument}
    (built : Argument.ofModel scope owner declared = .ok bound) :
    bound.declaredName = declared.name ∧ bound.name = Argument.nameOf declared.name ∧
      bound.direction = declared.direction ∧ bound.returned = declared.has "retval" ∧
      (bound.returned = true → bound.direction = .output) ∧
      scope.Resolves owner bound.direction declared.dataType bound.type := by
  unfold Argument.ofModel at built
  obtain ⟨flags, added, rest⟩ := bind_eq_ok_iff.mp built
  obtain ⟨direction, directed, rest⟩ := bind_eq_ok_iff.mp rest
  obtain ⟨type, resolved, same⟩ := bind_eq_ok_iff.mp rest
  cases same
  refine ⟨rfl, rfl, ArgumentFlags.direction_argument added directed, ?_,
    (ArgumentFlags.direction_eq_ok directed).2, Scope.resolves_of_argumentType resolved⟩
  rw [ArgumentFlags.addAll_argument added]

/-- An argument that is built binds what was declared. -/
theorem Argument.binds_of_ofModel {declared : Model.Argument} {bound : Argument}
    (built : Argument.ofModel scope owner declared = .ok bound) :
    Argument.Binds declared bound := by
  obtain ⟨declaredName, name, direction, returned, _, resolves⟩ := ofModel_eq_ok built
  exact ⟨declaredName, name, direction, returned, resolves.kind_eq⟩

/-- The type of an argument that is built is sound. -/
theorem Argument.sound_of_ofModel {declared : Model.Argument} {bound : Argument}
    (built : Argument.ofModel scope owner declared = .ok bound) :
    bound.Sound scope owner.templateArguments := by
  obtain ⟨_, _, _, _, returnedOut, resolves⟩ := ofModel_eq_ok built
  refine ⟨returnedOut, ?_, fun part held => resolves.sound held, ?_⟩
  · intro isOutput isWindowId
    rw [isWindowId] at resolves
    have isInput := resolves.input_of_windowId
    rw [isOutput] at isInput
    cases isInput
  · intro index name isParameter
    rw [isParameter] at resolves
    exact List.getElem?_eq_some_iff.mp resolves.getElem?_eq

/-- An argument is built by itself; the method only adds where a fault is. -/
theorem Method.argumentOfModel_eq_ok {adjustedName : String} {declared : Model.Argument}
    {bound : Argument}
    (built : Method.argumentOfModel scope owner adjustedName declared = .ok bound) :
    Argument.ofModel scope owner declared = .ok bound := by
  unfold Method.argumentOfModel at built
  cases result : Argument.ofModel scope owner declared with
  | ok argument =>
      rw [result] at built
      cases built
      rfl
  | error cause =>
      rw [result] at built
      cases built

/-- Everything that a successful build of a method consists of. -/
theorem Method.ofModel_eq_ok {declared : Model.Method} {bound : Method}
    (built : Method.ofModel scope owner declared = .ok bound) :
    bound.declaredName = declared.name ∧ bound.adjustedName = declared.adjustedName ∧
      MethodNames.ofMethod owner.name declared = .ok ⟨bound.adjustedName, bound.slot⟩ ∧
      bound.operation = Identifier.escape (Identifier.snakeCase bound.adjustedName) ∧
      bound.symbol = Identifier.nativeSymbol bound.adjustedName ∧
      List.Forall₂ (fun argument boundArgument =>
          Argument.ofModel scope owner argument = .ok boundArgument)
        declared.arguments bound.arguments := by
  unfold Method.ofModel at built
  obtain ⟨names, named, rest⟩ := bind_eq_ok_iff.mp built
  split at rest
  case isTrue =>
    obtain ⟨arguments, resolved, same⟩ := bind_eq_ok_iff.mp rest
    cases same
    refine ⟨rfl, MethodNames.ofMethod_adjusted named, named, rfl, rfl, ?_⟩
    exact forall₂_of_mem (mapM_eq_ok_iff.mp resolved) fun _ _ _ each =>
      argumentOfModel_eq_ok each
  case isFalse => cases rest

/-- A method that is built binds what was declared. -/
theorem Method.binds_of_ofModel {declared : Model.Method} {bound : Method}
    (built : Method.ofModel scope owner declared = .ok bound) : Method.Binds declared bound := by
  obtain ⟨declaredName, adjustedName, _, _, _, arguments⟩ := ofModel_eq_ok built
  exact ⟨declaredName, adjustedName,
    forall₂_of_mem arguments fun _ _ _ each => Argument.binds_of_ofModel each⟩

/-- Everything that a successful build of an interface consists of. -/
theorem Interface.ofModel_eq_ok {declared : Model.Interface} {bound : Interface}
    (built : Interface.ofModel scope declared = .ok bound) :
    bound.name = declared.name ∧ bound.uuid = declared.uuid ∧
      bound.handle = Identifier.handleName declared.name ∧
      bound.templateArguments = declared.templateArguments ∧
      List.Forall₂ (fun method boundMethod =>
          Method.ofModel scope declared method = .ok boundMethod)
        declared.methods bound.methods := by
  unfold Interface.ofModel at built
  obtain ⟨methods, each, same⟩ := bind_eq_ok_iff.mp built
  cases same
  exact ⟨rfl, rfl, rfl, rfl, mapM_eq_ok_iff.mp each⟩

/-- An interface that is built binds what was declared. -/
theorem Interface.binds_of_ofModel {declared : Model.Interface} {bound : Interface}
    (built : Interface.ofModel scope declared = .ok bound) : Interface.Binds declared bound := by
  obtain ⟨name, uuid, _, templateArguments, methods⟩ := ofModel_eq_ok built
  exact ⟨name, uuid, templateArguments,
    forall₂_of_mem methods fun _ _ _ each => Method.binds_of_ofModel each⟩

/-- An enumeration that is built keeps all rules, and nothing but its names is changed. -/
theorem Enumeration.ofModel_eq_ok {declared : Model.Enumeration} {bound : Enumeration}
    (built : Enumeration.ofModel declared = .ok bound) :
    declared.WellFormed ∧ bound =
      ⟨declared.name, kindOf declared, declared.items.map EnumerationItem.ofModel⟩ := by
  have wellFormed : declared.WellFormed := by
    rw [← declared.violations_eq_nil_iff]
    exact (ofModel_reports declared).eq_nil_of_ok built
  refine ⟨wellFormed, ?_⟩
  simp only [ofModel] at built
  repeat' split at built
  all_goals cases built
  rfl

/-- An enumeration that is built binds what was declared. -/
theorem Enumeration.binds_of_ofModel {declared : Model.Enumeration} {bound : Enumeration}
    (built : Enumeration.ofModel declared = .ok bound) : Enumeration.Binds declared bound := by
  obtain ⟨_, rfl⟩ := ofModel_eq_ok built
  refine ⟨rfl, ?_, ?_⟩
  · unfold kindOf
    cases declared.isBitFlag <;> simp
  · rw [List.forall₂_map_right_iff, List.forall₂_same]
    intro item _
    exact ⟨rfl, rfl, rfl⟩

variable {external : String → Option Nat} {declared : Model.Library} {bound : Library}

/-- Everything that a successful build of a library consists of. -/
theorem Library.ofModel_eq_ok (built : Library.ofModel external declared = .ok bound) :
    bound.name = declared.name ∧ bound.uuid = declared.uuid ∧
      bound.categories = declared.categories ∧
      List.Forall₂ (fun enumeration boundEnumeration =>
          Enumeration.ofModel enumeration = .ok boundEnumeration)
        declared.enumerations bound.enumerations ∧
      List.Forall₂ (fun interface boundInterface =>
          Interface.ofModel (Scope.ofLibrary declared external) interface = .ok boundInterface)
        declared.interfaces bound.interfaces ∧
      bound.foreignSpaces = foreignSpacesOf bound.interfaces := by
  unfold Library.ofModel at built
  obtain ⟨enumerations, eachEnumeration, rest⟩ := bind_eq_ok_iff.mp built
  obtain ⟨interfaces, eachInterface, same⟩ := bind_eq_ok_iff.mp rest
  cases same
  exact ⟨rfl, rfl, rfl, mapM_eq_ok_iff.mp eachEnumeration, mapM_eq_ok_iff.mp eachInterface, rfl⟩

/-- A library that is built binds what was declared. -/
theorem Library.binds_of_ofModel (built : Library.ofModel external declared = .ok bound) :
    Library.Binds declared bound := by
  obtain ⟨name, uuid, categories, enumerations, interfaces, _⟩ := ofModel_eq_ok built
  refine ⟨name, uuid, categories, ?_, ?_⟩
  · exact forall₂_of_mem enumerations fun _ _ _ each => Enumeration.binds_of_ofModel each
  · exact forall₂_of_mem interfaces fun _ _ _ each => Interface.binds_of_ofModel each

/-- Every argument of a binding comes from a declared one, which its interface resolved. -/
theorem Library.exists_declared (built : Library.ofModel external declared = .ok bound)
    {interface : Interface} (ofLibrary : interface ∈ bound.interfaces) {method : Method}
    (ofInterface : method ∈ interface.methods) {argument : Argument}
    (ofMethod : argument ∈ method.arguments) :
    ∃ owner ∈ declared.interfaces, ∃ declaredMethod ∈ owner.methods,
      ∃ declaredArgument ∈ declaredMethod.arguments,
        interface.templateArguments = owner.templateArguments ∧
        Argument.ofModel (Scope.ofLibrary declared external) owner declaredArgument =
          .ok argument := by
  obtain ⟨_, _, _, _, interfaces, _⟩ := Library.ofModel_eq_ok built
  obtain ⟨owner, declaredInterface, builtInterface⟩ := exists_mem_of_forall₂ interfaces ofLibrary
  obtain ⟨_, _, _, templateArguments, methods⟩ := Interface.ofModel_eq_ok builtInterface
  obtain ⟨declaredMethod, methodOf, builtMethod⟩ := exists_mem_of_forall₂ methods ofInterface
  obtain ⟨_, _, _, _, _, arguments⟩ := Method.ofModel_eq_ok builtMethod
  obtain ⟨declaredArgument, argumentOf, builtArgument⟩ := exists_mem_of_forall₂ arguments ofMethod
  exact ⟨owner, declaredInterface, declaredMethod, methodOf, declaredArgument, argumentOf,
    templateArguments, builtArgument⟩

/-- Every argument of a binding is sound for the interface it belongs to. -/
theorem Library.sound_of_ofModel (built : Library.ofModel external declared = .ok bound)
    {interface : Interface} (ofLibrary : interface ∈ bound.interfaces) {method : Method}
    (ofInterface : method ∈ interface.methods) {argument : Argument}
    (ofMethod : argument ∈ method.arguments) :
    argument.Sound (Scope.ofLibrary declared external) interface.templateArguments := by
  obtain ⟨owner, _, _, _, _, _, templateArguments, builtArgument⟩ :=
    Library.exists_declared built ofLibrary ofInterface ofMethod
  rw [templateArguments]
  exact Argument.sound_of_ofModel builtArgument

/-- Only the first library is bound. -/
theorem build_eq_ok {libraries : List Model.Library}
    (built : build external libraries = .ok bound) :
    ∃ library rest, libraries = library :: rest ∧ Library.ofModel external library = .ok bound := by
  cases libraries with
  | nil => cases built
  | cons library rest => exact ⟨library, rest, rfl, built⟩

/-- Results are outputs. -/
def Method.ReturnsOutputs (method : Method) : Prop :=
  ∀ argument ∈ method.arguments, argument.returned = true → argument.direction = .output

/-- In every method that is built, results are outputs. -/
theorem returnsOutputs_of_build {libraries : List Model.Library}
    (built : build external libraries = .ok bound) {interface : Interface}
    (ofLibrary : interface ∈ bound.interfaces) {method : Method}
    (ofInterface : method ∈ interface.methods) : method.ReturnsOutputs := by
  intro argument ofMethod
  obtain ⟨library, rest, _, libraryBuilt⟩ := build_eq_ok built
  exact (Library.sound_of_ofModel libraryBuilt ofLibrary ofInterface ofMethod).returned

/-- Every binding stands for the first library, declaration by declaration, and every argument in
it is sound at every depth of its type. -/
theorem build_binds_soundly {libraries : List Model.Library}
    (built : build external libraries = .ok bound) :
    ∃ library rest, libraries = library :: rest ∧ Library.Binds library bound ∧
      ∀ interface ∈ bound.interfaces, ∀ method ∈ interface.methods,
        ∀ argument ∈ method.arguments,
          argument.Sound (Scope.ofLibrary library external) interface.templateArguments := by
  obtain ⟨library, rest, split, libraryBuilt⟩ := build_eq_ok built
  refine ⟨library, rest, split, Library.binds_of_ofModel libraryBuilt, ?_⟩
  intro interface ofLibrary method ofInterface argument ofMethod
  exact Library.sound_of_ofModel libraryBuilt ofLibrary ofInterface ofMethod

/-- A library with a generic interface whose method has arguments of every category. -/
def sampleLibrary : Model.Library where
  name := "Thermo"
  uuid := ⟨List.replicate 16 0, rfl⟩
  enumerations := [⟨"Phase", [⟨"VAPOR", 0⟩, ⟨"LIQUID", 1⟩]⟩]
  interfaces := [{
    name := "ICollection"
    uuid := ⟨List.replicate 16 1, rfl⟩
    templateArguments := ["Item"]
    methods := [{
      name := "Exchange"
      returnType := some { kind := .result }
      arguments := [
        ⟨"index", [⟨"in", none⟩], { kind := .integer }⟩,
        ⟨"window", [⟨"in", none⟩], { kind := .windowId }⟩,
        ⟨"phase", [⟨"in", none⟩], { kind := .enumeration, name := some "Phase" }⟩,
        ⟨"found", [⟨"out", none⟩], { kind := .enumeration, name := some "Phase" }⟩,
        ⟨"total", [⟨"out", none⟩, ⟨"retval", none⟩], { kind := .real }⟩,
        ⟨"label", [⟨"in", none⟩], { kind := .string }⟩,
        ⟨"values", [⟨"out", none⟩], { kind := .arrayReal }⟩,
        ⟨"others", [⟨"in", none⟩],
          { kind := .interface
            name := some "ICollection"
            templateTypes := [{
              kind := .interface
              name := some "Thermo::ICollection"
              templateTypes := [{ kind := .templateArgument, templateIndex := some 0 }] }] }⟩,
        ⟨"first", [⟨"out", none⟩, ⟨"retval", none⟩],
          { kind := .templateArgument, templateIndex := some 0 }⟩] }] }]

/-- A library whose references are all sound. -/
theorem build_binds_soundly_sampleLibrary :
    ∃ bound library rest, build (fun _ => none) [sampleLibrary] = .ok bound ∧
      [sampleLibrary] = library :: rest ∧ Library.Binds library bound ∧
      ∀ interface ∈ bound.interfaces, ∀ method ∈ interface.methods,
        ∀ argument ∈ method.arguments,
          argument.Sound (Scope.ofLibrary library fun _ => none) interface.templateArguments := by
  have built : build (fun _ => none) [sampleLibrary] = .ok _ := rfl
  obtain ⟨library, rest, facts⟩ := build_binds_soundly built
  exact ⟨_, library, rest, built, facts⟩

end Binding

end IdlBindings
