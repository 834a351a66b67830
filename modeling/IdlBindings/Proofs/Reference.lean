import IdlBindings.Proofs.FirstFault

/-
This file collects the interfaces that a library refers to. What a build of the library gives,
success or fault, depends on its surroundings only through what these references mean.
-/

namespace IdlBindings

namespace Model

mutual

/-- The interfaces that a declared type refers to, at any depth. Only what fills an interface is
resolved in turn, so that nothing else can hold references. -/
def DataType.references : DataType → List String
  | ⟨.interface, name, _, types⟩ =>
      name.getD Kind.interface.canonicalName :: DataType.referencesOf types
  | _ => []

/-- The references in a list of types. -/
def DataType.referencesOf : List DataType → List String
  | [] => []
  | type :: rest => type.references ++ DataType.referencesOf rest

end

/-- The references in the arguments of a method. -/
def Method.references (method : Method) : List String :=
  method.arguments.flatMap fun argument => argument.dataType.references

/-- The references in the methods of an interface. -/
def Interface.references (interface : Interface) : List String :=
  interface.methods.flatMap Method.references

/-- The references in the interfaces of a library. -/
def Library.references (library : Library) : List String :=
  library.interfaces.flatMap Interface.references

/-- Every reference that resolves to the library itself is to an interface that it declares. -/
def Library.DeclaresOwnReferences (library : Library) : Prop :=
  ∀ declared ∈ library.references, declared ≠ Scope.baseInterface →
    (ScopedName.resolve library.name declared).origin = .own →
      ∃ interface ∈ library.interfaces,
        interface.name = (ScopedName.resolve library.name declared).name

/-- The references of types are those of each of them. -/
theorem DataType.referencesOf_eq_flatMap (types : List DataType) :
    DataType.referencesOf types = types.flatMap DataType.references := by
  induction types with
  | nil => rw [referencesOf, List.flatMap_nil]
  | cons type rest ih => rw [referencesOf, List.flatMap_cons, ih]

/-- An interface refers to itself, and to what fills it. -/
theorem DataType.references_of_interface {type : DataType} (kind : type.kind = .interface) :
    type.references = type.typeName :: type.templateTypes.flatMap DataType.references := by
  obtain ⟨_, name, index, types⟩ := type
  subst kind
  rw [references, referencesOf_eq_flatMap]
  rfl

/-- Only interfaces are references. -/
theorem DataType.references_of_other {type : DataType} (kind : type.kind ≠ .interface) :
    type.references = [] := by
  obtain ⟨other, name, index, types⟩ := type
  cases other with
  | interface => exact absurd rfl kind
  | _ =>
      rw [references]
      simp

end Model

namespace Scope

/-- Two scopes of one library in which the references mean the same. -/
structure AgreeOn (first second : Scope) (references : List String) : Prop where
  library : first.library = second.library
  interface : ∀ declared ∈ references, first.interface declared = second.interface declared

namespace AgreeOn

variable {first second : Scope} {owner : Model.Interface} {type : Model.DataType}

/-- Scopes that agree on references agree on fewer of them. -/
theorem subset {references fewer : List String} (agree : first.AgreeOn second references)
    (within : fewer ⊆ references) : first.AgreeOn second fewer :=
  ⟨agree.library, fun declared member => agree.interface declared (within member)⟩

/-- An entry of a list refers to no more than the whole list does. -/
theorem of_mem {α : Type} {entries : List α} {references : α → List String}
    (agree : first.AgreeOn second (entries.flatMap references)) {entry : α}
    (member : entry ∈ entries) : first.AgreeOn second (references entry) :=
  agree.subset fun _ inside => List.mem_flatMap.mpr ⟨entry, member, inside⟩

/-- Scopes that agree on an interface agree on what fills it. -/
theorem filling (agree : first.AgreeOn second type.references) (kind : type.kind = .interface)
    {inner : Model.DataType} (member : inner ∈ type.templateTypes) :
    first.AgreeOn second inner.references := by
  rw [Model.DataType.references_of_interface kind] at agree
  exact (agree.subset (List.subset_cons_self _ _)).of_mem member

/-- Scopes that agree on an interface give one object, if what fills it gives the same. -/
theorem object_eq_of_filling (agree : first.AgreeOn second type.references)
    (kind : type.kind = .interface)
    (sameFilling : ∀ inner ∈ type.templateTypes,
      first.templateArgument owner inner = second.templateArgument owner inner) :
    first.object owner type = second.object owner type := by
  have referred : type.typeName ∈ type.references := by
    simp [Model.DataType.references_of_interface kind]
  have filled (found : Nat) :
      first.filledInterface type.typeName found = second.filledInterface type.typeName found := by
    rw [filledInterface, filledInterface, agree.interface _ referred]
  rw [object, object, filled, templateArguments_eq_mapM, templateArguments_eq_mapM,
    mapM_congr sameFilling]

/-- Scopes that agree on the references of a type give one template argument. -/
theorem templateArgument_eq (agree : first.AgreeOn second type.references) :
    first.templateArgument owner type = second.templateArgument owner type := by
  induction type using Model.DataType.induction with
  | step type ih =>
      by_cases isParameter : type.kind = .templateArgument
      · rw [templateArgument_of_templateArgument first owner isParameter,
          templateArgument_of_templateArgument second owner isParameter]
      by_cases isInterface : type.kind = .interface
      · rw [templateArgument_eq_object first owner isInterface,
          templateArgument_eq_object second owner isInterface,
          agree.object_eq_of_filling isInterface]
        intro inner member
        exact ih inner member (agree.filling isInterface member)
      · rw [templateArgument_of_other first owner isParameter isInterface,
          templateArgument_of_other second owner isParameter isInterface]

/-- Scopes that agree on the references of a type give one object. -/
theorem object_eq (agree : first.AgreeOn second type.references) (kind : type.kind = .interface) :
    first.object owner type = second.object owner type :=
  agree.object_eq_of_filling kind fun _ member => (agree.filling kind member).templateArgument_eq

/-- An enumeration does not depend on the interfaces of a scope. -/
theorem enumeration_eq {references : List String} (agree : first.AgreeOn second references)
    (type : Model.DataType) : first.enumeration type = second.enumeration type := by
  rw [enumeration, enumeration, agree.library]

/-- Scopes that agree on the references of a type resolve it alike. -/
theorem argumentType_eq (agree : first.AgreeOn second type.references) (direction : Direction) :
    first.argumentType owner direction type = second.argumentType owner direction type := by
  unfold argumentType
  cases kind : type.kind with
  | interface => simp only [agree.object_eq kind]
  | enumeration => simp only [agree.enumeration_eq]
  | arrayEnumeration => simp only [element, agree.enumeration_eq]
  | _ => rfl

end AgreeOn

end Scope

namespace Binding

variable {first second : Scope} {owner : Model.Interface}

/-- An argument is built alike in scopes that agree on its references. -/
theorem Method.argumentOfModel_congr {argument : Model.Argument}
    (agree : first.AgreeOn second argument.dataType.references) (adjustedName : String) :
    argumentOfModel first owner adjustedName argument =
      argumentOfModel second owner adjustedName argument := by
  have sameArgument : Argument.ofModel first owner argument =
      Argument.ofModel second owner argument := by
    simp only [Argument.ofModel, agree.argumentType_eq]
  rw [argumentOfModel, argumentOfModel, sameArgument, agree.library]

/-- A method is built alike in scopes that agree on its references. -/
theorem Method.ofModel_congr {method : Model.Method}
    (agree : first.AgreeOn second method.references) :
    Method.ofModel first owner method = Method.ofModel second owner method := by
  have sameArguments (adjustedName : String) :
      method.arguments.mapM (argumentOfModel first owner adjustedName) =
        method.arguments.mapM (argumentOfModel second owner adjustedName) :=
    mapM_congr fun argument member => argumentOfModel_congr (agree.of_mem member) adjustedName
  simp only [Method.ofModel, sameArguments]

/-- An interface is built alike in scopes that agree on its references. -/
theorem Interface.ofModel_congr {interface : Model.Interface}
    (agree : first.AgreeOn second interface.references) :
    Interface.ofModel first interface = Interface.ofModel second interface := by
  have sameMethods : interface.methods.mapM (Method.ofModel first interface) =
      interface.methods.mapM (Method.ofModel second interface) :=
    mapM_congr fun method member => Method.ofModel_congr (agree.of_mem member)
  rw [Interface.ofModel, Interface.ofModel, sameMethods]

/-- Two builds of a library give the same, success or fault, if they agree on its references. -/
theorem Library.ofModel_congr {library : Model.Library} {external other : String → Option Nat}
    (agree : (Scope.ofLibrary library external).AgreeOn (Scope.ofLibrary library other)
      library.references) :
    Library.ofModel external library = Library.ofModel other library := by
  have sameInterfaces :
      library.interfaces.mapM (Interface.ofModel (Scope.ofLibrary library external)) =
        library.interfaces.mapM (Interface.ofModel (Scope.ofLibrary library other)) :=
    mapM_congr fun interface member => Interface.ofModel_congr (agree.of_mem member)
  simp only [Library.ofModel, sameInterfaces]

end Binding

namespace Scope

variable {scope : Scope} {owner : Model.Interface} {declared : String}

/-- What may fill a place refers to known interfaces only. -/
theorem Fills.exists_hasArity {type : Model.DataType} (fills : scope.Fills owner type)
    (refers : declared ∈ type.references) :
    ∃ arity, scope.HasArity (scope.referred declared) arity := by
  induction fills with
  | parameter _ => cases refers
  | @interface name index types arity filled ih =>
      rw [Model.DataType.references_of_interface rfl] at refers
      rcases List.mem_cons.mp refers with rfl | inside
      · exact ⟨_, arity⟩
      · obtain ⟨filling, member, within⟩ := List.mem_flatMap.mp inside
        exact ih filling member within

/-- Every reference of an admitted type has an arity. -/
theorem AdmitsType.exists_hasArity {direction : Direction} {type : Model.DataType}
    (admits : scope.AdmitsType owner direction type) (refers : declared ∈ type.references) :
    ∃ arity, scope.HasArity (scope.referred declared) arity := by
  by_cases kind : type.kind = .interface
  · unfold AdmitsType at admits
    rw [kind] at admits
    exact admits.exists_hasArity refers
  · rw [Model.DataType.references_of_other kind] at refers
    cases refers

end Scope

/-- A library that is built refers to known interfaces only. -/
theorem Binding.Library.exists_hasArity {library : Model.Library} {external : String → Option Nat}
    {bound : Library} (built : Library.ofModel external library = .ok bound) {declared : String}
    (refers : declared ∈ library.references) :
    ∃ arity, (Scope.ofLibrary library external).HasArity
      ((Scope.ofLibrary library external).referred declared) arity := by
  have wellFormed : library.WellFormed external :=
    (library.violations_eq_nil_iff external).mp ((ofModel_reports external library).eq_nil_of_ok built)
  obtain ⟨interface, ofLibrary, inInterface⟩ := List.mem_flatMap.mp refers
  obtain ⟨method, ofInterface, inMethod⟩ := List.mem_flatMap.mp inInterface
  obtain ⟨argument, ofMethod, inArgument⟩ := List.mem_flatMap.mp inMethod
  have admits := wellFormed.methods interface ofLibrary method ofInterface
  exact (admits.arguments argument ofMethod).typed.exists_hasArity inArgument

end IdlBindings
