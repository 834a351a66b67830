import IdlBindings.Proofs.Violation

/-
This file states the rules for a model, each for itself and without an order. A model that keeps
all of them is one without violations.
-/

namespace IdlBindings

namespace Model

/-- There is at least one item, and the items can be told apart. -/
structure Enumeration.WellFormed (enumeration : Enumeration) : Prop where
  inhabited : enumeration.items ≠ []
  distinctValues : enumeration.isBitFlag = false →
    (enumeration.items.map EnumerationItem.value).Nodup
  distinctNames : (enumeration.items.map EnumerationItem.boundName).Nodup

/-- A method has at most one attribute, which names it. -/
structure Method.WellNamed (method : Method) : Prop where
  single : method.attributes.length ≤ 1
  naming : ∀ entry ∈ method.attributes, entry.name ∈ namingWords
  valued : ∀ entry ∈ method.attributes, entry.name = "long_name" → entry.value ≠ none

end Model

namespace Scope

/-- The types that may fill a place of a generic interface, or stand for an object. -/
inductive Fills (scope : Scope) (owner : Model.Interface) : Model.DataType → Prop
  | parameter {name : Option String} {index : UInt64}
      (inRange : index.toNat < owner.templateArguments.length) :
      Fills scope owner ⟨.templateArgument, name, some index, []⟩
  | interface {name : Option String} {index : Option UInt64} {types : List Model.DataType}
      (arity : scope.HasArity
        (scope.referred (name.getD Model.Kind.interface.canonicalName)) types.length)
      (filled : ∀ type ∈ types, Fills scope owner type) :
      Fills scope owner ⟨.interface, name, index, types⟩

variable (scope : Scope) (owner : Model.Interface)

/-- The scope admits a type in a direction. -/
def AdmitsType (direction : Direction) (type : Model.DataType) : Prop :=
  match type.kind with
  | .windowId => direction = .input
  | .arrayEnumeration => ∃ element, type.templateTypes = [element] ∧ element.kind = .enumeration
  | .interface | .templateArgument => scope.Fills owner type
  | .invalid => False
  | _ => True

/-- The scope admits an argument: its attributes and its type are in order. -/
structure AdmitsArgument (argument : Model.Argument) : Prop where
  known : ∀ entry ∈ argument.attributes, entry.name ∈ Model.flagWords
  directed : argument.has "in" ≠ argument.has "out"
  returned : argument.has "retval" = true → argument.has "out" = true
  typed : scope.AdmitsType owner argument.direction argument.dataType

/-- The scope admits a method: its naming, its status and its arguments are in order. -/
structure AdmitsMethod (method : Model.Method) : Prop where
  named : method.WellNamed
  status : method.returnType.map Model.DataType.kind = some .result
  arguments : ∀ argument ∈ method.arguments, scope.AdmitsArgument owner argument

end Scope

/-- The enumerations and the methods of a library are in order. -/
structure Model.Library.WellFormed (external : String → Option Nat) (library : Model.Library) :
    Prop where
  enumerations : ∀ enumeration ∈ library.enumerations, enumeration.WellFormed
  methods : ∀ interface ∈ library.interfaces, ∀ method ∈ interface.methods,
    (Scope.ofLibrary library external).AdmitsMethod interface method

/-- An entry is repeated unless its key is new, both in the list and among the keys before it. -/
theorem filter_precededFrom_eq_nil_iff {α β : Type} [DecidableEq β] (key : α → β)
    (earlier entries : List α) :
    ((precededFrom earlier entries).filter fun placed => key placed.2 ∈ placed.1.map key) = [] ↔
      (entries.map key).Nodup ∧ ∀ entry ∈ entries, key entry ∉ earlier.map key := by
  induction entries generalizing earlier with
  | nil => simp [precededFrom]
  | cons entry rest ih =>
      rw [precededFrom, List.filter_cons]
      by_cases seen : key entry ∈ earlier.map key
      · simp only [seen, decide_true, if_true, List.map_cons, reduceCtorEq, false_iff]
        intro fresh
        exact fresh.2 entry List.mem_cons_self seen
      · simp only [seen, decide_false, Bool.false_eq_true, if_false, ih, List.map_append,
          List.map_cons, List.map_nil, List.mem_append, List.mem_singleton, not_or,
          List.nodup_cons, List.forall_mem_cons, not_false_eq_true, true_and]
        constructor
        · rintro ⟨distinct, fresh⟩
          refine ⟨⟨?_, distinct⟩, fun other member => (fresh other member).1⟩
          intro same
          obtain ⟨other, member, equal⟩ := List.mem_map.mp same
          exact (fresh other member).2 equal
        · rintro ⟨⟨new, distinct⟩, fresh⟩
          refine ⟨distinct, fun other member => ⟨fresh other member, fun equal => ?_⟩⟩
          exact new (List.mem_map.mpr ⟨other, member, equal⟩)

/-- No entry is repeated exactly if the keys differ. -/
theorem repeated_eq_nil_iff {α β : Type} [DecidableEq β] (key : α → β) (entries : List α) :
    repeated key entries = [] ↔ (entries.map key).Nodup := by
  rw [repeated, List.map_eq_nil_iff, preceded, filter_precededFrom_eq_nil_iff]
  simp

namespace Model

/-- Nothing is wrong with an enumeration exactly if it is well formed. -/
theorem Enumeration.violations_eq_nil_iff (enumeration : Enumeration) :
    enumeration.violations = [] ↔ enumeration.WellFormed := by
  have values : (if enumeration.isBitFlag then [] else
        (repeated EnumerationItem.value enumeration.items).map fun item =>
          BuildFault.repeatedValue enumeration.name item.value) = [] ↔
      (enumeration.isBitFlag = false → (enumeration.items.map EnumerationItem.value).Nodup) := by
    cases enumeration.isBitFlag <;> simp [repeated_eq_nil_iff]
  rw [violations, List.append_eq_nil_iff, List.append_eq_nil_iff, values, List.map_eq_nil_iff,
    repeated_eq_nil_iff]
  constructor
  · rintro ⟨⟨inhabited, distinctValues⟩, distinctNames⟩
    exact ⟨by simpa using inhabited, distinctValues, distinctNames⟩
  · rintro ⟨inhabited, distinctValues, distinctNames⟩
    exact ⟨⟨by simpa using inhabited, distinctValues⟩, distinctNames⟩

/-- The first attribute may name the method; any other one violates a rule. -/
theorem Method.namingViolations_eq_nil_iff (interface : String) (method : Method) :
    method.namingViolations interface = [] ↔ method.WellNamed := by
  obtain ⟨name, attributes, returnType, arguments⟩ := method
  match attributes with
  | [] => exact ⟨fun _ => ⟨Nat.zero_le 1, nofun, nofun⟩, fun _ => rfl⟩
  | [entry] =>
      have single : Method.namingViolations interface ⟨name, [entry], returnType, arguments⟩ = [] ↔
          entry.isNaming = true ∧ (entry.name = "long_name" → entry.value ≠ none) := by
        simp [namingViolations, attributeViolations, preceded, precededFrom]
      rw [single]
      constructor
      · rintro ⟨naming, valued⟩
        exact ⟨Nat.le_refl 1, by simpa [Attribute.isNaming] using naming, by simpa using valued⟩
      · intro named
        have naming := named.naming entry List.mem_cons_self
        exact ⟨by simpa [Attribute.isNaming] using naming,
          named.valued entry List.mem_cons_self⟩
  | first :: second :: rest =>
      constructor
      · intro nothing
        simp only [namingViolations, attributeViolations, preceded, precededFrom,
          List.flatMap_cons, List.append_eq_nil_iff] at nothing
        -- The second attribute either does not name the method or conflicts with the first.
        by_cases firstNaming : first.isNaming
        · by_cases secondNaming : second.isNaming <;> simp [firstNaming, secondNaming] at nothing
        · simp [firstNaming] at nothing
      · intro named
        have short := named.single
        simp at short

end Model

namespace Scope

variable (scope : Scope) (owner : Model.Interface)

/-- Nothing is wrong with a reference exactly if it has the arity. -/
theorem referenceViolations_eq_nil_iff (declared : String) (found : Nat) :
    scope.referenceViolations declared found = [] ↔
      scope.HasArity (scope.referred declared) found := by
  rw [referenceViolations, ← arityOf?_eq_some_iff]
  cases scope.arityOf? (scope.referred declared) <;> simp

/-- Nothing is wrong with a parameter exactly if it stands in the list and is not filled. -/
theorem parameterViolations_eq_nil_iff (type : Model.DataType) :
    parameterViolations owner type = [] ↔
      type.templateTypes = [] ∧ ∃ index, type.templateIndex = some index ∧
        index.toNat < owner.templateArguments.length := by
  rw [parameterViolations, List.append_eq_nil_iff]
  cases type.templateIndex <;> simp

/-- A type fills a place exactly when neither it nor anything inside it violates a rule. -/
theorem placeViolations_eq_nil_iff (type : Model.DataType) :
    scope.placeViolations owner type = [] ↔ scope.Fills owner type := by
  induction type using Model.DataType.induction with
  | step type ih =>
      obtain ⟨kind, name, index, types⟩ := type
      by_cases isParameter : kind = .templateArgument
      · subst isParameter
        rw [placeViolations_of_templateArgument scope owner rfl, parameterViolations_eq_nil_iff]
        constructor
        · rintro ⟨rfl, position, rfl, inRange⟩
          exact .parameter inRange
        · rintro ⟨inRange⟩
          exact ⟨rfl, _, rfl, inRange⟩
      by_cases isInterface : kind = .interface
      · subst isInterface
        rw [placeViolations_of_interface scope owner rfl, List.append_eq_nil_iff,
          referenceViolations_eq_nil_iff, List.flatMap_eq_nil_iff]
        constructor
        · rintro ⟨arity, inner⟩
          exact .interface arity fun type member => (ih type member).mp (inner type member)
        · intro fills
          cases fills with
          | interface arity filled =>
              exact ⟨arity, fun type member => (ih type member).mpr (filled type member)⟩
      · rw [placeViolations_of_other scope owner isParameter isInterface]
        constructor
        · intro impossible
          cases impossible
        · intro fills
          cases fills with
          | parameter _ => exact absurd rfl isParameter
          | interface _ _ => exact absurd rfl isInterface

/-- Nothing is wrong with elements exactly if there is one, of an enumeration. -/
theorem elementViolations_eq_nil_iff (types : List Model.DataType) :
    elementViolations types = [] ↔ ∃ element, types = [element] ∧ element.kind = .enumeration := by
  match types with
  | [] => simp [elementViolations]
  | [element] => simp [elementViolations]
  | first :: second :: rest => simp [elementViolations]

/-- Nothing is wrong with a type exactly if the scope admits it. -/
theorem typeViolations_eq_nil_iff (direction : Direction) (type : Model.DataType) :
    scope.typeViolations owner direction type = [] ↔ scope.AdmitsType owner direction type := by
  unfold typeViolations AdmitsType
  cases type.kind with
  | windowId => cases direction <;> simp
  | arrayEnumeration => exact elementViolations_eq_nil_iff type.templateTypes
  | interface => exact scope.placeViolations_eq_nil_iff owner type
  | templateArgument => exact scope.placeViolations_eq_nil_iff owner type
  | invalid => simp
  | _ => simp

/-- Nothing is wrong with an argument exactly if the scope admits it. -/
theorem argumentViolations_eq_nil_iff (argument : Model.Argument) :
    scope.argumentViolations owner argument = [] ↔ scope.AdmitsArgument owner argument := by
  simp only [argumentViolations, List.append_eq_nil_iff, List.map_eq_nil_iff,
    List.filter_eq_nil_iff, typeViolations_eq_nil_iff]
  constructor
  · rintro ⟨⟨⟨known, directed⟩, returned⟩, typed⟩
    refine ⟨by simpa using known, ?_, ?_, typed⟩
    · intro same
      simp [same] at directed
    · intro isReturned
      simpa [isReturned] using returned
  · rintro ⟨known, directed, returned, typed⟩
    refine ⟨⟨⟨by simpa using known, if_neg directed⟩, if_neg ?_⟩, typed⟩
    rintro ⟨isReturned, notOut⟩
    exact notOut (returned isReturned)

/-- Nothing is wrong with a method exactly if the scope admits it. -/
theorem methodViolations_eq_nil_iff (method : Model.Method) :
    scope.methodViolations owner method = [] ↔ scope.AdmitsMethod owner method := by
  simp only [methodViolations, List.append_eq_nil_iff, List.flatMap_eq_nil_iff,
    List.map_eq_nil_iff, argumentViolations_eq_nil_iff, Model.Method.namingViolations_eq_nil_iff]
  constructor
  · rintro ⟨⟨named, status⟩, arguments⟩
    exact ⟨named, by simpa using status, arguments⟩
  · rintro ⟨named, status, arguments⟩
    exact ⟨⟨named, if_pos status⟩, arguments⟩

end Scope

/-- A library keeps all rules exactly when it has no violations. -/
theorem Model.Library.violations_eq_nil_iff (external : String → Option Nat)
    (library : Model.Library) :
    library.violations external = [] ↔ library.WellFormed external := by
  simp only [violations, List.append_eq_nil_iff, List.flatMap_eq_nil_iff,
    Enumeration.violations_eq_nil_iff, Scope.methodViolations_eq_nil_iff]
  exact ⟨fun kept => ⟨kept.1, kept.2⟩, fun kept => ⟨kept.enumerations, kept.methods⟩⟩

end IdlBindings
