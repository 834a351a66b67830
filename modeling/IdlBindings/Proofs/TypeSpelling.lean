import IdlBindings.Proofs.BindingInvariant
import IdlBindings.Proofs.Qualifier
import IdlBindings.Proofs.Spelling

/-
This file follows the names that a library declares into the types of its binding. If all of them
are paths, no name of a resolved type has a character that marks a reference.
-/

namespace IdlBindings

namespace Model

mutual

/-- The names of a declared type and of all that fill its places. -/
def DataType.names : DataType → List String
  | ⟨_, name, _, types⟩ => name.toList ++ DataType.namesOf types

/-- The names in a list of types. -/
def DataType.namesOf : List DataType → List String
  | [] => []
  | type :: rest => type.names ++ DataType.namesOf rest

end

/-- The names of types are those of each of them. -/
theorem DataType.namesOf_eq_flatMap (types : List DataType) :
    DataType.namesOf types = types.flatMap DataType.names := by
  induction types with
  | nil => rw [namesOf, List.flatMap_nil]
  | cons type rest ih => rw [namesOf, List.flatMap_cons, ih]

/-- A name in a type is its own, or one in what fills it. -/
theorem DataType.mem_names {type : DataType} {name : String} :
    name ∈ type.names ↔ type.name = some name ∨ ∃ inner ∈ type.templateTypes, name ∈ inner.names := by
  obtain ⟨kind, declared, index, types⟩ := type
  rw [names, namesOf_eq_flatMap]
  simp

end Model

/-- A character that neither marks a reference nor parts two words. -/
def Unmarked (character : Char) : Prop := character ≠ '&' ∧ character ≠ ' '

instance : DecidablePred Unmarked := fun character =>
  inferInstanceAs (Decidable (character ≠ '&' ∧ character ≠ ' '))

/-- A list in brackets has no marks, if its entries have none. -/
theorem unmarked_bracketed {arguments : List String}
    (each : ∀ argument ∈ arguments, Spelled Unmarked argument) :
    Spelled Unmarked (bracketed arguments) := by
  unfold bracketed
  split
  · decide
  · refine Spelled.append (Spelled.append (by decide) ?_) (by decide)
    exact Spelled.intercalate (by decide) each

/-- The support names of scalars have no marks. -/
theorem ScalarType.unmarked_supportName (type : ScalarType) :
    Spelled Unmarked type.supportName := by
  cases type <;> (simp only [supportName]; decide)

/-- The support names of carried types have no marks. -/
theorem CarriedType.unmarked_supportName (type : CarriedType) :
    Spelled Unmarked type.supportName := by
  cases type <;> (simp only [supportName]; decide)

namespace Identifier

/-- A handle has no marks, if its interface has none. -/
theorem unmarked_handleName {interface : String} (unmarked : Spelled Unmarked interface) :
    Spelled Unmarked (handleName interface) := by
  unfold handleName
  split
  case h_1 character rest spelled =>
    apply Spelled.ofList
    intro other member
    apply unmarked
    rw [spelled]
    exact List.mem_cons_of_mem _ member
  case h_2 => exact Spelled.append (by decide) unmarked

end Identifier

namespace ScopedName

variable {context : Context} {library declared : String}

/-- A resolved name is spelled like the declared one, in whatever place it lives. -/
theorem unmarked_qualify (support : Spelled Unmarked context.support)
    (unmarked : Spelled Unmarked declared) {item : String} (itemUnmarked : Spelled Unmarked item) :
    Spelled Unmarked ((resolve library declared).qualify context item) := by
  unfold resolve
  split
  · exact itemUnmarked
  case h_2 space name split =>
    have spaceUnmarked : Spelled Unmarked (String.ofList space) := by
      apply Spelled.ofList
      intro character member
      apply unmarked
      rw [eq_of_splitQualifier split]
      exact List.mem_append_left _ member
    rcases originOf_cases library (String.ofList space) with own | ⟨aliasName, known, aliased⟩ | foreign
    · simpa only [qualify, own] using itemUnmarked
    · simp only [qualify, aliased, Context.supportPath]
      have aliasUnmarked : Spelled Unmarked aliasName := by
        simp only [wellKnownSpaces, List.mem_cons, Prod.mk.injEq, List.not_mem_nil, or_false] at known
        rcases known with ⟨_, rfl⟩ | ⟨_, rfl⟩ <;> decide
      refine (support.append (by decide)).append ?_
      exact (aliasUnmarked.append (by decide)).append itemUnmarked
    · simp only [qualify, foreign]
      exact (spaceUnmarked.append (by decide)).append itemUnmarked

/-- A resolved name has no marks, if the declared one has none. -/
theorem unmarked_name (unmarked : Spelled Unmarked declared) :
    Spelled Unmarked (resolve library declared).name := by
  unfold resolve
  split
  · exact unmarked
  case h_2 space name split =>
    apply Spelled.ofList
    intro character member
    apply unmarked
    rw [eq_of_splitQualifier split]
    exact List.mem_append_right _ (List.mem_cons_of_mem _ (List.mem_cons_of_mem _ member))

/-- A display name has no marks, if the declared name has none. -/
theorem unmarked_displayName (support : Spelled Unmarked context.support)
    (unmarked : Spelled Unmarked declared) :
    Spelled Unmarked ((resolve library declared).displayName context) :=
  unmarked_qualify support unmarked (unmarked_name unmarked)

/-- A handle has no marks, if the declared name has none. -/
theorem unmarked_handleName (support : Spelled Unmarked context.support)
    (unmarked : Spelled Unmarked declared) :
    Spelled Unmarked ((resolve library declared).handleName context) :=
  unmarked_qualify support unmarked (Identifier.unmarked_handleName (unmarked_name unmarked))

end ScopedName

/-- Handles are written one by one. -/
theorem TemplateArgument.handleNames_eq_map (context : Context) (arguments : List TemplateArgument) :
    handleNames context arguments = arguments.map (handleName context) := by
  induction arguments with
  | nil => rw [handleNames, List.map_nil]
  | cons argument rest ih => rw [handleNames, List.map_cons, ih]

namespace Scope

variable {scope : Scope} {owner : Model.Interface} {context : Context}

/-- An object has no marks, if its name and what fills it have none. -/
theorem unmarked_referred (support : Spelled Unmarked context.support) {declared : String}
    (unmarked : Spelled Unmarked declared) {arguments : List String}
    (filled : ∀ argument ∈ arguments, Spelled Unmarked argument) :
    Spelled Unmarked ((scope.referred declared).handleName context arguments) := by
  unfold referred
  split
  · exact (support.append (by decide)).append (by decide)
  · exact (ScopedName.unmarked_handleName support unmarked).append (unmarked_bracketed filled)

/-- The declared name of an interface, or else that of the base interface. -/
theorem unmarked_typeName {type : Model.DataType} (kind : type.kind = .interface)
    (unmarked : ∀ name ∈ type.names, Spelled Unmarked name) : Spelled Unmarked type.typeName := by
  unfold Model.DataType.typeName
  cases named : type.name with
  | none =>
      rw [kind]
      decide
  | some name => exact unmarked name (Model.DataType.mem_names.mpr (.inl named))

/-- The handle of a resolved type is unmarked if the names in its declaration are. -/
theorem unmarked_templateArgument (support : Spelled Unmarked context.support)
    (parameters : ∀ name ∈ owner.templateArguments, Spelled Unmarked name)
    {type : Model.DataType} {argument : TemplateArgument}
    (resolved : scope.templateArgument owner type = .ok argument) :
    (∀ name ∈ type.names, Spelled Unmarked name) →
      Spelled Unmarked (argument.handleName context) := by
  refine scope.templateArgument_induction owner (motive := fun type argument =>
    (∀ name ∈ type.names, Spelled Unmarked name) → Spelled Unmarked (argument.handleName context))
    ?_ ?_ resolved
  · intro type index name _ found _
    obtain ⟨_, _, named⟩ := (parameter_eq_ok_iff owner type index name).mp found
    exact parameters name (List.mem_of_getElem? named)
  · intro type arguments kind _ inner unmarked
    rw [TemplateArgument.handleName, TemplateArgument.handleNames_eq_map]
    refine unmarked_referred support (unmarked_typeName kind unmarked) ?_
    intro text member
    obtain ⟨argument, filling, rfl⟩ := List.mem_map.mp member
    obtain ⟨entry, place, follows⟩ := exists_mem_of_forall₂ inner filling
    exact follows fun name within =>
      unmarked name (Model.DataType.mem_names.mpr (.inr ⟨entry, place, within⟩))

/-- An enumeration has no marks, if its name has none. -/
theorem unmarked_enumeration (support : Spelled Unmarked context.support) {type : Model.DataType}
    (unmarked : ∀ name ∈ type.names, Spelled Unmarked name) :
    Spelled Unmarked ((scope.enumeration type).displayName context) := by
  unfold enumeration
  cases named : type.name with
  | none => exact (support.append (by decide)).append (by decide)
  | some declared =>
      have spelled := unmarked declared (Model.DataType.mem_names.mpr (.inl named))
      simp only
      split
      · exact (support.append (by decide)).append (by decide)
      · exact ScopedName.unmarked_displayName support spelled

/-- Elements are resolved only if there is one, of an enumeration. -/
theorem element_eq_ok {types : List Model.DataType} {found : EnumerationReference}
    (resolved : scope.element types = .ok found) :
    ∃ type, types = [type] ∧ type.kind = .enumeration ∧ found = scope.enumeration type := by
  unfold element at resolved
  split at resolved
  case h_1 type =>
    split at resolved
    case isTrue kind => exact ⟨type, rfl, kind, (Except.ok.inj resolved).symm⟩
    case isFalse => cases resolved
  case h_2 => cases resolved

namespace Resolves

variable {direction : Direction} {type : Model.DataType}

/-- The type of a scalar has no marks, if no name in it has one. -/
theorem unmarked_typeName {scalar : ScalarType}
    (resolves : scope.Resolves owner direction type (.scalar scalar))
    (support : Spelled Unmarked context.support)
    (unmarked : ∀ name ∈ type.names, Spelled Unmarked name) :
    Spelled Unmarked (scalar.typeName context) := by
  cases resolves with
  | scalar _ _ _ reference =>
      cases scalar with
      | enumeration found =>
          rw [reference found rfl]
          exact unmarked_enumeration support unmarked
      | boolean | integer | real | result | uuid | windowId =>
          exact ScalarType.unmarked_supportName _

/-- The handle of an object has no marks, if no name in it has one. -/
theorem unmarked_handleName {objectType : ObjectType}
    (resolves : scope.Resolves owner direction type (.object objectType))
    (support : Spelled Unmarked context.support)
    (parameters : ∀ name ∈ owner.templateArguments, Spelled Unmarked name)
    (unmarked : ∀ name ∈ type.names, Spelled Unmarked name) :
    Spelled Unmarked (objectType.handleName context) := by
  cases resolves with
  | object _ kind resolved =>
      have filled : scope.templateArgument owner type =
          .ok (.object objectType.interface objectType.arguments) := by
        rw [scope.templateArgument_eq_object owner kind, resolved]
        rfl
      have handle := unmarked_templateArgument support parameters filled unmarked
      rwa [TemplateArgument.handleName] at handle

end Resolves

end Scope

end IdlBindings
