import IdlBindings.Proofs.BindingInvariant
import IdlBindings.Proofs.Qualifier

/-
This file shows that a library may write its own name before the names it refers to, or leave it
out, wherever it likes.
-/

namespace IdlBindings

namespace ScopedName

/-- Before every `::` of the name stands a bracket. -/
def Unqualified (declared : String) : Prop :=
  ∀ before after, declared.toList = before ++ ':' :: ':' :: after → '<' ∈ before

/-- A name without a colon is unqualified. -/
theorem unqualified_of_not_mem {declared : String} (simple : ':' ∉ declared.toList) :
    Unqualified declared := by
  intro before after same
  rw [same] at simple
  simp at simple

/-- A text that is not parted has a bracket before each `::`. -/
theorem bracket_of_splitQualifier_eq_none {text : List Char} (whole : splitQualifier text = none) :
    ∀ before after, text = before ++ ':' :: ':' :: after → '<' ∈ before := by
  fun_induction splitQualifier text with
  | case1 => simp
  | case2 => cases whole
  | case3 character rest notHere bracket =>
      have isBracket : character = '<' := by simpa using bracket
      intro before after same
      cases before with
      | nil =>
          obtain ⟨colon, second⟩ := List.cons.inj same
          exact absurd second (notHere after colon)
      | cons head before =>
          obtain ⟨isHead, _⟩ := List.cons.inj same
          rw [← isHead, isBracket]
          exact List.mem_cons_self
  | case4 character rest notHere _ ih =>
      intro before after same
      cases before with
      | nil =>
          obtain ⟨colon, second⟩ := List.cons.inj same
          exact absurd second (notHere after colon)
      | cons head before =>
          obtain ⟨_, later⟩ := List.cons.inj same
          apply List.mem_cons_of_mem
          exact ih (Option.map_eq_none_iff.mp whole) before after later

/-- A name has no qualifier exactly if it is unqualified. -/
theorem splitQualifier_eq_none_iff (declared : String) :
    splitQualifier declared.toList = none ↔ Unqualified declared := by
  constructor
  · intro whole
    exact bracket_of_splitQualifier_eq_none whole
  · intro bare
    cases split : splitQualifier declared.toList with
    | none => rfl
    | some parts =>
        have parted := splitQualifier_eq_some_iff.mp split
        exact absurd (bare _ _ parted.whole) parted.unbracketed

variable {library declared : String}

/-- An unqualified name is one of its own library. -/
theorem resolve_of_unqualified (bare : Unqualified declared) :
    resolve library declared = ⟨.own, declared⟩ := by
  rw [resolve, (splitQualifier_eq_none_iff declared).mpr bare]

/-- A name that is qualified by its own library loses the qualifier. -/
theorem resolve_ownQualifier (simple : ':' ∉ library.toList) (unbracketed : '<' ∉ library.toList)
    (declared : String) :
    resolve library (ArityIndex.qualifiedName library declared) = ⟨.own, declared⟩ := by
  have split := splitQualifier_append simple declared.toList
  rw [if_neg unbracketed, ← ArityIndex.toList_qualifiedName] at split
  rw [resolve, split]
  simp [(originOf_eq_own_iff library library).mpr rfl]

end ScopedName

/-- Some of the names of a type, at any depth, get their own library as a qualifier. The names are
those of interfaces and enumerations, but not the two that the support library reserves, and they
have no qualifier yet. -/
inductive Model.DataType.Requalified (library : String) : Model.DataType → Model.DataType → Prop
  | kept {kind : Kind} {name : Option String} {index : Option UInt64}
      {types others : List Model.DataType}
      (filling : List.Forall₂ (Requalified library) types others) :
      Requalified library ⟨kind, name, index, types⟩ ⟨kind, name, index, others⟩
  | qualified {kind : Kind} {declared : String} {index : Option UInt64}
      {types others : List Model.DataType} (reference : kind = .interface ∨ kind = .enumeration)
      (notBase : declared ≠ Scope.baseInterface) (notGeneric : declared ≠ Scope.genericEnumeration)
      (bare : ScopedName.Unqualified declared)
      (filling : List.Forall₂ (Requalified library) types others) :
      Requalified library ⟨kind, some declared, index, types⟩
        ⟨kind, some (ArityIndex.qualifiedName library declared), index, others⟩

/-- Entries that are replaced by others with the same results have the same results in all. -/
theorem forall₂_iff_of_replaced {α β : Type} {replaced : α → α → Prop} {relation : α → β → Prop}
    {entries others : List α} (paired : List.Forall₂ replaced entries others)
    (same : ∀ entry ∈ entries, ∀ other, replaced entry other →
      ∀ result, relation entry result ↔ relation other result) (results : List β) :
    List.Forall₂ relation entries results ↔ List.Forall₂ relation others results := by
  induction paired generalizing results with
  | nil => rfl
  | @cons entry other entries others head _ ih =>
      obtain ⟨first, later⟩ := List.forall_mem_cons.mp same
      rw [List.forall₂_cons_left_iff, List.forall₂_cons_left_iff]
      simp only [first other head, ih later]

namespace Scope

/-- Two types of one kind that refer to the same. -/
structure Alike (scope : Scope) (type other : Model.DataType) : Prop where
  kind : other.kind = type.kind
  index : other.templateIndex = type.templateIndex
  referred : scope.referred other.typeName = scope.referred type.typeName
  enumeration : scope.enumeration other = scope.enumeration type
  filling : List.Forall₂ (Model.DataType.Requalified scope.library) type.templateTypes
    other.templateTypes

variable {scope : Scope} {owner : Model.Interface} {type other : Model.DataType}

/-- A name with its own library as a qualifier is taken for the name itself. -/
theorem alike_of_requalified (simple : ':' ∉ scope.library.toList)
    (unbracketed : '<' ∉ scope.library.toList)
    (requalified : type.Requalified scope.library other) : scope.Alike type other := by
  cases requalified with
  | kept filling => exact ⟨rfl, rfl, rfl, rfl, filling⟩
  | @qualified kind declared index types others reference notBase notGeneric bare filling =>
      have resolved : ScopedName.resolve scope.library
          (ArityIndex.qualifiedName scope.library declared) =
            ScopedName.resolve scope.library declared := by
        rw [ScopedName.resolve_ownQualifier simple unbracketed,
          ScopedName.resolve_of_unqualified bare]
      have colon := ArityIndex.colon_mem_qualifiedName scope.library declared
      have differs (reserved : String) (plain : ':' ∉ reserved.toList) :
          ArityIndex.qualifiedName scope.library declared ≠ reserved := by
        rintro rfl
        exact plain colon
      refine ⟨rfl, rfl, ?_, ?_, filling⟩
      · simp [referred, Model.DataType.typeName, notBase, resolved,
          differs baseInterface (by decide)]
      · simp [Scope.enumeration, notGeneric, resolved,
          differs genericEnumeration (by decide)]

/-- Types that are alike give one parameter. -/
theorem parameter_eq_ok_iff_of_alike (alike : scope.Alike type other) (found : Nat × String) :
    parameter owner type = .ok found ↔ parameter owner other = .ok found := by
  obtain ⟨index, name⟩ := found
  rw [parameter_eq_ok_iff, parameter_eq_ok_iff, alike.index]
  have empty : type.templateTypes = [] ↔ other.templateTypes = [] := by
    rw [← List.length_eq_zero_iff, ← List.length_eq_zero_iff, alike.filling.length_eq]
  rw [empty]

/-- Types that are alike give one object, if what fills them gives the same. -/
theorem object_eq_ok_iff_of_alike (owner : Model.Interface) (alike : scope.Alike type other)
    (same : ∀ inner ∈ type.templateTypes, ∀ otherInner,
      inner.Requalified scope.library otherInner → ∀ argument,
        scope.templateArgument owner inner = .ok argument ↔
          scope.templateArgument owner otherInner = .ok argument) (objectType : ObjectType) :
    scope.object owner type = .ok objectType ↔ scope.object owner other = .ok objectType := by
  have filled (interface : ObjectInterface) :
      scope.filledInterface type.typeName type.templateTypes.length = .ok interface ↔
        scope.filledInterface other.typeName other.templateTypes.length = .ok interface := by
    rw [filledInterface_eq_ok_iff, filledInterface_eq_ok_iff, alike.referred,
      alike.filling.length_eq]
  have arguments (arguments : List TemplateArgument) :
      scope.templateArguments owner type.templateTypes = .ok arguments ↔
        scope.templateArguments owner other.templateTypes = .ok arguments := by
    rw [templateArguments_eq_mapM, templateArguments_eq_mapM, mapM_eq_ok_iff, mapM_eq_ok_iff]
    exact forall₂_iff_of_replaced alike.filling same arguments
  simp only [object, bind_eq_ok_iff, filled, arguments]

section

variable (simple : ':' ∉ scope.library.toList) (unbracketed : '<' ∉ scope.library.toList)

include simple unbracketed

/-- A type that is qualified otherwise gives the same template argument, at any depth. -/
theorem templateArgument_eq_ok_iff_of_requalified
    (requalified : type.Requalified scope.library other) (argument : TemplateArgument) :
    scope.templateArgument owner type = .ok argument ↔
      scope.templateArgument owner other = .ok argument := by
  induction type using Model.DataType.induction generalizing other argument with
  | step type ih =>
      have alike := alike_of_requalified simple unbracketed requalified
      by_cases isParameter : type.kind = .templateArgument
      · rw [templateArgument_of_templateArgument scope owner isParameter,
          templateArgument_of_templateArgument scope owner (alike.kind.trans isParameter)]
        simp only [bind_eq_ok_iff, parameter_eq_ok_iff_of_alike alike]
      by_cases isInterface : type.kind = .interface
      · rw [templateArgument_eq_object scope owner isInterface,
          templateArgument_eq_object scope owner (alike.kind.trans isInterface)]
        have objects := object_eq_ok_iff_of_alike owner alike fun inner member _ replaced =>
          ih inner member replaced
        simp only [bind_eq_ok_iff, objects]
      · rw [templateArgument_of_other scope owner isParameter isInterface,
          templateArgument_of_other scope owner (alike.kind ▸ isParameter)
            (alike.kind ▸ isInterface)]
        simp

/-- The element of an array of enumerations is looked at like any other enumeration. -/
theorem element_eq_ok_iff_of_requalified {types others : List Model.DataType}
    (filling : List.Forall₂ (Model.DataType.Requalified scope.library) types others)
    (reference : EnumerationReference) :
    scope.element types = .ok reference ↔ scope.element others = .ok reference := by
  cases filling with
  | nil => rfl
  | @cons first second rest others head tail =>
      have alike := alike_of_requalified simple unbracketed head
      cases tail with
      | nil =>
          by_cases kind : first.kind = .enumeration <;>
            simp [element, alike.kind, alike.enumeration, kind]
      | cons _ _ => simp [element]

end

/-- A library whose name has neither a colon nor a bracket may qualify the names it refers to with
its own name, at any depth: what is bound for a type, and whether anything is, stays the same. -/
theorem argumentType_unchanged_by_own_qualifier {library : Model.Library}
    (simple : ':' ∉ library.name.toList) (unbracketed : '<' ∉ library.name.toList)
    (external : String → Option Nat) (owner : Model.Interface) (direction : Direction)
    (requalified : type.Requalified library.name other) (bound : ArgumentType) :
    (ofLibrary library external).argumentType owner direction type = .ok bound ↔
      (ofLibrary library external).argumentType owner direction other = .ok bound := by
  have alike : (ofLibrary library external).Alike type other :=
    alike_of_requalified simple unbracketed requalified
  unfold argumentType
  rw [alike.kind]
  cases kind : type.kind with
  | interface =>
      have objects := object_eq_ok_iff_of_alike owner alike fun _ _ _ replaced =>
        templateArgument_eq_ok_iff_of_requalified simple unbracketed replaced
      simp only [bind_eq_ok_iff, objects]
  | templateArgument => simp only [bind_eq_ok_iff, parameter_eq_ok_iff_of_alike alike]
  | enumeration => simp only [alike.enumeration]
  | arrayEnumeration =>
      have elements (reference : EnumerationReference) :=
        element_eq_ok_iff_of_requalified simple unbracketed alike.filling reference
      simp only [bind_eq_ok_iff, elements]
  | invalid => simp
  | _ => rfl

/-- A collection of collections of what fills the first place of the owner. -/
def nestedCollection (outer inner : String) : Model.DataType where
  kind := .interface
  name := some outer
  templateTypes := [{
    kind := .interface
    name := some inner
    templateTypes := [{ kind := .templateArgument, templateIndex := some 0 }] }]

/-- A nested collection, with and without the qualifier of its own library. -/
theorem argumentType_unchanged_by_own_qualifier_sampleLibrary :
    ∃ owner ∈ Binding.sampleLibrary.interfaces, ∃ bound,
      (ofLibrary Binding.sampleLibrary fun _ => none).argumentType owner .input
        (nestedCollection "ICollection" "ICollection") = .ok bound ∧
      (ofLibrary Binding.sampleLibrary fun _ => none).argumentType owner .input
        (nestedCollection "ICollection" "Thermo::ICollection") = .ok bound := by
  have bare : ScopedName.Unqualified "ICollection" :=
    ScopedName.unqualified_of_not_mem (by decide)
  have requalified : (nestedCollection "ICollection" "ICollection").Requalified "Thermo"
      (nestedCollection "ICollection" "Thermo::ICollection") := by
    refine .kept (.cons ?_ .nil)
    exact .qualified (.inl rfl) (by decide) (by decide) bare (.cons (.kept .nil) .nil)
  refine ⟨_, List.mem_cons_self, _, rfl, ?_⟩
  exact (argumentType_unchanged_by_own_qualifier (by decide) (by decide) _ _ _ requalified _).mp rfl

end Scope

end IdlBindings
