import IdlBindings.Proofs.Arity
import IdlBindings.Proofs.Refusal

/-
This file opens the resolution of declared types: one equation for each kind of type that may
fill a place of a generic interface, and the induction over every type that is resolved.
-/

namespace IdlBindings

/-- A fact about declared types holds if it passes from the filling types to the filled one. -/
theorem Model.DataType.induction {motive : Model.DataType → Prop}
    (step : ∀ type : Model.DataType,
      (∀ inner ∈ type.templateTypes, motive inner) → motive type)
    (type : Model.DataType) : motive type :=
  @Model.DataType.rec motive (fun types => ∀ inner ∈ types, motive inner)
    (fun kind name index types inner => step ⟨kind, name, index, types⟩ inner)
    nofun
    (fun _ _ first others => List.forall_mem_cons.mpr ⟨first, others⟩)
    type

namespace Scope

/-- A template argument stands for the parameter at its index and is itself not filled. -/
theorem parameter_eq_ok_iff (owner : Model.Interface) (type : Model.DataType) (index : Nat)
    (name : String) :
    parameter owner type = .ok (index, name) ↔
      type.templateTypes = [] ∧ type.templateIndex.map UInt64.toNat = some index ∧
        owner.templateArguments[index]? = some name := by
  obtain ⟨kind, declared, position, types⟩ := type
  cases types with
  | cons first rest => simp [parameter]
  | nil =>
      cases position with
      | none => simp [parameter]
      | some position =>
          cases found : owner.templateArguments[position.toNat]? with
          | none =>
              simp only [parameter, List.isEmpty_nil, Bool.not_true, Bool.false_eq_true, if_false,
                found, reduceCtorEq, Option.map_some, Option.some.injEq, true_and, false_iff]
              rintro ⟨rfl, named⟩
              rw [found] at named
              cases named
          | some parameterName =>
              simp only [parameter, List.isEmpty_nil, Bool.not_true, Bool.false_eq_true, if_false,
                found, Except.ok.injEq, Prod.mk.injEq, Option.map_some, Option.some.injEq,
                true_and]
              constructor
              · rintro ⟨rfl, rfl⟩
                exact ⟨rfl, found⟩
              · rintro ⟨rfl, named⟩
                exact ⟨rfl, Option.some.inj (found.symm.trans named)⟩

variable (scope : Scope) (owner : Model.Interface)

/-- Template arguments are resolved one by one. -/
theorem templateArguments_eq_mapM (types : List Model.DataType) :
    scope.templateArguments owner types = types.mapM (scope.templateArgument owner) := by
  induction types with
  | nil =>
      rw [templateArguments, List.mapM_nil]
      rfl
  | cons type rest ih =>
      rw [templateArguments, List.mapM_cons, ih]

/-- A template argument is resolved as a parameter. -/
theorem templateArgument_of_templateArgument {type : Model.DataType}
    (kind : type.kind = .templateArgument) :
    scope.templateArgument owner type =
      (parameter owner type >>= fun found => .ok (.parameter found.2)) := by
  obtain ⟨_, name, index, types⟩ := type
  subst kind
  rw [templateArgument]
  rfl

/-- An interface is resolved first, and then what fills it. -/
theorem templateArgument_of_interface {type : Model.DataType} (kind : type.kind = .interface) :
    scope.templateArgument owner type =
      (scope.filledInterface type.typeName type.templateTypes.length >>= fun interface =>
        type.templateTypes.mapM (scope.templateArgument owner) >>= fun arguments =>
          .ok (.object interface arguments)) := by
  obtain ⟨_, name, index, types⟩ := type
  subst kind
  rw [templateArgument, templateArguments_eq_mapM]
  rfl

/-- An object is resolved the same way, wherever it stands. -/
theorem templateArgument_eq_object {type : Model.DataType} (kind : type.kind = .interface) :
    scope.templateArgument owner type =
      (scope.object owner type >>= fun objectType =>
        .ok (.object objectType.interface objectType.arguments)) := by
  rw [templateArgument_of_interface scope owner kind, object, templateArguments_eq_mapM]
  cases scope.filledInterface type.typeName type.templateTypes.length with
  | error fault => rfl
  | ok interface => cases type.templateTypes.mapM (scope.templateArgument owner) <;> rfl

/-- Nothing else can be a template argument. -/
theorem templateArgument_of_other {type : Model.DataType}
    (notParameter : type.kind ≠ .templateArgument) (notInterface : type.kind ≠ .interface) :
    scope.templateArgument owner type = .error (.invalidTemplateArgument type.typeName) := by
  obtain ⟨kind, name, index, types⟩ := type
  cases kind with
  | templateArgument => exact absurd rfl notParameter
  | interface => exact absurd rfl notInterface
  | _ => rw [templateArgument] <;> simp

/-- A fact about a resolved type and its resolution holds if it holds for parameters and passes
from the filling types to the filled interface. -/
theorem templateArgument_induction {motive : Model.DataType → TemplateArgument → Prop}
    (parameterCase : ∀ type index name, type.kind = .templateArgument →
      parameter owner type = .ok (index, name) → motive type (.parameter name))
    (interfaceCase : ∀ type arguments, type.kind = .interface →
      scope.HasArity (scope.referred type.typeName) type.templateTypes.length →
      List.Forall₂ motive type.templateTypes arguments →
      motive type (.object (scope.referred type.typeName) arguments))
    {type : Model.DataType} {argument : TemplateArgument}
    (resolved : scope.templateArgument owner type = .ok argument) : motive type argument := by
  induction type using Model.DataType.induction generalizing argument with
  | step type ih =>
      by_cases isParameter : type.kind = .templateArgument
      · rw [templateArgument_of_templateArgument scope owner isParameter] at resolved
        obtain ⟨⟨index, name⟩, found, same⟩ := bind_eq_ok_iff.mp resolved
        cases same
        exact parameterCase type index name isParameter found
      by_cases isInterface : type.kind = .interface
      · rw [templateArgument_of_interface scope owner isInterface] at resolved
        obtain ⟨interface, filled, rest⟩ := bind_eq_ok_iff.mp resolved
        obtain ⟨arguments, inner, same⟩ := bind_eq_ok_iff.mp rest
        cases same
        obtain ⟨rfl, arity⟩ := (scope.filledInterface_eq_ok_iff _ _ _).mp filled
        refine interfaceCase type arguments isInterface arity ?_
        exact forall₂_of_mem (mapM_eq_ok_iff.mp inner) fun entry argument member =>
          ih entry member
      · rw [templateArgument_of_other scope owner isParameter isInterface] at resolved
        cases resolved

end Scope

end IdlBindings
