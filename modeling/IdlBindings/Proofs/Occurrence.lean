import IdlBindings.Proofs.DeclaredType

/-
This file says what occurs in the type of an argument, at any depth, and what the resolution of
a declared type guarantees about all of it.
-/

namespace IdlBindings

namespace TemplateArgument

/-- A fact about template arguments holds if it holds for parameters and passes from the arguments
of an object to the object. -/
theorem induction {motive : TemplateArgument → Prop}
    (parameterCase : ∀ name, motive (.parameter name))
    (objectCase : ∀ interface arguments, (∀ inner ∈ arguments, motive inner) →
      motive (.object interface arguments))
    (argument : TemplateArgument) : motive argument :=
  @TemplateArgument.rec motive (fun arguments => ∀ inner ∈ arguments, motive inner)
    parameterCase objectCase
    nofun
    (fun _ _ first others => List.forall_mem_cons.mpr ⟨first, others⟩)
    argument

/-- The whole occurs in itself, and so does what occurs in something that fills a place of it. -/
inductive Occurs (part : TemplateArgument) : TemplateArgument → Prop
  | whole : Occurs part part
  | inside {interface : ObjectInterface} {arguments : List TemplateArgument}
      {inner : TemplateArgument} (member : inner ∈ arguments) (occurs : Occurs part inner) :
      Occurs part (.object interface arguments)

/-- Nothing but itself occurs in a parameter. -/
theorem occurs_parameter_iff {part : TemplateArgument} {name : String} :
    Occurs part (.parameter name) ↔ part = .parameter name := by
  constructor
  · intro occurs
    cases occurs
    rfl
  · intro same
    subst same
    exact .whole

/-- A part occurs in an object as the object itself, or within what fills it. -/
theorem occurs_object_iff {part : TemplateArgument} {interface : ObjectInterface}
    {arguments : List TemplateArgument} :
    Occurs part (.object interface arguments) ↔
      part = .object interface arguments ∨ ∃ inner ∈ arguments, Occurs part inner := by
  constructor
  · intro occurs
    cases occurs with
    | whole => exact .inl rfl
    | inside member inner => exact .inr ⟨_, member, inner⟩
  · intro either
    rcases either with same | ⟨inner, member, occurs⟩
    · subst same
      exact .whole
    · exact .inside member occurs

/-- A parameter is one of the owning interface; an object has as many arguments as its interface
has places. -/
def Sound (scope : Scope) (parameters : List String) : TemplateArgument → Prop
  | parameter name => name ∈ parameters
  | object interface arguments => scope.HasArity interface arguments.length

end TemplateArgument

/-- What occurs in the type of an argument; only objects are made of parts. -/
def ArgumentType.Holds (part : TemplateArgument) : ArgumentType → Prop
  | object type => part.Occurs (.object type.interface type.arguments)
  | _ => False

namespace Scope

variable {scope : Scope} {owner : Model.Interface}

/-- Everything that occurs in a resolved type is sound. -/
theorem templateArgument_sound {type : Model.DataType} {argument : TemplateArgument}
    (resolved : scope.templateArgument owner type = .ok argument) :
    ∀ part : TemplateArgument, part.Occurs argument →
      part.Sound scope owner.templateArguments := by
  refine scope.templateArgument_induction owner (motive := fun _ argument =>
    ∀ part : TemplateArgument, part.Occurs argument → part.Sound scope owner.templateArguments)
    ?_ ?_ resolved
  · intro type index name _ found part occurs
    obtain rfl := TemplateArgument.occurs_parameter_iff.mp occurs
    obtain ⟨_, _, named⟩ := (parameter_eq_ok_iff owner type index name).mp found
    exact List.mem_of_getElem? named
  · intro type arguments _ arity inner part occurs
    rcases TemplateArgument.occurs_object_iff.mp occurs with same | ⟨argument, member, within⟩
    · subst same
      change scope.HasArity _ arguments.length
      rw [← inner.length_eq]
      exact arity
    · obtain ⟨_, _, sound⟩ := exists_mem_of_forall₂ inner member
      exact sound part within

/-- All that a resolved object holds is sound. -/
theorem object_sound {type : Model.DataType} {objectType : ObjectType}
    (kind : type.kind = .interface) (resolved : scope.object owner type = .ok objectType)
    {part : TemplateArgument} (held : (ArgumentType.object objectType).Holds part) :
    part.Sound scope owner.templateArguments := by
  apply templateArgument_sound _ part held
  · exact type
  · rw [scope.templateArgument_eq_object owner kind, resolved]
    rfl

end Scope

end IdlBindings
