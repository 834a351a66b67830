import IdlBindings.Scope
import Mathlib.Data.List.Basic

/-
This file says what the arity of an interface is, and shows that a scope finds exactly that.
-/

namespace IdlBindings.Scope

/-- The base interface has no places to fill. An interface of the library itself has those of its
last declaration. Any other has the number that the surroundings give for its qualified name. -/
inductive HasArity (scope : Scope) : ObjectInterface → Nat → Prop
  | base : HasArity scope .base 0
  | own {earlier later : List Model.Interface} {interface : Model.Interface}
      (declared : scope.interfaces = earlier ++ interface :: later)
      (last : ∀ other ∈ later, other.name ≠ interface.name) :
      HasArity scope (.named ⟨.own, interface.name⟩) interface.templateArguments.length
  | outside {name : ScopedName} {arity : Nat}
      (undeclared : name.origin = .own →
        ∀ interface ∈ scope.interfaces, interface.name ≠ name.name)
      (answer : scope.external name.lookupName = some arity) :
      HasArity scope (.named name) arity

/-- The arity, computed from all declarations of the name. -/
def arityOf? (scope : Scope) : ObjectInterface → Option Nat
  | .base => some 0
  | .named name =>
      let declarations := scope.interfaces.filter fun interface => interface.name == name.name
      match name.origin, declarations.getLast? with
      | .own, some interface => some interface.templateArguments.length
      | _, _ => scope.external name.lookupName

/-- The scope looks a name up as a named object. -/
theorem arity?_eq_arityOf? (scope : Scope) (name : ScopedName) :
    scope.arity? name = scope.arityOf? (.named name) := by
  obtain ⟨origin, text⟩ := name
  cases origin with
  | own =>
      simp only [arity?, ownArity?, arityOf?, List.getLast?_filter]
      cases scope.interfaces.reverse.find? fun interface => interface.name == text <;> rfl
  | wellKnown space aliasName => rfl
  | foreign space => rfl

/-- The last declaration of a name is followed by declarations of other names only. -/
theorem getLast?_declarations_eq_some_iff (interfaces : List Model.Interface) (name : String)
    (interface : Model.Interface) :
    (interfaces.filter fun other => other.name == name).getLast? = some interface ↔
      interface.name = name ∧ ∃ earlier later, interfaces = earlier ++ interface :: later ∧
        ∀ other ∈ later, other.name ≠ name := by
  rw [List.getLast?_filter, List.find?_eq_some_iff_append]
  constructor
  · rintro ⟨named, later, earlier, split, absent⟩
    refine ⟨by simpa using named, earlier.reverse, later.reverse, ?_, ?_⟩
    · rw [← List.reverse_reverse interfaces, split]
      simp
    · intro other member
      simpa using absent other (List.mem_reverse.mp member)
  · rintro ⟨named, earlier, later, rfl, absent⟩
    refine ⟨by simpa using named, later.reverse, earlier.reverse, by simp, ?_⟩
    intro other member
    simpa using absent other (List.mem_reverse.mp member)

/-- A name has no last declaration exactly if nothing declares it. -/
theorem getLast?_declarations_eq_none_iff (interfaces : List Model.Interface) (name : String) :
    (interfaces.filter fun other => other.name == name).getLast? = none ↔
      ∀ interface ∈ interfaces, interface.name ≠ name := by
  simp [List.getLast?_filter]

/-- The computed arity is the arity. -/
theorem arityOf?_eq_some_iff (scope : Scope) (interface : ObjectInterface) (arity : Nat) :
    scope.arityOf? interface = some arity ↔ scope.HasArity interface arity := by
  constructor
  · intro computed
    cases interface with
    | base =>
        cases computed
        exact .base
    | named name =>
        obtain ⟨origin, text⟩ := name
        cases origin with
        | own =>
            simp only [arityOf?] at computed
            cases found : (scope.interfaces.filter fun other => other.name == text).getLast? with
            | none =>
                rw [found] at computed
                exact .outside
                  (fun _ => (getLast?_declarations_eq_none_iff scope.interfaces text).mp found)
                  computed
            | some declaration =>
                obtain ⟨rfl, earlier, later, split, last⟩ :=
                  (getLast?_declarations_eq_some_iff scope.interfaces text declaration).mp found
                rw [found] at computed
                cases computed
                exact .own split last
        | wellKnown space aliasName => exact .outside nofun computed
        | foreign space => exact .outside nofun computed
  · intro arityIs
    cases arityIs with
    | base => rfl
    | @own earlier later declaration split last =>
        have found := (getLast?_declarations_eq_some_iff scope.interfaces declaration.name
          declaration).mpr ⟨rfl, earlier, later, split, last⟩
        simp only [arityOf?, found]
    | @outside name _ undeclared answer =>
        obtain ⟨origin, text⟩ := name
        cases origin with
        | own =>
            have found := (getLast?_declarations_eq_none_iff scope.interfaces text).mpr
              (undeclared rfl)
            simp only [arityOf?, found, answer]
        | wellKnown space aliasName => exact answer
        | foreign space => exact answer

/-- The interface that a declared name refers to. -/
def referred (scope : Scope) (declared : String) : ObjectInterface :=
  if declared = baseInterface then .base else .named (ScopedName.resolve scope.library declared)

/-- An interface is found by the arity of what its name refers to. -/
theorem interface_eq (scope : Scope) (declared : String) :
    scope.interface declared =
      match scope.arityOf? (scope.referred declared) with
      | some arity => .ok (scope.referred declared, arity)
      | none => .error (.unresolvedInterface declared) := by
  by_cases isBase : declared = baseInterface
  · simp [interface, referred, isBase, arityOf?]
  · have resolved : scope.referred declared =
        .named (ScopedName.resolve scope.library declared) := if_neg isBase
    rw [resolved]
    cases computed : scope.arityOf? (.named (ScopedName.resolve scope.library declared)) <;>
      simp [interface, isBase, arity?_eq_arityOf?, computed]

/-- A reference with the right number of arguments is what is accepted. -/
theorem filledInterface_eq_ok_iff (scope : Scope) (declared : String) (found : Nat)
    (interface : ObjectInterface) :
    scope.filledInterface declared found = .ok interface ↔
      interface = scope.referred declared ∧ scope.HasArity interface found := by
  rw [filledInterface, interface_eq]
  cases computed : scope.arityOf? (scope.referred declared) with
  | none =>
      simp only [reduceCtorEq, false_iff, not_and]
      rintro rfl arityIs
      rw [(scope.arityOf?_eq_some_iff _ found).mpr arityIs] at computed
      cases computed
  | some arity =>
      have arityIs := (scope.arityOf?_eq_some_iff _ arity).mp computed
      by_cases same : arity = found
      · subst same
        simp only [if_true, Except.ok.injEq]
        constructor
        · rintro rfl
          exact ⟨rfl, arityIs⟩
        · rintro ⟨rfl, -⟩
          rfl
      · simp only [if_neg same, reduceCtorEq, false_iff, not_and]
        rintro rfl other
        rw [(scope.arityOf?_eq_some_iff _ found).mpr other] at computed
        exact same (Option.some.inj computed).symm

end IdlBindings.Scope
