import IdlBindings.Proofs.ArityLookup
import IdlBindings.Proofs.BindingInvariant

/-
This file says where the interfaces are declared that a binding takes for those of its own library.
-/

namespace IdlBindings

namespace Scope

variable {library : Model.Library} {libraries : List Model.Library} {name : String}

/-- A name without a qualifier is first looked for in the library, and then in all libraries. -/
theorem declared_of_hasArity_own {arity : Nat}
    (has : (ofLibrary library (ArityIndex.ofLibraries libraries).get?).HasArity
      (.named ⟨.own, name⟩) arity) :
    (∃ declared ∈ library.interfaces, declared.name = name ∧ declared.arity = arity) ∨
      (∀ declared ∈ library.interfaces, declared.name ≠ name) ∧
        ∃ declaration ∈ ArityIndex.declarations libraries,
          declaration.KnownAs name ∧ declaration.interface.arity = arity := by
  cases has with
  | @own earlier later interface declared _ =>
      have split : library.interfaces = earlier ++ interface :: later := declared
      exact .inl ⟨interface, by simp [split], rfl, rfl⟩
  | outside undeclared answer =>
      refine .inr ⟨undeclared rfl, ?_⟩
      change (ArityIndex.ofLibraries libraries).get? name = some arity at answer
      rw [ArityIndex.ofLibraries_eq_foldl] at answer
      exact ArityIndex.exists_of_get?_eq_some answer

/-- A name without a qualifier is taken for one of the library itself exactly if any of the
libraries declares it. -/
theorem exists_interface_eq_own_iff (listed : library ∈ libraries) (notBase : name ≠ baseInterface)
    (bare : ScopedName.splitQualifier name.toList = none) :
    (∃ arity, (ofLibrary library (ArityIndex.ofLibraries libraries).get?).interface name =
        .ok (.named ⟨.own, name⟩, arity)) ↔
      ∃ declaration ∈ ArityIndex.declarations libraries, declaration.KnownAs name := by
  have resolved : ScopedName.resolve library.name name = ⟨.own, name⟩ := by
    rw [ScopedName.resolve, bare]
  have referred : (ofLibrary library (ArityIndex.ofLibraries libraries).get?).referred name =
      .named ⟨.own, name⟩ := by
    rw [Scope.referred, if_neg notBase]
    exact congrArg ObjectInterface.named resolved
  rw [interface_eq, referred]
  constructor
  · rintro ⟨arity, found⟩
    split at found
    case h_1 value computed =>
      have has := (arityOf?_eq_some_iff _ _ _).mp computed
      rcases declared_of_hasArity_own has with ⟨declared, member, same, _⟩ | ⟨_, other, member, known⟩
      · have known : (⟨library.name, declared⟩ : ArityIndex.Declaration).KnownAs name :=
          .inl same.symm
        exact ⟨_, ArityIndex.mem_declarations.mpr ⟨library, listed, rfl, member⟩, known⟩
      · exact ⟨other, member, known.1⟩
    case h_2 => cases found
  · rintro ⟨declaration, member, known⟩
    have external := ArityIndex.isSome_get? member known
    rw [← ArityIndex.ofLibraries_eq_foldl] at external
    have answered : ((ofLibrary library (ArityIndex.ofLibraries libraries).get?).arityOf?
        (.named ⟨.own, name⟩)).isSome = true := by
      simp only [arityOf?]
      split
      · rfl
      · exact external
    obtain ⟨arity, computed⟩ := Option.isSome_iff_exists.mp answered
    exact ⟨arity, by rw [computed]⟩

end Scope

namespace Binding

/-- Every object that a binding takes for one of its own library is declared there. -/
def OwnReferencesDeclared (library : Model.Library) (bound : Library) : Prop :=
  ∀ interface ∈ bound.interfaces, ∀ method ∈ interface.methods, ∀ argument ∈ method.arguments,
    ∀ name arguments, argument.type.Holds (.object (.named ⟨.own, name⟩) arguments) →
      ∃ declared ∈ library.interfaces, declared.name = name

/-- An object that a binding takes for one of its own library is declared there, or in any of the
loaded libraries if it is not declared there. Such a name is not refused: a reference without a
qualifier is taken for one of the library itself whichever library declares it. -/
theorem own_references_declared_by_loaded_libraries {libraries : List Model.Library}
    {bound : Library}
    (built : build (ArityIndex.ofLibraries libraries).get? libraries = .ok bound) :
    ∃ library rest, libraries = library :: rest ∧
      (∀ interface ∈ bound.interfaces, ∀ method ∈ interface.methods,
        ∀ argument ∈ method.arguments, ∀ name arguments,
          argument.type.Holds (.object (.named ⟨.own, name⟩) arguments) →
            (∃ declared ∈ library.interfaces,
              declared.name = name ∧ declared.arity = arguments.length) ∨
            (∀ declared ∈ library.interfaces, declared.name ≠ name) ∧
              ∃ declaration ∈ ArityIndex.declarations libraries,
                declaration.KnownAs name ∧ declaration.interface.arity = arguments.length) ∧
      ∀ name, name ≠ Scope.baseInterface → ScopedName.splitQualifier name.toList = none →
        ((∃ arity, (Scope.ofLibrary library (ArityIndex.ofLibraries libraries).get?).interface name =
            .ok (.named ⟨.own, name⟩, arity)) ↔
          ∃ declaration ∈ ArityIndex.declarations libraries, declaration.KnownAs name) := by
  obtain ⟨library, rest, rfl, libraryBuilt⟩ := build_eq_ok built
  refine ⟨library, rest, rfl, ?_, fun name notBase bare =>
    Scope.exists_interface_eq_own_iff List.mem_cons_self notBase bare⟩
  intro interface ofLibrary method ofInterface argument ofMethod name arguments held
  have sound := Library.sound_of_ofModel libraryBuilt ofLibrary ofInterface ofMethod
  exact Scope.declared_of_hasArity_own (sound.parts _ held)

/-- A library that refers to an interface by its bare name. -/
def referringLibrary : Model.Library where
  name := "Thermo"
  uuid := ⟨List.replicate 16 6, rfl⟩
  interfaces := [{
    name := "IThing"
    uuid := ⟨List.replicate 16 7, rfl⟩
    methods := [{
      name := "Run"
      returnType := some { kind := .result }
      arguments := [⟨"extra", [⟨"in", none⟩], { kind := .interface, name := some "IExtra" }⟩] }] }]

/-- Another library, which declares the interface. -/
def declaringLibrary : Model.Library where
  name := "Extra"
  uuid := ⟨List.replicate 16 8, rfl⟩
  interfaces := [{ name := "IExtra", uuid := ⟨List.replicate 16 9, rfl⟩ }]

/-- A reference that only another library declares, which is accepted as one of its own library. -/
theorem own_references_declared_by_loaded_libraries_referringLibrary :
    ∃ bound,
      build (ArityIndex.ofLibraries [referringLibrary, declaringLibrary]).get?
        [referringLibrary, declaringLibrary] = .ok bound ∧
      ∀ interface ∈ bound.interfaces, ∀ method ∈ interface.methods,
        ∀ argument ∈ method.arguments, ∀ name arguments,
          argument.type.Holds (.object (.named ⟨.own, name⟩) arguments) →
            (∃ declared ∈ referringLibrary.interfaces,
              declared.name = name ∧ declared.arity = arguments.length) ∨
            (∀ declared ∈ referringLibrary.interfaces, declared.name ≠ name) ∧
              ∃ declaration ∈ ArityIndex.declarations [referringLibrary, declaringLibrary],
                declaration.KnownAs name ∧ declaration.interface.arity = arguments.length := by
  have built : build (ArityIndex.ofLibraries [referringLibrary, declaringLibrary]).get?
      [referringLibrary, declaringLibrary] = .ok _ := rfl
  obtain ⟨library, rest, split, references, _⟩ := own_references_declared_by_loaded_libraries built
  obtain ⟨rfl, rfl⟩ := List.cons.inj split
  exact ⟨_, built, references⟩

/-- The reference is resolved by the other library and taken for one of the first. -/
theorem own_references_undeclared_referringLibrary :
    ∃ bound,
      build (ArityIndex.ofLibraries [referringLibrary, declaringLibrary]).get?
        [referringLibrary, declaringLibrary] = .ok bound ∧
      ¬ OwnReferencesDeclared referringLibrary bound := by
  refine ⟨_, rfl, ?_⟩
  intro declared
  obtain ⟨interface, listed, same⟩ := declared _ List.mem_cons_self _ List.mem_cons_self _
    List.mem_cons_self "IExtra" [] .whole
  revert interface
  decide

end Binding

end IdlBindings
