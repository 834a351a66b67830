import IdlBindings.Proofs.ArityAgreement
import IdlBindings.Proofs.BindingInvariant
import IdlBindings.Proofs.Reference
import IdlBindings.Source.File

/-
This file says what the source of the first library owes to the other ones. Once there is a source,
more libraries do not change it, and a library that declares its own references does not see the
order of the others.
-/

namespace IdlBindings

namespace ArityIndex

variable {libraries : List Model.Library} {key : String}

/-- What an index knows is not changed by libraries of other names. -/
theorem get?_append_of_known {extra : List Model.Library}
    (simple : ∀ library ∈ libraries ++ extra, library.SimplyNamed)
    (fresh : ∀ other ∈ extra, ∀ library ∈ libraries, other.name ≠ library.name) {arity : Nat}
    (known : (ofLibraries libraries).get? key = some arity) :
    (ofLibraries (libraries ++ extra)).get? key = some arity := by
  have together : declarations (libraries ++ extra) =
      declarations libraries ++ declarations extra := List.flatMap_append
  rw [ofLibraries_eq_foldl] at known
  rw [ofLibraries_eq_foldl, together, List.foldl_append]
  refine get?_foldl_add_of_known known fun added member named => ?_
  obtain ⟨other, inExtra, ofOther, _⟩ := mem_declarations.mp member
  have otherSimple := simple other (List.mem_append_right _ inExtra)
  obtain ⟨declaration, earlier, knownAs, _⟩ := exists_of_get?_eq_some known
  obtain ⟨library, inLibraries, ofLibrary, declared⟩ := mem_declarations.mp earlier
  have librarySimple := simple library (List.mem_append_left _ inLibraries)
  rw [Declaration.qualifiedName, ofOther] at named
  rcases knownAs with bare | qualified
  · apply librarySimple.interfaces _ declared
    rw [← bare, named]
    exact colon_mem_qualifiedName _ _
  · rw [Declaration.qualifiedName, ofLibrary] at qualified
    have sameName :=
      (qualifiedName_eq_iff otherSimple.name librarySimple.name).mp (named.symm.trans qualified)
    exact fresh other inExtra library inLibraries sameName.1

/-- The order of libraries does not matter for a qualified name. -/
theorem get?_perm {permuted : List Model.Library} (permutation : libraries.Perm permuted)
    (distinct : (libraries.map Model.Library.name).Nodup)
    (simple : ∀ library ∈ libraries, library.SimplyNamed) (colon : ':' ∈ key.toList) :
    (ofLibraries libraries).get? key = (ofLibraries permuted).get? key := by
  have permutedSimple : ∀ library ∈ permuted, library.SimplyNamed := fun library listed =>
    simple library (permutation.mem_iff.mpr listed)
  have permutedDistinct := (permutation.map Model.Library.name).nodup_iff.mp distinct
  by_cases declares : ∃ library ∈ libraries, ∃ interface ∈ library.interfaces,
      key = qualifiedName library.name interface.name
  · obtain ⟨library, listed, interface, member, rfl⟩ := declares
    have present : ∃ other ∈ library.interfaces, other.name = interface.name :=
      ⟨interface, member, rfl⟩
    obtain ⟨earlier, found, later, declared, sameName, last⟩ := exists_last_split present
    rw [← sameName] at last ⊢
    rw [get?_qualifiedName distinct simple listed declared last,
      get?_qualifiedName permutedDistinct permutedSimple (permutation.mem_iff.mp listed) declared
        last]
  · -- A name with a colon is not bare, so that it is not known in either order.
    have unknown {loaded : List Model.Library} (among : ∀ library ∈ loaded, library ∈ libraries) :
        (ofLibraries loaded).get? key = none := by
      rw [ofLibraries_eq_foldl]
      refine get?_foldl_add_of_unknown fun declaration member knownAs => ?_
      obtain ⟨library, listed, ofLibrary, declared⟩ := mem_declarations.mp member
      rcases knownAs with bare | qualified
      · exact (simple library (among library listed)).interfaces _ declared (bare ▸ colon)
      · rw [Declaration.qualifiedName, ofLibrary] at qualified
        exact declares ⟨library, among library listed, _, declared, qualified⟩
    rw [unknown fun _ listed => listed, unknown fun _ listed => permutation.mem_iff.mpr listed]

end ArityIndex

namespace Scope

variable {library : Model.Library} {external other : String → Option Nat} {declared : String}

/-- Other surroundings give an interface the same arity, unless they are asked and answer
otherwise. They are only asked for what the library does not declare. -/
theorem HasArity.transfer {interface : ObjectInterface} {arity : Nat}
    (has : (ofLibrary library external).HasArity interface arity)
    (answers : ∀ name, interface = .named name →
      (name.origin = .own → ∀ own ∈ library.interfaces, own.name ≠ name.name) →
        external name.lookupName = some arity → other name.lookupName = some arity) :
    (ofLibrary library other).HasArity interface arity := by
  cases has with
  | base => exact .base
  | own split last => exact .own split last
  | outside undeclared answer => exact .outside undeclared (answers _ rfl undeclared answer)

/-- A name is found alike if what it refers to has one arity. -/
theorem interface_eq_of_arityOf?_eq
    (same : (ofLibrary library external).arityOf? ((ofLibrary library external).referred declared) =
      (ofLibrary library other).arityOf? ((ofLibrary library other).referred declared)) :
    (ofLibrary library external).interface declared =
      (ofLibrary library other).interface declared := by
  rw [interface_eq, interface_eq, same]
  rfl

/-- Surroundings that know more do not change what the references of a built library mean. -/
theorem agreeOn_of_extends {bound : Binding.Library}
    (built : Binding.Library.ofModel external library = .ok bound)
    (extend : ∀ key arity, external key = some arity → other key = some arity) :
    (ofLibrary library external).AgreeOn (ofLibrary library other) library.references := by
  refine ⟨rfl, fun declared refers => interface_eq_of_arityOf?_eq ?_⟩
  obtain ⟨arity, has⟩ := Binding.Library.exists_hasArity built refers
  have hasOther : (ofLibrary library other).HasArity
      ((ofLibrary library other).referred declared) arity :=
    has.transfer fun name _ _ => extend name.lookupName arity
  rw [(arityOf?_eq_some_iff _ _ _).mpr has, (arityOf?_eq_some_iff _ _ _).mpr hasOther]

/-- A library that declares its own references asks its surroundings for qualified names only. -/
theorem colon_mem_lookupName (closed : library.DeclaresOwnReferences)
    (refers : declared ∈ library.references) {name : ScopedName}
    (refersTo : (ofLibrary library external).referred declared = .named name)
    (undeclared : name.origin = .own → ∀ own ∈ library.interfaces, own.name ≠ name.name) :
    ':' ∈ name.lookupName.toList := by
  unfold referred at refersTo
  split at refersTo
  case isTrue => cases refersTo
  case isFalse notBase =>
    have resolved : ScopedName.resolve library.name declared = name :=
      ObjectInterface.named.inj refersTo
    have elsewhere : name.origin ≠ .own := by
      intro own
      rw [← resolved] at own undeclared
      obtain ⟨interface, member, sameName⟩ := closed declared refers notBase own
      exact undeclared own interface member sameName
    rw [← resolved] at elsewhere ⊢
    obtain ⟨colon, lookup⟩ := ScopedName.lookupName_resolve elsewhere
    rw [lookup]
    exact colon

/-- Surroundings that agree on qualified names cannot be told apart by a library that declares its
own references. -/
theorem agreeOn_of_declaresOwnReferences (closed : library.DeclaresOwnReferences)
    (same : ∀ key : String, ':' ∈ key.toList → external key = other key) :
    (ofLibrary library external).AgreeOn (ofLibrary library other) library.references := by
  refine ⟨rfl, fun declared refers => interface_eq_of_arityOf?_eq ?_⟩
  apply Option.ext
  intro arity
  rw [arityOf?_eq_some_iff, arityOf?_eq_some_iff]
  constructor
  · intro has
    refine has.transfer fun name refersTo undeclared answer => ?_
    rwa [← same _ (colon_mem_lookupName closed refers refersTo undeclared)]
  · intro has
    refine has.transfer fun name refersTo undeclared answer => ?_
    rwa [same _ (colon_mem_lookupName closed refers refersTo undeclared)]

end Scope

namespace Source

open Scope (partsLibrary spareLibrary)

/-- The other libraries come into the source only through what the references of the first mean. -/
theorem generate_congr {library : Model.Library} {external other : String → Option Nat}
    (agree : (Scope.ofLibrary library external).AgreeOn (Scope.ofLibrary library other)
      library.references)
    (options : Options) (rest others : List Model.Library) :
    generate options external (library :: rest) = generate options other (library :: others) := by
  rw [generate, generate, Binding.build, Binding.build, Binding.Library.ofModel_congr agree]

/-- Once there is a source, loading more libraries under other names does not change it. -/
theorem generate_unchanged_by_more_libraries {libraries extra : List Model.Library}
    (simple : ∀ library ∈ libraries ++ extra, library.SimplyNamed)
    (fresh : ∀ other ∈ extra, ∀ library ∈ libraries, other.name ≠ library.name)
    {options : Options} {code : String}
    (generated : generate options (ArityIndex.ofLibraries libraries).get? libraries = .ok code) :
    generate options (ArityIndex.ofLibraries (libraries ++ extra)).get? (libraries ++ extra) =
      .ok code := by
  obtain ⟨bound, built, _⟩ := bind_eq_ok_iff.mp generated
  obtain ⟨library, rest, rfl, libraryBuilt⟩ := Binding.build_eq_ok built
  have agree := Scope.agreeOn_of_extends libraryBuilt fun key arity known =>
    ArityIndex.get?_append_of_known simple fresh known
  rw [← generated]
  exact (generate_congr agree options rest (rest ++ extra)).symm

/-- A library that fills an interface of another one with its own. -/
def storeLibrary : Model.Library where
  name := "Store"
  uuid := ⟨List.replicate 16 16, rfl⟩
  interfaces := [{
    name := "IShelf"
    uuid := ⟨List.replicate 16 17, rfl⟩
    methods := [{
      name := "Fill"
      returnType := some { kind := .result }
      arguments := [
        ⟨"boxes", [⟨"in", none⟩],
          { kind := .interface
            name := some "Parts::IBox"
            templateTypes := [{ kind := .interface, name := some "IShelf" }] }⟩,
        ⟨"owner", [⟨"in", none⟩], { kind := .interface }⟩] }] }]

/-- A library whose text is the same with one library more. -/
theorem generate_unchanged_by_more_libraries_storeLibrary :
    ∃ code,
      generate {} (ArityIndex.ofLibraries [storeLibrary, partsLibrary]).get?
        [storeLibrary, partsLibrary] = .ok code ∧
      generate {} (ArityIndex.ofLibraries [storeLibrary, partsLibrary, spareLibrary]).get?
        [storeLibrary, partsLibrary, spareLibrary] = .ok code := by
  have generated : generate {} (ArityIndex.ofLibraries [storeLibrary, partsLibrary]).get?
      [storeLibrary, partsLibrary] = .ok _ := rfl
  have simple : ∀ library ∈ [storeLibrary, partsLibrary] ++ [spareLibrary],
      library.SimplyNamed := by
    decide
  have fresh : ∀ other ∈ [spareLibrary], ∀ library ∈ [storeLibrary, partsLibrary],
      other.name ≠ library.name := by
    decide
  exact ⟨_, generated, generate_unchanged_by_more_libraries simple fresh generated⟩

/-- If libraries have their names for themselves and no name has a colon, then a first library that
declares its own references gives the same, source or fault, in whatever order the others are
loaded. -/
theorem generate_independent_of_order {library : Model.Library}
    {rest permuted : List Model.Library} (permutation : rest.Perm permuted)
    (distinct : ((library :: rest).map Model.Library.name).Nodup)
    (simple : ∀ other ∈ library :: rest, other.SimplyNamed)
    (closed : library.DeclaresOwnReferences) (options : Options) :
    generate options (ArityIndex.ofLibraries (library :: rest)).get? (library :: rest) =
      generate options (ArityIndex.ofLibraries (library :: permuted)).get?
        (library :: permuted) := by
  have agree := Scope.agreeOn_of_declaresOwnReferences closed fun key colon =>
    ArityIndex.get?_perm (permutation.cons library) distinct simple colon
  exact generate_congr agree options rest permuted

/-- A library whose text is the same with the others in another order. -/
theorem generate_independent_of_order_storeLibrary :
    [partsLibrary, spareLibrary].Perm [spareLibrary, partsLibrary] ∧
      generate {} (ArityIndex.ofLibraries [storeLibrary, partsLibrary, spareLibrary]).get?
          [storeLibrary, partsLibrary, spareLibrary] =
        generate {} (ArityIndex.ofLibraries [storeLibrary, spareLibrary, partsLibrary]).get?
          [storeLibrary, spareLibrary, partsLibrary] := by
  have permutation : [partsLibrary, spareLibrary].Perm [spareLibrary, partsLibrary] := .swap _ _ _
  have distinct : ([storeLibrary, partsLibrary, spareLibrary].map Model.Library.name).Nodup := by
    decide
  have simple : ∀ library ∈ [storeLibrary, partsLibrary, spareLibrary],
      library.SimplyNamed := by
    decide
  have closed : storeLibrary.DeclaresOwnReferences := by
    unfold Model.Library.DeclaresOwnReferences
    decide
  exact ⟨permutation, generate_independent_of_order permutation distinct simple closed {}⟩

end Source

end IdlBindings
