import IdlBindings.Proofs.Arity
import IdlBindings.Proofs.ArityLookup
import IdlBindings.Proofs.Qualifier
import Mathlib.Data.List.Nodup

/-
This file compares the two places where the arity of an interface is found: the declarations of a
library itself, and the index over all libraries.
-/

namespace IdlBindings

/-- Neither the library nor any of its interfaces has a colon in its name. -/
structure Model.Library.SimplyNamed (library : Model.Library) : Prop where
  name : ':' ∉ library.name.toList
  interfaces : ∀ interface ∈ library.interfaces, ':' ∉ interface.name.toList

instance (library : Model.Library) : Decidable library.SimplyNamed :=
  have := List.decidableBAll (fun interface : Model.Interface => ':' ∉ interface.name.toList)
    library.interfaces
  decidable_of_iff (':' ∉ library.name.toList ∧
      ∀ interface ∈ library.interfaces, ':' ∉ interface.name.toList)
    ⟨fun both => ⟨both.1, both.2⟩, fun named => ⟨named.name, named.interfaces⟩⟩

variable {libraries : List Model.Library}

namespace ArityIndex

/-- The index knows a qualified interface by the last declaration of it in its library. -/
theorem get?_qualifiedName (distinct : (libraries.map Model.Library.name).Nodup)
    (simple : ∀ library ∈ libraries, library.SimplyNamed) {library : Model.Library}
    (listed : library ∈ libraries) {earlier later : List Model.Interface}
    {interface : Model.Interface} (declared : library.interfaces = earlier ++ interface :: later)
    (last : ∀ other ∈ later, other.name ≠ interface.name) :
    (ofLibraries libraries).get? (qualifiedName library.name interface.name) =
      some interface.templateArguments.length := by
  obtain ⟨before, after, rfl⟩ := List.append_of_mem listed
  have split : declarations (before ++ library :: after) =
      (declarations before ++ earlier.map (Declaration.mk library.name)) ++
        Declaration.mk library.name interface ::
          (later.map (Declaration.mk library.name) ++ declarations after) := by
    simp [declarations, declared]
  rw [ofLibraries_eq_foldl]
  refine get?_eq_of_answers (.qualified split rfl ?_)
  intro other member same
  rcases List.mem_append.mp member with inLibrary | inAfter
  · obtain ⟨otherInterface, isLater, rfl⟩ := List.mem_map.mp inLibrary
    obtain ⟨_, sameName⟩ :=
      (qualifiedName_eq_iff (simple library listed).name (simple library listed).name).mp same
    exact last otherInterface isLater sameName.symm
  · obtain ⟨otherLibrary, isAfter, ofLibrary, _⟩ := mem_declarations.mp inAfter
    have otherSimple : ':' ∉ other.library.toList := by
      rw [ofLibrary]
      exact (simple otherLibrary (by simp [isAfter])).name
    obtain ⟨sameLibrary, _⟩ :=
      (qualifiedName_eq_iff (simple library listed).name otherSimple).mp same
    -- A library has its name for itself, so none that comes after has it too.
    have apart : library.name ∉ after.map Model.Library.name := by
      rw [List.map_append, List.map_cons] at distinct
      exact (List.nodup_cons.mp distinct.of_append_right).1
    exact apart (List.mem_map.mpr ⟨otherLibrary, isAfter, (sameLibrary.trans ofLibrary).symm⟩)

end ArityIndex

namespace Scope

/-- The arity that a library finds for a reference as it is written. -/
def referenceArity? (scope : Scope) (declared : String) : Option Nat :=
  scope.arity? (ScopedName.resolve scope.library declared)

/-- A reference has the arity of the object that its name is resolved to. -/
theorem referenceArity?_eq_some_iff {scope : Scope} {declared : String} {arity : Nat} :
    scope.referenceArity? declared = some arity ↔
      scope.HasArity (.named (ScopedName.resolve scope.library declared)) arity := by
  rw [referenceArity?, arity?_eq_arityOf?, arityOf?_eq_some_iff]

variable {library : Model.Library} {earlier later : List Model.Interface}
  {interface : Model.Interface}

/-- A bare name has the arity of its last declaration in the library. -/
theorem referenceArity?_of_bare (simple : library.SimplyNamed) (external : String → Option Nat)
    (declared : library.interfaces = earlier ++ interface :: later)
    (last : ∀ other ∈ later, other.name ≠ interface.name) :
    (ofLibrary library external).referenceArity? interface.name =
      some interface.templateArguments.length := by
  have member : interface ∈ library.interfaces := by simp [declared]
  rw [referenceArity?_eq_some_iff,
    ScopedName.resolve_of_not_mem (simple.interfaces interface member)]
  exact .own declared last

/-- A qualified name has the arity of the last declaration in the library it names, from wherever it
is used. -/
theorem referenceArity?_of_qualified (distinct : (libraries.map Model.Library.name).Nodup)
    (simple : ∀ library ∈ libraries, library.SimplyNamed) {user : Model.Library}
    (userListed : user ∈ libraries) (listed : library ∈ libraries)
    (declared : library.interfaces = earlier ++ interface :: later)
    (last : ∀ other ∈ later, other.name ≠ interface.name) :
    (ofLibrary user (ArityIndex.ofLibraries libraries).get?).referenceArity?
        (ArityIndex.qualifiedName library.name interface.name) =
      some interface.templateArguments.length := by
  rw [referenceArity?_eq_some_iff]
  change HasArity _ (.named (ScopedName.resolve user.name _)) _
  rcases ScopedName.resolve_qualifiedName (simple library listed).name user.name interface.name
    with ⟨sameName, resolved⟩ | ⟨lookup, ownName⟩
  · obtain rfl := List.inj_on_of_nodup_map distinct listed userListed sameName
    rw [resolved]
    exact .own declared last
  · refine .outside ?_ ?_
    · -- A name that keeps its qualifier is not the name of an interface.
      intro own other member sameName
      apply (simple user userListed).interfaces other member
      rw [sameName, ownName own]
      exact ArityIndex.colon_mem_qualifiedName _ _
    · rw [lookup]
      exact ArityIndex.get?_qualifiedName distinct simple listed declared last

/-- If libraries have their names for themselves and no name has a colon, then a qualified name
has the same arity in all of them, which is also that of the bare name in the library itself: the
arity of the last interface that the library declares under the name. -/
theorem arity_of_reference_agrees (distinct : (libraries.map Model.Library.name).Nodup)
    (simple : ∀ library ∈ libraries, library.SimplyNamed) (listed : library ∈ libraries)
    {name : String} (declares : ∃ interface ∈ library.interfaces, interface.name = name) :
    ∃ earlier interface later, library.interfaces = earlier ++ interface :: later ∧
      interface.name = name ∧ (∀ other ∈ later, other.name ≠ name) ∧
      (∀ user ∈ libraries,
        (ofLibrary user (ArityIndex.ofLibraries libraries).get?).referenceArity?
            (ArityIndex.qualifiedName library.name name) =
          some interface.templateArguments.length) ∧
      (ofLibrary library (ArityIndex.ofLibraries libraries).get?).referenceArity? name =
        some interface.templateArguments.length ∧
      (ofLibrary library (ArityIndex.ofLibraries libraries).get?).referenceArity?
          (ArityIndex.qualifiedName library.name name) =
        some interface.templateArguments.length := by
  obtain ⟨earlier, interface, later, declared, rfl, last⟩ := exists_last_split declares
  have qualified := fun user (userListed : user ∈ libraries) =>
    referenceArity?_of_qualified distinct simple userListed listed declared last
  exact ⟨earlier, interface, later, declared, rfl, last, qualified,
    referenceArity?_of_bare (simple library listed) _ declared last, qualified library listed⟩

/-- A library that declares an interface twice, with different numbers of places. -/
def partsLibrary : Model.Library where
  name := "Parts"
  uuid := ⟨List.replicate 16 10, rfl⟩
  interfaces := [
    { name := "IBox", uuid := ⟨List.replicate 16 11, rfl⟩, templateArguments := ["First", "Second"] },
    { name := "IBox", uuid := ⟨List.replicate 16 12, rfl⟩, templateArguments := ["Item"] }]

/-- A library with interfaces of the same bare names as in other libraries. -/
def spareLibrary : Model.Library where
  name := "Spare"
  uuid := ⟨List.replicate 16 13, rfl⟩
  interfaces := [
    { name := "IBox", uuid := ⟨List.replicate 16 14, rfl⟩ },
    { name := "IShelf", uuid := ⟨List.replicate 16 15, rfl⟩, templateArguments := ["First", "Second"] }]

/-- One interface, with one arity from its own library and from another one. -/
theorem arity_of_reference_agrees_partsLibrary :
    ∃ interface ∈ partsLibrary.interfaces, interface.name = "IBox" ∧
      (∀ user ∈ [spareLibrary, partsLibrary],
        (ofLibrary user (ArityIndex.ofLibraries [spareLibrary, partsLibrary]).get?).referenceArity?
          "Parts::IBox" = some interface.templateArguments.length) ∧
      (ofLibrary partsLibrary
          (ArityIndex.ofLibraries [spareLibrary, partsLibrary]).get?).referenceArity? "IBox" =
        some interface.templateArguments.length := by
  have distinct : ([spareLibrary, partsLibrary].map Model.Library.name).Nodup := by decide
  have simple : ∀ library ∈ [spareLibrary, partsLibrary], library.SimplyNamed := by decide
  have listed : partsLibrary ∈ [spareLibrary, partsLibrary] := by simp
  have declares : ∃ interface ∈ partsLibrary.interfaces, interface.name = "IBox" :=
    ⟨_, List.mem_cons_self, rfl⟩
  obtain ⟨earlier, interface, later, declared, named, _, qualified, bare, _⟩ :=
    arity_of_reference_agrees distinct simple listed declares
  exact ⟨interface, by simp [declared], named, qualified, bare⟩

end Scope

end IdlBindings
