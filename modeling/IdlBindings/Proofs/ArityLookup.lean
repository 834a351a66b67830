import IdlBindings.ArityIndex

/-
This file follows the declarations of libraries into the arity index and says which names it knows,
and with which answer.
-/

namespace IdlBindings

/-- If any entry has a property, then one of them is the last to have it. -/
theorem exists_last_split {α : Type} {property : α → Prop} {entries : List α}
    (present : ∃ entry ∈ entries, property entry) :
    ∃ earlier entry later, entries = earlier ++ entry :: later ∧ property entry ∧
      ∀ other ∈ later, ¬ property other := by
  induction entries with
  | nil =>
      obtain ⟨entry, member, _⟩ := present
      cases member
  | cons first rest ih =>
      by_cases again : ∃ entry ∈ rest, property entry
      · obtain ⟨earlier, entry, later, rfl, holds, last⟩ := ih again
        exact ⟨first :: earlier, entry, later, rfl, holds, last⟩
      · obtain ⟨entry, member, holds⟩ := present
        rcases List.mem_cons.mp member with rfl | inRest
        · exact ⟨[], entry, rest, rfl, holds, fun other listed alike =>
            again ⟨other, listed, alike⟩⟩
        · exact absurd ⟨entry, inRest, holds⟩ again

namespace ArityIndex

/-- An interface with the library that declares it. -/
structure Declaration where
  library : String
  interface : Model.Interface

/-- All declarations, in the order in which the index takes them. -/
def declarations (libraries : List Model.Library) : List Declaration :=
  libraries.flatMap fun library => library.interfaces.map (Declaration.mk library.name)

namespace Declaration

/-- The name of a declaration together with that of its library. -/
def qualifiedName (declaration : Declaration) : String :=
  ArityIndex.qualifiedName declaration.library declaration.interface.name

/-- An interface can be asked for by its bare and by its qualified name. -/
def KnownAs (declaration : Declaration) (key : String) : Prop :=
  key = declaration.interface.name ∨ key = declaration.qualifiedName

end Declaration

/-- The declarations of libraries are the interfaces in them. -/
theorem mem_declarations {libraries : List Model.Library} {declaration : Declaration} :
    declaration ∈ declarations libraries ↔
      ∃ library ∈ libraries, declaration.library = library.name ∧
        declaration.interface ∈ library.interfaces := by
  obtain ⟨name, interface⟩ := declaration
  simp only [declarations, List.mem_flatMap, List.mem_map, Declaration.mk.injEq]
  constructor
  · rintro ⟨library, listed, other, declared, same, rfl⟩
    exact ⟨library, listed, same.symm, declared⟩
  · rintro ⟨library, listed, same, declared⟩
    exact ⟨library, listed, interface, declared, same.symm, rfl⟩

/-- A bare name is not a qualified one. -/
theorem ne_qualifiedName (library interface : String) :
    interface ≠ qualifiedName library interface := by
  intro same
  have lengths := congrArg String.length same
  simp [qualifiedName, String.length_append] at lengths

/-- A declaration is added under both of its names. -/
def add (index : ArityIndex) (declaration : Declaration) : ArityIndex :=
  addInterface declaration.library index declaration.interface

/-- An index is built from the declarations one by one. -/
theorem ofLibraries_eq_foldl (libraries : List Model.Library) :
    ofLibraries libraries = (declarations libraries).foldl add empty := by
  rw [declarations, List.foldl_flatMap]
  simp only [List.foldl_map]
  rfl

/-- One declaration more: its qualified name is set, its bare name only if it was not known. -/
theorem get?_add (index : ArityIndex) (declaration : Declaration) (key : String) :
    (index.add declaration).get? key =
      if key = declaration.interface.name then
        some ((index.get? key).getD declaration.interface.arity)
      else if key = declaration.qualifiedName then some declaration.interface.arity
      else index.get? key := by
  have differs := ne_qualifiedName declaration.library declaration.interface.name
  rw [add, addInterface, get?_insertNew, get?_insert, get?_insert]
  by_cases bare : key = declaration.interface.name
  · subst bare
    rw [if_pos rfl, if_pos rfl, if_neg differs]
  · rw [if_neg bare, if_neg bare]
    rfl

/-- An added declaration changes nothing under other qualified names that are known. -/
theorem get?_add_of_known {index : ArityIndex} {declaration : Declaration} {key : String}
    {arity : Nat} (known : index.get? key = some arity)
    (different : key ≠ declaration.qualifiedName) :
    (index.add declaration).get? key = some arity := by
  rw [get?_add, if_neg different, known]
  exact ite_self _

/-- A count is kept until the qualified name is declared again. -/
theorem get?_foldl_add_of_known {index : ArityIndex} {added : List Declaration} {key : String}
    {arity : Nat} (known : index.get? key = some arity)
    (different : ∀ declaration ∈ added, key ≠ declaration.qualifiedName) :
    (added.foldl add index).get? key = some arity := by
  induction added generalizing index with
  | nil => exact known
  | cons declaration rest ih =>
      obtain ⟨first, others⟩ := List.forall_mem_cons.mp different
      exact ih (get?_add_of_known known first) others

/-- Declarations of other names do not matter. -/
theorem get?_foldl_add_of_unknown {index : ArityIndex} {added : List Declaration} {key : String}
    (unknown : ∀ declaration ∈ added, ¬ declaration.KnownAs key) :
    (added.foldl add index).get? key = index.get? key := by
  induction added generalizing index with
  | nil => rfl
  | cons declaration rest ih =>
      obtain ⟨first, others⟩ := List.forall_mem_cons.mp unknown
      obtain ⟨bare, qualified⟩ := not_or.mp first
      rw [List.foldl_cons, ih others, get?_add, if_neg bare, if_neg qualified]

/-- The answer for a name after declarations have been added to an empty index: the last of them
with this qualified name decides, or else the first with this bare name. -/
inductive Answers (added : List Declaration) (key : String) : Option Nat → Prop
  | qualified {earlier later : List Declaration} {declaration : Declaration}
      (split : added = earlier ++ declaration :: later)
      (named : key = declaration.qualifiedName)
      (last : ∀ other ∈ later, key ≠ other.qualifiedName) :
      Answers added key (some declaration.interface.templateArguments.length)
  | bare {earlier later : List Declaration} {declaration : Declaration}
      (unqualified : ∀ other ∈ added, key ≠ other.qualifiedName)
      (split : added = earlier ++ declaration :: later)
      (named : key = declaration.interface.name)
      (first : ∀ other ∈ earlier, key ≠ other.interface.name) :
      Answers added key (some declaration.interface.templateArguments.length)
  | unknown (unqualified : ∀ other ∈ added, key ≠ other.qualifiedName)
      (unnamed : ∀ other ∈ added, key ≠ other.interface.name) :
      Answers added key none

variable {added : List Declaration} {key : String}

/-- The index gives the specified answer. -/
theorem get?_eq_of_answers {answer : Option Nat} (answers : Answers added key answer) :
    (added.foldl add empty).get? key = answer := by
  cases answers with
  | @qualified earlier later declaration split named last =>
      rw [split, List.foldl_append, List.foldl_cons]
      refine get?_foldl_add_of_known ?_ last
      have notBare : key ≠ declaration.interface.name :=
        named ▸ (ne_qualifiedName _ _).symm
      rw [get?_add, if_neg notBare, if_pos named]
      rfl
  | @bare earlier later declaration unqualified split named first =>
      subst split
      have absent : ∀ other ∈ earlier, ¬ other.KnownAs key := fun other member =>
        not_or.mpr ⟨first other member, unqualified other (List.mem_append_left _ member)⟩
      rw [List.foldl_append, List.foldl_cons]
      refine get?_foldl_add_of_known ?_ fun other member =>
        unqualified other (List.mem_append_right _ (List.mem_cons_of_mem _ member))
      rw [get?_add, if_pos named, get?_foldl_add_of_unknown absent]
      rfl
  | unknown unqualified unnamed =>
      exact get?_foldl_add_of_unknown fun other member =>
        not_or.mpr ⟨unnamed other member, unqualified other member⟩

/-- For every key there is an answer by the specification. -/
theorem exists_answers (added : List Declaration) (key : String) :
    ∃ answer, Answers added key answer := by
  by_cases qualified : ∃ declaration ∈ added, key = declaration.qualifiedName
  · obtain ⟨earlier, declaration, later, split, named, last⟩ := exists_last_split qualified
    exact ⟨_, .qualified split named last⟩
  have unqualified : ∀ other ∈ added, key ≠ other.qualifiedName := fun other member named =>
    qualified ⟨other, member, named⟩
  cases found : added.find? fun declaration => key == declaration.interface.name with
  | some declaration =>
      obtain ⟨named, earlier, later, split, first⟩ := List.find?_eq_some_iff_append.mp found
      exact ⟨_, .bare unqualified split (by simpa using named) (by simpa using first)⟩
  | none => exact ⟨_, .unknown unqualified (by simpa using found)⟩

/-- The index and the specification give the same answer. -/
theorem get?_eq_iff_answers {answer : Option Nat} :
    (added.foldl add empty).get? key = answer ↔ Answers added key answer := by
  constructor
  · rintro rfl
    obtain ⟨answer, answers⟩ := exists_answers added key
    rw [get?_eq_of_answers answers]
    exact answers
  · exact get?_eq_of_answers

/-- The index answers with the arity of a declaration that is known by the name. -/
theorem exists_of_get?_eq_some {arity : Nat}
    (found : (added.foldl add empty).get? key = some arity) :
    ∃ declaration ∈ added, declaration.KnownAs key ∧ declaration.interface.arity = arity := by
  cases get?_eq_iff_answers.mp found with
  | @qualified _ _ declaration split named _ =>
      exact ⟨declaration, by simp [split], .inr named, rfl⟩
  | @bare _ _ declaration _ split named _ =>
      exact ⟨declaration, by simp [split], .inl named, rfl⟩

/-- The index answers for every name by which a declaration is known. -/
theorem isSome_get? {declaration : Declaration} (member : declaration ∈ added)
    (known : declaration.KnownAs key) : ((added.foldl add empty).get? key).isSome = true := by
  rw [Option.isSome_iff_ne_none]
  intro missing
  cases get?_eq_iff_answers.mp missing with
  | unknown unqualified unnamed =>
      rcases known with bare | qualified
      · exact unnamed declaration member bare
      · exact unqualified declaration member qualified

/-- Whatever the names are, an index to which libraries are added one after another knows a name
by the last declaration so qualified, or else by the first declaration of it, or not at all. -/
theorem get?_last_qualified_or_first_bare (libraries : List Model.Library) (key : String)
    (answer : Option Nat) :
    (libraries.foldl addLibrary empty).get? key = answer ↔
      Answers (declarations libraries) key answer := by
  change (ofLibraries libraries).get? key = answer ↔ _
  rw [ofLibraries_eq_foldl]
  exact get?_eq_iff_answers

end ArityIndex

end IdlBindings
