import IdlBindings.Proofs.BindingInvariant
import IdlBindings.Proofs.EnumerationTable
import IdlBindings.Source.File

/-
This file lists the types and constants that a generated source declares, and tells from the
declared names of a library when two of them have the same name.
-/

namespace IdlBindings

namespace Identifier

/-- The name starts with the `I` that its handle drops. -/
def IsMarked (name : String) : Prop :=
  ∃ rest, rest ≠ "" ∧ name = "I" ++ rest

/-- A marked name loses its mark. -/
theorem handleName_marked {rest : String} (nonempty : rest ≠ "") :
    handleName ("I" ++ rest) = rest := by
  cases spelled : rest.toList with
  | nil => exact absurd (String.toList_eq_nil_iff.mp spelled) nonempty
  | cons character others =>
      have opened : ("I" ++ rest).toList = 'I' :: character :: others := by
        simp [spelled]
      have dropped : handleName ("I" ++ rest) = String.ofList (character :: others) := by
        simp only [handleName, opened]
      rw [dropped, ← spelled, String.ofList_toList]

/-- A name without a mark gets a letter in front. -/
theorem handleName_unmarked {name : String} (unmarked : ¬ IsMarked name) :
    handleName name = "T" ++ name := by
  unfold handleName
  split
  case h_1 character rest spelled =>
    refine absurd ⟨String.ofList (character :: rest), ?_, ?_⟩ unmarked
    · simp [← String.toList_inj]
    · simp [← String.toList_inj, spelled]
  case h_2 => rfl

theorem isMarked_twice (name : String) : IsMarked ("IT" ++ name) := by
  refine ⟨"T" ++ name, ?_, ?_⟩
  · simp [← String.toList_inj]
  · simp [← String.toList_inj]

/-- A marked name meets an unmarked one only if it is that name with both letters in front. -/
theorem handleName_eq_unmarked_iff {name other : String} (marked : IsMarked name)
    (unmarked : ¬ IsMarked other) :
    handleName name = handleName other ↔ name = "IT" ++ other := by
  obtain ⟨rest, nonempty, rfl⟩ := marked
  have spelled : "IT" ++ other = "I" ++ ("T" ++ other) := by simp [← String.toList_inj]
  rw [handleName_marked nonempty, handleName_unmarked unmarked, spelled, String.append_right_inj]

/-- Two interfaces share a handle only if one is called like the other after an `I` and a `T`. -/
theorem handleName_eq_handleName_iff (name other : String) :
    handleName name = handleName other ↔
      name = other ∨ (name = "IT" ++ other ∧ ¬ IsMarked other) ∨
        (other = "IT" ++ name ∧ ¬ IsMarked name) := by
  by_cases first : IsMarked name <;> by_cases second : IsMarked other
  · obtain ⟨rest, nonempty, rfl⟩ := id first
    obtain ⟨others, nonemptyOther, rfl⟩ := id second
    simp [handleName_marked nonempty, handleName_marked nonemptyOther, first, second,
      String.append_right_inj]
  · have differ : name ≠ other := by
      rintro rfl
      exact second first
    simp [handleName_eq_unmarked_iff first second, first, second, differ]
  · have differ : name ≠ other := by
      rintro rfl
      exact first second
    simp [eq_comm (a := handleName name), handleName_eq_unmarked_iff second first, first, second,
      differ]
  · have differ : name ≠ "IT" ++ other := by
      rintro rfl
      exact first (isMarked_twice other)
    have differOther : other ≠ "IT" ++ name := by
      rintro rfl
      exact second (isMarked_twice name)
    simp [handleName_unmarked first, handleName_unmarked second, differ, differOther,
      String.append_right_inj]

end Identifier

namespace Source

/-- The declaration of a type: its name, with what stands before and after it. -/
structure TypeItem where
  opening : String
  name : String
  ending : String

/-- An item of a file as it is written. -/
def TypeItem.text (item : TypeItem) : String := item.opening ++ item.name ++ item.ending

/-- A plain enumeration comes with the type of its iterator. -/
def EnumerationDefinition.typeItems : EnumerationDefinition → List TypeItem
  | flagSet set => [⟨"pub struct ", set.name, ": u32 \x7b\n"⟩]
  | plain enumeration =>
      [⟨"pub enum ", enumeration.name, " \x7b\n"⟩,
        ⟨"pub struct ", enumeration.name ++ "Iterator", " \x7b\n"⟩]

/-- The items of an interface: its contract, its adapter and its handle. -/
def InterfaceDefinition.typeItems (definition : InterfaceDefinition) : List TypeItem :=
  [⟨"pub trait ", definition.contract.name, definition.contract.genericParameters ++ " \x7b\n"⟩,
    ⟨"pub trait ", definition.adapter.name, definition.adapter.genericParameters ++ " : "⟩,
    ⟨"pub struct ", definition.handle.name, definition.handle.genericParameters ++ " \x7b\n"⟩]

namespace File

/-- The items of all declarations in a file. -/
def typeItems (file : File) : List TypeItem :=
  file.enumerations.flatMap EnumerationDefinition.typeItems ++
    file.interfaces.flatMap InterfaceDefinition.typeItems

/-- The constants in the head of a file. -/
def constants (file : File) : List UuidConstant :=
  file.preamble.library :: (file.preamble.categories ++ file.preamble.interfaces)

end File

theorem FlagSet.contains_item (set : FlagSet) :
    Text.Contains set.text ("pub struct " ++ set.name ++ ": u32 \x7b\n") := by
  have cut : "bitflags! \x7b\n\t#[derive(Clone, Copy, Debug, PartialEq, Eq, Hash)]\n\tpub struct " =
      "bitflags! \x7b\n\t#[derive(Clone, Copy, Debug, PartialEq, Eq, Hash)]\n\t" ++
        "pub struct " := by decide
  unfold text
  rewrite [cut]
  exact ⟨_, _, by simp only [String.append_assoc]; rfl⟩

theorem PlainEnumeration.contains_item (enumeration : PlainEnumeration) :
    Text.Contains enumeration.text ("pub enum " ++ enumeration.name ++ " \x7b\n") := by
  have cut : "\npub enum " = "\n" ++ "pub enum " := by decide
  refine enumeration.contains_declaration.trans ?_
  rewrite [cut]
  exact ⟨"\n", _, by simp only [String.append_assoc]; rfl⟩

theorem PlainEnumeration.contains_iterator (enumeration : PlainEnumeration) :
    Text.Contains enumeration.text
      ("pub struct " ++ (enumeration.name ++ "Iterator") ++ " \x7b\n") := by
  have cut : "Iterator \x7b\n\tcurrent: usize,\n\x7d\nimpl Iterator for " =
      "Iterator" ++ (" \x7b\n" ++ "\tcurrent: usize,\n\x7d\nimpl Iterator for ") := by decide
  refine contains_of_part (by simp [parts] : enumeration.iteratorText ∈ enumeration.parts) ?_
  unfold iteratorText
  rewrite [cut]
  exact ⟨"/// " ++ enumeration.name ++ " iterator\n///\n/// Iterates over all " ++
    enumeration.name ++ " values\n///\n/// # Examples\n///\n" ++ enumeration.exampleText "", _,
    by simp only [String.append_assoc]; rfl⟩

/-- Every item of an enumeration stands in its text. -/
theorem EnumerationDefinition.contains_typeItem {definition : EnumerationDefinition}
    {item : TypeItem} (member : item ∈ definition.typeItems) :
    Text.Contains definition.text item.text := by
  cases definition with
  | flagSet set =>
      cases List.mem_singleton.mp member
      exact set.contains_item
  | plain enumeration =>
      simp only [typeItems, List.mem_cons, List.not_mem_nil, or_false] at member
      rcases member with rfl | rfl
      · exact enumeration.contains_item
      · exact enumeration.contains_iterator

theorem Contract.contains_item (contract : Contract) :
    Text.Contains contract.text
      ("pub trait " ++ contract.name ++ (contract.genericParameters ++ " \x7b\n")) := by
  have cut : " interface\n///\npub trait " = " interface\n///\n" ++ "pub trait " := by decide
  unfold text
  rewrite [cut]
  exact ⟨"///" ++ contract.name ++ "\n///\n///" ++ contract.name ++ " interface\n///\n", _,
    by simp only [String.append_assoc]; rfl⟩

theorem Adapter.contains_item (adapter : Adapter) :
    Text.Contains adapter.text
      ("pub trait " ++ adapter.name ++ (adapter.genericParameters ++ " : ")) := by
  unfold text headText
  exact ⟨"", _, by simp only [String.append_assoc, String.empty_append]; rfl⟩

theorem Handle.contains_item (handle : Handle) :
    Text.Contains handle.text
      ("pub struct " ++ handle.name ++ (handle.genericParameters ++ " \x7b\n")) := by
  have cut : ")]\npub struct " = ")]\n" ++ "pub struct " := by decide
  have ended : " \x7b\n\t" = " \x7b\n" ++ "\t" := by decide
  unfold text
  rewrite [cut, ended]
  exact ⟨"#[cape_smart_pointer(" ++ handle.uuidConstant ++ ")]\n", _,
    by simp only [String.append_assoc]; rfl⟩

/-- Every item of an interface stands in its text. -/
theorem InterfaceDefinition.contains_typeItem {definition : InterfaceDefinition} {item : TypeItem}
    (member : item ∈ definition.typeItems) : Text.Contains definition.text item.text := by
  simp only [typeItems, List.mem_cons, List.not_mem_nil, or_false] at member
  unfold text
  rcases member with rfl | rfl | rfl
  · exact (definition.contract.contains_item.append_right _).append_right _
  · exact (definition.adapter.contains_item.append_left _).append_right _
  · exact definition.handle.contains_item.append_left _

namespace File

/-- Every item of a file stands in its text. -/
theorem contains_typeItem {file : File} {item : TypeItem} (member : item ∈ file.typeItems) :
    Text.Contains file.text item.text := by
  unfold text
  rcases List.mem_append.mp member with ofEnumeration | ofInterface
  · obtain ⟨definition, listed, member⟩ := List.mem_flatMap.mp ofEnumeration
    have joined := Text.Contains.join (List.mem_map_of_mem (f := EnumerationDefinition.text) listed)
    rw [if_neg (by simpa using List.ne_nil_of_mem listed)]
    refine (Text.Contains.append_left ?_ _).append_right _
    exact (joined.trans (EnumerationDefinition.contains_typeItem member)).append_left _
  · obtain ⟨definition, listed, member⟩ := List.mem_flatMap.mp ofInterface
    have joined := Text.Contains.join (List.mem_map_of_mem (f := InterfaceDefinition.text) listed)
    rw [if_neg (c := file.interfaces.isEmpty = true) (by simpa using List.ne_nil_of_mem listed)]
    refine Text.Contains.append_left ?_ _
    exact (joined.trans (InterfaceDefinition.contains_typeItem member)).append_left _

end File

/-- A line under a title stands in the text of the title. -/
theorem Preamble.contains_titled (title : String) {line : String} {lines : List String}
    (member : line ∈ lines) : Text.Contains (titled title lines) line := by
  rw [titled, if_neg (by simpa using List.ne_nil_of_mem member)]
  exact (Text.Contains.join member).append_left _

/-- Every constant of a file stands in its text. -/
theorem File.contains_constant {file : File} {constant : UuidConstant}
    (member : constant ∈ file.constants) :
    Text.Contains file.text
      ("pub const " ++ constant.name ++ ":CapeUUID=" ++ constant.uuid.literal ++ ";\n") := by
  have written : constant.text =
      "pub const " ++ constant.name ++ ":CapeUUID=" ++ constant.uuid.literal ++ ";\n" := rfl
  rw [← written]
  have inPreamble : Text.Contains file.preamble.text constant.text := by
    unfold Preamble.text
    rcases List.mem_cons.mp member with rfl | ofDeclaration
    · have line := Preamble.contains_titled "library ID"
        (List.mem_singleton_self file.preamble.library.text)
      exact ((line.append_left _).append_right _).append_right _
    rcases List.mem_append.mp ofDeclaration with ofCategory | ofInterface
    · have line := Preamble.contains_titled "Category IDs"
        (List.mem_map_of_mem (f := UuidConstant.text) ofCategory)
      exact (line.append_left _).append_right _
    · have line := Preamble.contains_titled "Interface IDs"
        (List.mem_map_of_mem (f := UuidConstant.text) ofInterface)
      exact line.append_left _
  unfold File.text
  exact (inPreamble.append_right _).append_right _

end Source

namespace Model.Library

variable (library : Model.Library)

def interfaceNames : List String := library.interfaces.map Model.Interface.name

/-- The names of the enumerations that are not flag sets. -/
def plainNames : List String :=
  (library.enumerations.filter fun enumeration => !enumeration.isBitFlag).map
    Model.Enumeration.name

/-- The names that enumerations and interfaces are declared under. -/
def typeNames : List String :=
  library.enumerations.map Model.Enumeration.name ++ library.interfaceNames

/-- No name that is derived for a type meets a declared name or another derived one. -/
structure TypesApart : Prop where
  iterator : ∀ plain ∈ library.plainNames, plain ++ "Iterator" ∉ library.typeNames
  adapter : ∀ interface ∈ library.interfaceNames, interface ++ "Impl" ∉ library.typeNames
  handle : ∀ interface ∈ library.interfaceNames,
    Identifier.handleName interface ∉ library.typeNames
  handleOfIterator : ∀ interface ∈ library.interfaceNames, ∀ plain ∈ library.plainNames,
    Identifier.handleName interface ≠ plain ++ "Iterator"
  handleOfAdapter : ∀ interface ∈ library.interfaceNames, ∀ other ∈ library.interfaceNames,
    Identifier.handleName interface ≠ other ++ "Impl"
  handleOfHandle : ∀ interface ∈ library.interfaceNames, ∀ other ∈ library.interfaceNames,
    interface = "IT" ++ other → Identifier.IsMarked other

/-- No two constants meet once their names are in capitals. -/
structure ConstantsApart : Prop where
  categories : library.categories.Pairwise fun category other =>
    Identifier.upperCase category.name ≠ Identifier.upperCase other.name
  interfaces : ∀ interface ∈ library.interfaceNames, ∀ other ∈ library.interfaceNames,
    Identifier.upperCase interface = Identifier.upperCase other → interface = other
  categoryOfInterface : ∀ category ∈ library.categories, ∀ interface ∈ library.interfaceNames,
    "CATEGORYID_" ++ Identifier.upperCase category.name ≠ Identifier.upperCase interface ++ "_UUID"

variable {library}

/-- What is derived from distinct names by a suffix is distinct. -/
theorem nodup_map_append {names : List String} (distinct : names.Nodup) (suffix : String) :
    (names.map (· ++ suffix)).Nodup :=
  distinct.map fun _ _ same => (String.append_left_inj suffix).mp same

/-- The iterator of an enumeration does not meet the adapter of an interface. -/
theorem iterator_ne_adapter (plain interface : String) :
    plain ++ "Iterator" ≠ interface ++ "Impl" := by
  intro same
  have last := congrArg (fun text => text.toList.getLast?) same
  simp at last

/-- Handles differ exactly if no name is that of another with both letters in front. -/
theorem nodup_handles_iff {names : List String} (distinct : names.Nodup) :
    (names.map Identifier.handleName).Nodup ↔
      ∀ name ∈ names, ∀ other ∈ names, name = "IT" ++ other → Identifier.IsMarked other := by
  rw [List.nodup_map_iff_inj_on distinct]
  constructor
  · intro injective name listed other listedOther same
    by_contra unmarked
    have shared := (Identifier.handleName_eq_handleName_iff name other).mpr
      (.inr (.inl ⟨same, unmarked⟩))
    have equal := injective name listed other listedOther shared
    exact unmarked (equal ▸ same ▸ Identifier.isMarked_twice other)
  · intro marked name listed other listedOther shared
    rcases (Identifier.handleName_eq_handleName_iff name other).mp shared with
      same | ⟨same, unmarked⟩ | ⟨same, unmarked⟩
    · exact same
    · exact absurd (marked name listed other listedOther same) unmarked
    · exact absurd (marked other listedOther name listed same) unmarked

/-- The names of all types, those that are declared first. -/
def groupedNames (library : Model.Library) : List String :=
  library.typeNames ++ (library.plainNames.map (· ++ "Iterator") ++
    (library.interfaceNames.map (· ++ "Impl") ++
      library.interfaceNames.map Identifier.handleName))

/-- The grouped names differ exactly if the types are apart. -/
theorem nodup_groupedNames_iff (distinct : library.typeNames.Nodup) :
    library.groupedNames.Nodup ↔ library.TypesApart := by
  obtain ⟨enumerations, interfaces, _⟩ := List.nodup_append.mp distinct
  have plain : library.plainNames.Nodup :=
    enumerations.sublist (List.filter_sublist.map Model.Enumeration.name)
  have iterators := nodup_map_append plain "Iterator"
  have adapters := nodup_map_append interfaces "Impl"
  have handles := nodup_handles_iff interfaces
  constructor
  · intro nodup
    obtain ⟨_, derived, ofDeclared⟩ := List.nodup_append.mp nodup
    obtain ⟨_, later, ofIterator⟩ := List.nodup_append.mp derived
    obtain ⟨_, last, ofAdapter⟩ := List.nodup_append.mp later
    simp only [List.forall_mem_append, List.forall_mem_map] at ofDeclared ofIterator ofAdapter
    exact {
      iterator := fun plain listed declared => (ofDeclared _ declared).1 plain listed rfl
      adapter := fun interface listed declared => (ofDeclared _ declared).2.1 interface listed rfl
      handle := fun interface listed declared => (ofDeclared _ declared).2.2 interface listed rfl
      handleOfIterator := fun interface listed plain listedPlain =>
        ((ofIterator plain listedPlain).2 interface listed).symm
      handleOfAdapter := fun interface listed other listedOther =>
        (ofAdapter other listedOther interface listed).symm
      handleOfHandle := handles.mp last }
  · intro apart
    refine List.nodup_append.mpr ⟨distinct, List.nodup_append.mpr ⟨iterators,
      List.nodup_append.mpr ⟨adapters, handles.mpr apart.handleOfHandle, ?_⟩, ?_⟩, ?_⟩
    all_goals simp only [List.forall_mem_append, List.forall_mem_map]
    · intro other listedOther interface listed
      exact (apart.handleOfAdapter interface listed other listedOther).symm
    · intro plain listedPlain
      refine ⟨fun interface _ => iterator_ne_adapter plain interface, fun interface listed => ?_⟩
      exact (apart.handleOfIterator interface listed plain listedPlain).symm
    · intro name declared
      refine ⟨?_, ?_, ?_⟩
      · rintro plain listed rfl
        exact apart.iterator plain listed declared
      · rintro interface listed rfl
        exact apart.adapter interface listed declared
      · rintro interface listed rfl
        exact apart.handle interface listed declared

/-- The first entries can be taken out of a list of lists. -/
theorem perm_flatMap_cons {α β : Type} (first : α → β) (later : α → List β) (entries : List α) :
    (entries.flatMap fun entry => first entry :: later entry).Perm
      (entries.map first ++ entries.flatMap later) := by
  rw [List.map_eq_flatMap]
  exact (List.flatMap_append_perm entries (fun entry => [first entry]) later).symm

/-- Only plain enumerations have iterators. -/
theorem flatMap_iterators (enumerations : List Model.Enumeration) :
    (enumerations.flatMap fun enumeration =>
      if enumeration.isBitFlag then [] else [enumeration.name ++ "Iterator"]) =
      ((enumerations.filter fun enumeration => !enumeration.isBitFlag).map
        Model.Enumeration.name).map (· ++ "Iterator") := by
  induction enumerations with
  | nil => rfl
  | cons first rest ih => cases flags : first.isBitFlag <;> simp [flags, ih]

/-- The names of all types, in the order in which a source declares them. -/
def sourceNames (library : Model.Library) : List String :=
  (library.enumerations.flatMap fun enumeration => enumeration.name ::
      if enumeration.isBitFlag then [] else [enumeration.name ++ "Iterator"]) ++
    library.interfaces.flatMap fun interface =>
      [interface.name, interface.name ++ "Impl", Identifier.handleName interface.name]

/-- The names of a file are the grouped ones in another order. -/
theorem perm_groupedNames (library : Model.Library) :
    library.sourceNames.Perm library.groupedNames := by
  have enumerations := perm_flatMap_cons Model.Enumeration.name
    (fun enumeration => if enumeration.isBitFlag then [] else [enumeration.name ++ "Iterator"])
    library.enumerations
  have interfaces := (perm_flatMap_cons Model.Interface.name
    (fun interface => [interface.name ++ "Impl", Identifier.handleName interface.name])
    library.interfaces).trans ((perm_flatMap_cons (fun interface => interface.name ++ "Impl")
      (fun interface => [Identifier.handleName interface.name])
      library.interfaces).append_left _)
  rw [flatMap_iterators] at enumerations
  rw [← List.map_eq_flatMap] at interfaces
  refine (enumerations.append interfaces).trans ?_
  simp only [groupedNames, typeNames, interfaceNames, plainNames, List.map_map, List.append_assoc]
  exact (List.perm_append_comm_assoc _ _ _).append_left _

/-- The constant of the library is not that of a category. -/
theorem library_ne_category (name : String) : "LIBRARY_ID" ≠ "CATEGORYID_" ++ name := by
  intro same
  have first := congrArg (fun text => text.toList.head?) same
  simp at first

/-- The constant of the library is not that of an interface. -/
theorem library_ne_interface (name : String) : "LIBRARY_ID" ≠ name ++ "_UUID" := by
  intro same
  have ending : "_UUID".toList <:+ "LIBRARY_ID".toList := by
    rw [same, String.toList_append]
    exact List.suffix_append _ _
  revert ending
  decide

/-- The names of all constants, in the order in which a source declares them. -/
def constantNames (library : Model.Library) : List String :=
  "LIBRARY_ID" ::
    (library.categories.map (fun category => "CATEGORYID_" ++ Identifier.upperCase category.name) ++
      library.interfaceNames.map fun interface => Identifier.upperCase interface ++ "_UUID")

/-- The names of the constants differ exactly if the constants are apart. -/
theorem nodup_constantNames_iff (distinct : library.interfaceNames.Nodup) :
    library.constantNames.Nodup ↔ library.ConstantsApart := by
  have categories : (library.categories.map fun category =>
      "CATEGORYID_" ++ Identifier.upperCase category.name).Nodup ↔
      library.categories.Pairwise fun category other =>
        Identifier.upperCase category.name ≠ Identifier.upperCase other.name := by
    simp only [List.Nodup, List.pairwise_map, ne_eq, String.append_right_inj]
  have interfaces : (library.interfaceNames.map fun interface =>
      Identifier.upperCase interface ++ "_UUID").Nodup ↔
      ∀ interface ∈ library.interfaceNames, ∀ other ∈ library.interfaceNames,
        Identifier.upperCase interface = Identifier.upperCase other → interface = other := by
    simp only [List.nodup_map_iff_inj_on distinct, String.append_left_inj]
  have first : "LIBRARY_ID" ∉ library.categories.map (fun category =>
      "CATEGORYID_" ++ Identifier.upperCase category.name) ++
        library.interfaceNames.map fun interface => Identifier.upperCase interface ++ "_UUID" := by
    simp [library_ne_category, library_ne_interface, eq_comm (b := "LIBRARY_ID")]
  rw [constantNames, List.nodup_cons, List.nodup_append, categories, interfaces]
  simp only [List.forall_mem_map, first, not_false_eq_true, true_and]
  exact ⟨fun ⟨apart, others, mixed⟩ => ⟨apart, others, mixed⟩,
    fun ⟨apart, others, mixed⟩ => ⟨apart, others, mixed⟩⟩

end Model.Library

namespace Source

variable {external : String → Option Nat} {library : Model.Library} {bound : Binding.Library}

/-- The items of an enumeration are named after it. -/
theorem EnumerationDefinition.names_typeItems {declared : Model.Enumeration}
    {enumeration : Binding.Enumeration}
    (built : Binding.Enumeration.ofModel declared = .ok enumeration)
    (context : Context) :
    (ofBinding context enumeration).typeItems.map TypeItem.name = declared.name ::
      if declared.isBitFlag then [] else [declared.name ++ "Iterator"] := by
  obtain ⟨_, rfl⟩ := Binding.Enumeration.ofModel_eq_ok built
  cases flags : declared.isBitFlag <;>
    simp [ofBinding, Binding.Enumeration.kindOf, flags, typeItems, FlagSet.ofBinding,
      PlainEnumeration.ofBinding]

/-- The items of an interface are named after it. -/
theorem InterfaceDefinition.names_typeItems {scope : Scope} {declared : Model.Interface}
    {interface : Binding.Interface}
    (built : Binding.Interface.ofModel scope declared = .ok interface)
    (context : Context) :
    (ofInterface context interface).typeItems.map TypeItem.name =
      [declared.name, declared.name ++ "Impl", Identifier.handleName declared.name] := by
  obtain ⟨name, _, handle, _⟩ := Binding.Interface.ofModel_eq_ok built
  simp [ofInterface, typeItems, Contract.ofInterface, Adapter.ofInterface, Adapter.name,
    Handle.ofInterface, name, handle]

namespace File

/-- The items of a file are named after the declarations of the library. -/
theorem names_typeItems (built : Binding.Library.ofModel external library = .ok bound)
    (context : Context) :
    (ofLibrary context bound).typeItems.map TypeItem.name = library.sourceNames := by
  obtain ⟨_, _, _, enumerations, interfaces, _⟩ := Binding.Library.ofModel_eq_ok built
  have ofEnumeration := map_eq_of_forall₂ enumerations fun _ _ each =>
    EnumerationDefinition.names_typeItems each context
  have ofInterface := map_eq_of_forall₂ interfaces fun _ _ each =>
    InterfaceDefinition.names_typeItems each context
  simp only [typeItems, ofLibrary, List.map_append, List.map_flatMap, List.flatMap_map,
    Model.Library.sourceNames]
  simp only [List.flatMap_def, ofEnumeration, ofInterface]

/-- The constants of a file are named after the declarations of the library. -/
theorem names_constants (built : Binding.Library.ofModel external library = .ok bound)
    (context : Context) :
    (ofLibrary context bound).constants.map UuidConstant.name = library.constantNames := by
  obtain ⟨_, _, categories, _, interfaces, _⟩ := Binding.Library.ofModel_eq_ok built
  have ofInterface : bound.interfaces.map Binding.Interface.uuidConstant =
      library.interfaces.map fun interface => Identifier.upperCase interface.name ++ "_UUID" := by
    refine map_eq_of_forall₂ interfaces fun declared interface each => ?_
    rw [Binding.Interface.uuidConstant, (Binding.Interface.ofModel_eq_ok each).1]
  simp only [constants, ofLibrary, Preamble.ofLibrary, List.map_cons, List.map_append, List.map_map,
    Function.comp_def, ofInterface, categories, Model.Library.constantNames,
    Model.Library.interfaceNames]

end File

/-- The types and constants of a generated source stand in its text. If the declared names are
distinct, then so are the names of all types exactly if no derived one meets another, and those of
all constants exactly if none meet in capitals. -/
theorem item_names_distinct_iff_apart {libraries : List Model.Library}
    (built : Binding.build external libraries = .ok bound) (context : Context) :
    ∃ library rest, libraries = library :: rest ∧
      (∀ item ∈ (File.ofLibrary context bound).typeItems,
        Text.Contains (File.ofLibrary context bound).text item.text) ∧
      (∀ constant ∈ (File.ofLibrary context bound).constants,
        Text.Contains (File.ofLibrary context bound).text
          ("pub const " ++ constant.name ++ ":CapeUUID=" ++ constant.uuid.literal ++ ";\n")) ∧
      (library.typeNames.Nodup →
        (((File.ofLibrary context bound).typeItems.map TypeItem.name).Nodup ↔
          library.TypesApart) ∧
        (((File.ofLibrary context bound).constants.map UuidConstant.name).Nodup ↔
          library.ConstantsApart)) := by
  obtain ⟨library, rest, split, libraryBuilt⟩ := Binding.build_eq_ok built
  refine ⟨library, rest, split, fun _ => File.contains_typeItem, fun _ => File.contains_constant,
    fun distinct => ⟨?_, ?_⟩⟩
  · rw [File.names_typeItems libraryBuilt, library.perm_groupedNames.nodup_iff]
    exact Model.Library.nodup_groupedNames_iff distinct
  · rw [File.names_constants libraryBuilt]
    exact Model.Library.nodup_constantNames_iff (List.nodup_append.mp distinct).2.1

/-- A library in which all names are apart. -/
theorem item_names_distinct_iff_apart_sampleLibrary :
    ∃ bound, Binding.build (fun _ => none) [Binding.sampleLibrary] = .ok bound ∧
      Binding.sampleLibrary.typeNames.Nodup ∧ Binding.sampleLibrary.TypesApart ∧
      Binding.sampleLibrary.ConstantsApart := by
  have built : Binding.build (fun _ => none) [Binding.sampleLibrary] = .ok _ := rfl
  obtain ⟨library, rest, split, _, _, apart⟩ :=
    item_names_distinct_iff_apart built (Options.context {} "Thermo")
  obtain ⟨rfl, rfl⟩ := List.cons.inj split
  obtain ⟨types, constants⟩ := apart (by decide)
  exact ⟨_, built, by decide, types.mp (by decide), constants.mp (by decide)⟩

/-- A library whose names are distinct, but not without a leading `I` and not in capitals. -/
def phaseLibrary : Model.Library where
  name := "Thermo"
  uuid := ⟨List.replicate 16 20, rfl⟩
  enumerations := [⟨"Phase", [⟨"VAPOR", 0⟩, ⟨"LIQUID", 1⟩]⟩]
  interfaces := [
    { name := "IPhase", uuid := ⟨List.replicate 16 21, rfl⟩ },
    { name := "IPHASE", uuid := ⟨List.replicate 16 22, rfl⟩ }]

/-- Names that differ in the library meet in its text, once as types and once as constants. -/
theorem item_names_repeated_phaseLibrary :
    ∃ bound, Binding.build (fun _ => none) [phaseLibrary] = .ok bound ∧
      phaseLibrary.typeNames.Nodup ∧
      (∀ name ∈ phaseLibrary.typeNames, Identifier.isIdentifier name = true) ∧
      ¬ ((File.ofLibrary (Options.context {} "Thermo") bound).typeItems.map TypeItem.name).Nodup ∧
      ¬ ((File.ofLibrary (Options.context {} "Thermo") bound).constants.map
        UuidConstant.name).Nodup := by
  exact ⟨_, rfl, by decide, by decide, by decide, by decide⟩

end Source

end IdlBindings
