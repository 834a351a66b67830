import IdlBindings.Proofs.Contains
import IdlBindings.Proofs.MemberNames
import IdlBindings.Proofs.TrampolineSafety
import Mathlib.Data.List.Nodup

/-
This file lists the names in the scope of a trampoline, and tells from the declared arguments of a
method when one of these names hides another.
-/

namespace IdlBindings

namespace Identifier

/-- The word cannot name an argument as it is. -/
def isTaken (word : String) : Bool := generatedLocals.contains word || isReserved word

/-- An argument name gets a mark in front exactly if it is taken. -/
theorem escapeArgument_eq (word : String) :
    escapeArgument word = if isTaken word then "_" ++ word else word := by
  unfold escapeArgument escape isTaken
  cases generatedLocals.contains word with
  | true => rfl
  | false => rfl

/-- A marked word is not taken. -/
theorem not_isTaken_escaped (word : String) : isTaken ("_" ++ word) = false := by
  unfold isTaken
  rw [not_contains_escaped (by simp [generatedLocals]), not_isReserved_escaped]
  rfl

/-- No escaped name is taken. -/
theorem not_isTaken_escapeArgument (word : String) : isTaken (escapeArgument word) = false := by
  rw [escapeArgument_eq]
  cases taken : isTaken word with
  | true => exact not_isTaken_escaped word
  | false => exact taken

/-- A word that is taken is escaped to the other word. -/
def ArgumentEscapesTo (word other : String) : Prop :=
  isTaken word = true ∧ other = "_" ++ word

/-- The two names give one argument: they agree in snake case, or one is escaped to the other. -/
def SameArgument (name other : String) : Prop :=
  snakeCase name = snakeCase other ∨ ArgumentEscapesTo (snakeCase name) (snakeCase other) ∨
    ArgumentEscapesTo (snakeCase other) (snakeCase name)

/-- Two names are escaped to one only if one of them is what the other is escaped to. -/
theorem escapeArgument_eq_escapeArgument_iff (word other : String) :
    escapeArgument word = escapeArgument other ↔
      word = other ∨ ArgumentEscapesTo word other ∨ ArgumentEscapesTo other word := by
  rw [escapeArgument_eq, escapeArgument_eq]
  exact escaped_eq_escaped_iff not_isTaken_escaped word other

/-- What an escape yields is no word that may stand after the mark of another escape. -/
theorem escapeArgument_eq_marked_iff (word other : String) :
    escapeArgument word = "_" ++ escapeArgument other ↔ word = "_" ++ escapeArgument other := by
  rw [escapeArgument_eq word]
  cases taken : isTaken word with
  | false => rfl
  | true =>
      constructor
      · intro same
        have equal : word = escapeArgument other := (String.append_right_inj "_").mp same
        rw [equal, not_isTaken_escapeArgument] at taken
        cases taken
      · rintro rfl
        rw [not_isTaken_escaped] at taken
        cases taken

end Identifier

namespace Binding

namespace Argument

/-- Two declared names give one name exactly if they agree in snake case, or one is escaped to the
other. -/
theorem nameOf_eq_nameOf_iff (declared other : String) :
    nameOf declared = nameOf other ↔ Identifier.SameArgument declared other :=
  Identifier.escapeArgument_eq_escapeArgument_iff _ _

/-- A name that generated code takes for itself is the name of no argument. -/
theorem nameOf_ne_of_isTaken {fixed : String} (taken : Identifier.isTaken fixed = true)
    (declared : String) : nameOf declared ≠ fixed := by
  intro same
  have free := Identifier.not_isTaken_escapeArgument (Identifier.snakeCase declared)
  change Identifier.isTaken (nameOf declared) = false at free
  rw [same, taken] at free
  cases free

end Argument

namespace Method

/-- The arguments have the names that are derived from the declared ones. -/
def Named (method : Method) : Prop :=
  ∀ argument ∈ method.arguments, argument.name = Argument.nameOf argument.declaredName

/-- A method that was built has all its arguments named from what was declared. -/
theorem named_of_build {external : String → Option Nat} {libraries : List Model.Library}
    {bound : Library} (built : build external libraries = .ok bound) {interface : Interface}
    (ofLibrary : interface ∈ bound.interfaces) {method : Method}
    (ofInterface : method ∈ interface.methods) : method.Named := by
  intro argument ofMethod
  obtain ⟨library, rest, _, libraryBuilt⟩ := build_eq_ok built
  obtain ⟨owner, _, _, _, declared, _, _, argumentBuilt⟩ :=
    Library.exists_declared libraryBuilt ofLibrary ofInterface ofMethod
  obtain ⟨declaredName, name, _⟩ := Argument.ofModel_eq_ok argumentBuilt
  rw [name, declaredName]

/-- No two arguments have one name, and none is named like the storage of an output. -/
structure ArgumentsApart (method : Method) : Prop where
  arguments : method.arguments.Pairwise fun argument other =>
    ¬ Identifier.SameArgument argument.declaredName other.declaredName
  storage : ∀ stored ∈ method.arguments, stored.isSlotOutput = true →
    ∀ other ∈ method.arguments, Identifier.snakeCase other.declaredName ≠ "_" ++ stored.name

/-- The names of all arguments, in order. -/
def argumentNames (method : Method) : List String := method.arguments.map Argument.name

/-- The locals that hold the scalar outputs until they are stored. -/
def storageNames (method : Method) : List String :=
  (method.arguments.filter Argument.isSlotOutput).map fun argument => "_" ++ argument.name

variable {method : Method}

/-- The argument names differ exactly if no two declared names give one argument. -/
theorem nodup_argumentNames_iff (named : method.Named) :
    method.argumentNames.Nodup ↔ method.arguments.Pairwise fun argument other =>
      ¬ Identifier.SameArgument argument.declaredName other.declaredName := by
  unfold argumentNames List.Nodup
  rw [List.pairwise_map]
  refine List.Pairwise.iff_of_mem fun {argument other} member memberOther => ?_
  rw [named argument member, named other memberOther, ne_eq, Argument.nameOf_eq_nameOf_iff]

/-- The storage for results is named apart if the arguments are. -/
theorem nodup_storageNames (distinct : method.argumentNames.Nodup) :
    method.storageNames.Nodup := by
  have stored : ((method.arguments.filter Argument.isSlotOutput).map Argument.name).Nodup :=
    distinct.sublist (List.filter_sublist.map Argument.name)
  have marked := stored.map fun _ _ same => (String.append_right_inj "_").mp same
  rwa [List.map_map] at marked

/-- An argument meets storage only if its declared name gives the marked name of an output. -/
theorem disjoint_storageNames_iff (named : method.Named) :
    (∀ name ∈ method.argumentNames, ∀ stored ∈ method.storageNames, name ≠ stored) ↔
      ∀ stored ∈ method.arguments, stored.isSlotOutput = true →
        ∀ other ∈ method.arguments, Identifier.snakeCase other.declaredName ≠ "_" ++ stored.name := by
  have each {other stored : Argument} (memberOther : other ∈ method.arguments)
      (member : stored ∈ method.arguments) :
      other.name = "_" ++ stored.name ↔
        Identifier.snakeCase other.declaredName = "_" ++ stored.name := by
    rw [named other memberOther, named stored member]
    exact Identifier.escapeArgument_eq_marked_iff _ _
  simp only [argumentNames, storageNames, List.forall_mem_map, List.mem_filter]
  constructor
  · intro apart stored member slot other memberOther same
    exact apart other memberOther stored ⟨member, slot⟩ ((each memberOther member).mpr same)
  · intro apart other memberOther stored member same
    exact apart stored member.1 member.2 other memberOther ((each memberOther member.1).mp same)

/-- The names that a trampoline declares whatever its arguments are. -/
def fixedNames : List String := ["me", "p", "myself"]

/-- The names that generated code fixes are met by no argument and no storage. -/
theorem fixedNames_disjoint (named : method.Named) :
    ∀ fixed ∈ fixedNames, ∀ name ∈ method.argumentNames ++ method.storageNames, fixed ≠ name := by
  intro fixed isFixed name member
  have taken : Identifier.isTaken fixed = true := by
    revert fixed
    decide
  rcases List.mem_append.mp member with ofArgument | ofStorage
  · obtain ⟨argument, listed, rfl⟩ := List.mem_map.mp ofArgument
    rw [named argument listed]
    exact (Argument.nameOf_ne_of_isTaken taken argument.declaredName).symm
  · obtain ⟨argument, _, rfl⟩ := List.mem_map.mp ofStorage
    rintro rfl
    rw [Identifier.not_isTaken_escaped] at taken
    cases taken

/-- All names of a scope differ exactly if the arguments are apart. -/
theorem nodup_names_iff (named : method.Named) :
    (fixedNames ++ (method.argumentNames ++ method.storageNames)).Nodup ↔
      method.ArgumentsApart := by
  have arguments := nodup_argumentNames_iff named
  have storage := disjoint_storageNames_iff named
  constructor
  · intro distinct
    obtain ⟨_, others, _⟩ := List.nodup_append.mp distinct
    obtain ⟨names, _, apart⟩ := List.nodup_append.mp others
    exact ⟨arguments.mp names, storage.mp apart⟩
  · intro apart
    have names := arguments.mpr apart.arguments
    have others := List.nodup_append.mpr
      ⟨names, nodup_storageNames names, storage.mpr apart.storage⟩
    exact List.nodup_append.mpr ⟨by decide, others, fixedNames_disjoint named⟩

end Method

end Binding

namespace Source

open Binding (Argument Method)

/-- The place where a function takes a name into its scope, with what stands around the name. -/
structure ScopeEntry where
  opening : String
  name : String
  ending : String

/-- An entry of a scope as it is written. -/
def ScopeEntry.text (entry : ScopeEntry) : String := entry.opening ++ entry.name ++ entry.ending

namespace Line

/-- What a line takes into the scope. A step that gives an argument another form keeps its name,
and only storage is a local of its own. -/
def scopeEntries : Line → List ScopeEntry
  | signature declared =>
      ⟨"(", "me", ": *mut std::ffi::c_void"⟩ ::
        declared.parameters.map fun parameter => ⟨",", parameter.name, ":" ++ parameter.type⟩
  | entry =>
      [⟨"\t\tlet ", "p", " = me as *mut Self::T;\n"⟩,
        ⟨"\t\tlet ", "myself", "=unsafe \x7b &mut *p \x7d;\n"⟩]
  | storage name raw initial =>
      [⟨"\t\tlet mut ", "_" ++ name, ":" ++ raw ++ "=" ++ initial ++ ";\n"⟩]
  | _ => []

/-- What a line brings into scope is written in the line. -/
theorem contains_scopeEntry {line : Line} {entry : ScopeEntry}
    (member : entry ∈ line.scopeEntries) : Text.Contains line.text entry.text := by
  unfold scopeEntries at member
  split at member
  case h_1 declared =>
    rcases List.mem_cons.mp member with rfl | ofParameter
    · have cut : "(me: *mut std::ffi::c_void" = "(" ++ "me" ++ ": *mut std::ffi::c_void" := by decide
      unfold text Signature.text
      rewrite [cut]
      exact ⟨"\textern \"C\" fn " ++ declared.symbol, _, by simp only [String.append_assoc]; rfl⟩
    · obtain ⟨parameter, listed, rfl⟩ := List.mem_map.mp ofParameter
      have joined := Text.Contains.join (List.mem_map_of_mem
        (f := fun parameter : TypedName => "," ++ parameter.name ++ ":" ++ parameter.type) listed)
      have same : ScopeEntry.text ⟨",", parameter.name, ":" ++ parameter.type⟩ =
          "," ++ parameter.name ++ ":" ++ parameter.type := by
        simp only [ScopeEntry.text, String.append_assoc]
      rw [same]
      exact (((joined.append_left _).append_right _).append_right _).append_right _
  case h_2 =>
    simp only [List.mem_cons, List.not_mem_nil, or_false] at member
    rcases member with rfl | rfl
    · exact ⟨"", "\t\tlet myself=unsafe \x7b &mut *p \x7d;\n", by decide⟩
    · exact ⟨"\t\tlet p = me as *mut Self::T;\n", "", by decide⟩
  case h_3 name raw initial =>
    obtain rfl := List.mem_singleton.mp member
    have cut : "\t\tlet mut _" = "\t\tlet mut " ++ "_" := by decide
    unfold text
    rewrite [cut]
    exact ⟨"", "", by simp only [ScopeEntry.text, String.append_assoc, String.empty_append,
      String.append_empty]⟩
  case h_4 => cases member

end Line

namespace Trampoline

/-- What stands in the scope of the function, in the order of its lines. -/
def scope (trampoline : Trampoline) : List ScopeEntry :=
  trampoline.lines.flatMap Line.scopeEntries

/-- What a trampoline brings into scope is written in its text. -/
theorem contains_scopeEntry {trampoline : Trampoline} {entry : ScopeEntry}
    (member : entry ∈ trampoline.scope) : Text.Contains trampoline.text entry.text := by
  obtain ⟨line, listed, within⟩ := List.mem_flatMap.mp member
  rw [← join_lines]
  have joined := Text.Contains.join (List.mem_map_of_mem (f := Line.text) listed)
  exact joined.trans (Line.contains_scopeEntry within)

/-- Only a scalar output that is not returned is prepared by a local of its own. -/
theorem names_preparation (context : Context) (label : String) (argument : Argument) :
    ((Preparation.ofArgument? context argument).toList.flatMap fun step =>
        (Line.ofPreparation label step).scopeEntries.map ScopeEntry.name) =
      if argument.isSlotOutput then ["_" ++ argument.name] else [] := by
  unfold Preparation.ofArgument? Argument.isSlotOutput Argument.isResult
  cases argument.type with
  | carried _ | object _ | parameter _ _ =>
      cases argument.isOutput <;> rfl
  | scalar type =>
      dsimp only
      cases argument.returned <;> cases argument.isOutput <;> cases type.packedName? <;> rfl

/-- The preparations bring the storage of the outputs into scope, and nothing else. -/
theorem names_preparations (context : Context) (label : String) (arguments : List Argument) :
    ((arguments.filterMap (Preparation.ofArgument? context)).flatMap fun step =>
        (Line.ofPreparation label step).scopeEntries.map ScopeEntry.name) =
      (arguments.filter Argument.isSlotOutput).map fun argument => "_" ++ argument.name := by
  rw [List.filterMap_eq_flatMap_toList, List.flatMap_assoc]
  simp only [names_preparation]
  induction arguments with
  | nil => rfl
  | cons argument rest ih =>
      rw [List.flatMap_cons, ih, List.filter_cons]
      cases argument.isSlotOutput <;> rfl

/-- The names in scope are that of the called object, those of the arguments, the two that every
trampoline declares, and those of the storage. -/
theorem names_scope (context : Context) (interface : Binding.Interface) (method : Method) :
    (ofMethod context interface method).scope.map ScopeEntry.name =
      "me" :: (method.argumentNames ++ ("p" :: "myself" :: method.storageNames)) := by
  have prepared : ((ofMethod context interface method).preparations.flatMap fun step =>
      (Line.ofPreparation (ofMethod context interface method).label step).scopeEntries.map
        ScopeEntry.name) = method.storageNames :=
    names_preparations context _ method.arguments
  have signed : ((ofMethod context interface method).signature.parameters.map fun parameter =>
      parameter.name) = method.argumentNames := by
    simp [signature, ofMethod, Binding.Method.argumentNames, Function.comp_def]
  have success : (ofMethod context interface method).success.flatMap Line.scopeEntries = [] := by
    unfold success
    split
    · rfl
    · simp [Line.scopeEntries]
  unfold scope lines
  rw [List.flatMap_append, List.flatMap_append, success]
  unfold opening failure
  simp only [List.flatMap_cons, List.flatMap_append, List.flatMap_map, List.flatMap_nil,
    List.map_append, List.map_flatMap, prepared]
  simp [Line.scopeEntries, Function.comp_def, signed]

end Trampoline

/-- The names in the scope of a trampoline stand in its text, and they are distinct exactly if no
two arguments of the method have one name and none is named like the storage of an output. -/
theorem scope_names_distinct_iff_apart {external : String → Option Nat}
    {libraries : List Model.Library} {bound : Binding.Library}
    (built : Binding.build external libraries = .ok bound) (context : Context)
    {interface : Binding.Interface} (ofLibrary : interface ∈ bound.interfaces) {method : Method}
    (ofInterface : method ∈ interface.methods) :
    (∀ entry ∈ (Trampoline.ofMethod context interface method).scope,
      Text.Contains (Trampoline.ofMethod context interface method).text entry.text) ∧
    (Trampoline.ofMethod context interface method).scope.map ScopeEntry.name =
      "me" :: (method.arguments.map Argument.name ++ ("p" :: "myself" ::
        (method.arguments.filter Argument.isSlotOutput).map fun argument => "_" ++ argument.name)) ∧
    (((Trampoline.ofMethod context interface method).scope.map ScopeEntry.name).Nodup ↔
      method.ArgumentsApart) := by
  have named := Binding.Method.named_of_build built ofLibrary ofInterface
  refine ⟨fun _ => Trampoline.contains_scopeEntry, Trampoline.names_scope context interface method,
    ?_⟩
  rw [Trampoline.names_scope, ← Binding.Method.nodup_names_iff named]
  apply List.Perm.nodup_iff
  exact (List.perm_append_comm_assoc method.argumentNames ["p", "myself"] _).cons "me"

/-- A method with a result in storage whose names are all apart. -/
theorem scope_names_distinct_iff_apart_sampleLibrary :
    ∃ bound interface method,
      Binding.build (fun _ => none) [Binding.sampleLibrary] = .ok bound ∧
      interface ∈ bound.interfaces ∧ method ∈ interface.methods ∧
      (method.arguments.filter Argument.isSlotOutput).map Argument.name = ["found"] ∧
      method.ArgumentsApart := by
  have built : Binding.build (fun _ => none) [Binding.sampleLibrary] = .ok _ := rfl
  refine ⟨_, _, _, built, .head _, .head _, by decide, ?_⟩
  have facts := scope_names_distinct_iff_apart built (Options.context {} "Thermo") (.head _) (.head _)
  exact facts.2.2.mp (by decide)

/-- A library whose method takes a value and yields another one under nearly the same name. -/
def exchangeLibrary : Model.Library where
  name := "Thermo"
  uuid := ⟨List.replicate 16 27, rfl⟩
  interfaces := [{
    name := "IThing"
    uuid := ⟨List.replicate 16 28, rfl⟩
    methods := [{
      name := "Exchange"
      returnType := some { kind := .result }
      arguments := [
        ⟨"_value", [⟨"in", none⟩], { kind := .integer }⟩,
        ⟨"value", [⟨"out", none⟩], { kind := .integer }⟩] }] }]

/-- Two declared names that differ, where the storage of one output hides the other argument. -/
theorem scope_names_repeated_exchangeLibrary :
    ∃ bound interface method, Binding.build (fun _ => none) [exchangeLibrary] = .ok bound ∧
      interface ∈ bound.interfaces ∧ method ∈ interface.methods ∧
      (method.arguments.map Argument.declaredName).Nodup ∧
      ¬ ((Trampoline.ofMethod (Options.context {} "Thermo") interface method).scope.map
        ScopeEntry.name).Nodup := by
  exact ⟨_, _, _, rfl, .head _, .head _, by decide, by decide⟩

end Source

end IdlBindings
