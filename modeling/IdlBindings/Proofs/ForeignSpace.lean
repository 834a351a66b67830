import IdlBindings.Proofs.TypeSpelling
import IdlBindings.Source.File
import Mathlib.Data.String.Basic

/-
This file shows which namespaces a binding calls foreign. They are the ones that the declared types
of its arguments name, at any depth, and the head of the generated source and the warnings of the
build list them as the binding does.
-/

namespace IdlBindings

namespace Model

/-- The whole occurs in itself, and so does what occurs in something that fills a place of it. -/
inductive DataType.Occurs (part : DataType) : DataType → Prop
  | whole : Occurs part part
  | inside {type inner : DataType} (member : inner ∈ type.templateTypes)
      (occurs : Occurs part inner) : Occurs part type

/-- A reference to an interface or an enumeration, by a name that is qualified by a namespace
foreign to the library. -/
def DataType.RefersAbroad (type : DataType) (library space : String) : Prop :=
  (type.kind = .interface ∨ type.kind = .enumeration) ∧
    ∃ declared, type.name = some declared ∧ ScopedName.Foreign library space ∧
      ∃ name, ScopedName.PartedAt declared.toList space.toList name

/-- The types that the type of an argument is made of: itself, everything that occurs in an
interface, and the element of an array of enumerations. -/
inductive Argument.Mentions (argument : Argument) : DataType → Prop
  | whole : Mentions argument argument.dataType
  | inside {part : DataType} (kind : argument.dataType.kind = .interface)
      (occurs : part.Occurs argument.dataType) : Mentions argument part
  | element {part : DataType} (kind : argument.dataType.kind = .arrayEnumeration)
      (member : part ∈ argument.dataType.templateTypes) : Mentions argument part

/-- A foreign namespace that an argument of some method refers to. -/
def Library.RefersTo (library : Library) (space : String) : Prop :=
  ∃ interface ∈ library.interfaces, ∃ method ∈ interface.methods,
    ∃ argument ∈ method.arguments, ∃ part, argument.Mentions part ∧
      part.RefersAbroad library.name space

/-- A part occurs in a type as the type itself, or within what fills it. -/
theorem DataType.occurs_iff {part type : DataType} :
    part.Occurs type ↔ part = type ∨ ∃ inner ∈ type.templateTypes, part.Occurs inner := by
  constructor
  · intro occurs
    cases occurs with
    | whole => exact .inl rfl
    | inside member inner => exact .inr ⟨_, member, inner⟩
  · intro either
    rcases either with same | ⟨inner, member, occurs⟩
    · subst same
      exact .whole
    · exact .inside member occurs

/-- Something in a type refers abroad if the type itself does or something in one of its places. -/
theorem DataType.exists_occurs_iff {type : DataType} {library space : String} :
    (∃ part : DataType, part.Occurs type ∧ part.RefersAbroad library space) ↔
      type.RefersAbroad library space ∨
        ∃ inner ∈ type.templateTypes, ∃ part : DataType, part.Occurs inner ∧
          part.RefersAbroad library space := by
  constructor
  · rintro ⟨part, occurs, refers⟩
    rcases occurs_iff.mp occurs with rfl | ⟨inner, member, occurs⟩
    · exact .inl refers
    · exact .inr ⟨inner, member, part, occurs, refers⟩
  · rintro (refers | ⟨inner, member, part, occurs, refers⟩)
    · exact ⟨type, .whole, refers⟩
    · exact ⟨part, .inside member occurs, refers⟩

/-- Only interfaces and enumerations refer to another library. -/
theorem DataType.not_refersAbroad {type : DataType} (notInterface : type.kind ≠ .interface)
    (notEnumeration : type.kind ≠ .enumeration) (library space : String) :
    ¬ type.RefersAbroad library space :=
  fun refers => refers.1.elim notInterface notEnumeration

/-- Only the type itself is mentioned if it is neither an interface nor an array. -/
theorem Argument.exists_mentions_iff_whole {argument : Argument} {library space : String}
    (notInterface : argument.dataType.kind ≠ .interface)
    (notArray : argument.dataType.kind ≠ .arrayEnumeration) :
    (∃ part, argument.Mentions part ∧ part.RefersAbroad library space) ↔
      argument.dataType.RefersAbroad library space := by
  constructor
  · rintro ⟨part, mentions, refers⟩
    cases mentions with
    | whole => exact refers
    | inside kind _ => exact absurd kind notInterface
    | element kind _ => exact absurd kind notArray
  · intro refers
    exact ⟨_, .whole, refers⟩

/-- An object mentions another library where a part of its type does. -/
theorem Argument.exists_mentions_iff_occurs {argument : Argument} {library space : String}
    (kind : argument.dataType.kind = .interface) :
    (∃ part, argument.Mentions part ∧ part.RefersAbroad library space) ↔
      ∃ part : DataType, part.Occurs argument.dataType ∧ part.RefersAbroad library space := by
  constructor
  · rintro ⟨part, mentions, refers⟩
    cases mentions with
    | whole => exact ⟨_, .whole, refers⟩
    | inside _ occurs => exact ⟨part, occurs, refers⟩
    | element array _ => cases kind.symm.trans array
  · rintro ⟨part, occurs, refers⟩
    exact ⟨part, .inside kind occurs, refers⟩

/-- An array mentions another library where its elements do. -/
theorem Argument.exists_mentions_iff_element {argument : Argument} {library space : String}
    (kind : argument.dataType.kind = .arrayEnumeration) :
    (∃ part, argument.Mentions part ∧ part.RefersAbroad library space) ↔
      ∃ part ∈ argument.dataType.templateTypes, part.RefersAbroad library space := by
  constructor
  · rintro ⟨part, mentions, refers⟩
    cases mentions with
    | whole => exact absurd refers (DataType.not_refersAbroad (by simp [kind]) (by simp [kind]) _ _)
    | inside isInterface _ => cases kind.symm.trans isInterface
    | element _ member => exact ⟨part, member, refers⟩
  · rintro ⟨part, member, refers⟩
    exact ⟨part, .element kind member, refers⟩

end Model

/-- The foreign spaces of arguments are those of each of them. -/
theorem TemplateArgument.foreignSpacesOf_eq_flatMap (arguments : List TemplateArgument) :
    TemplateArgument.foreignSpacesOf arguments =
      arguments.flatMap TemplateArgument.foreignSpaces := by
  induction arguments with
  | nil => rfl
  | cons argument rest ih => rw [foreignSpacesOf, ih, List.flatMap_cons]

namespace Scope

variable {scope : Scope} {owner : Model.Interface} {type : Model.DataType} {space : String}

/-- A name is resolved abroad exactly if the type refers abroad. -/
theorem foreignSpace?_resolve_iff (kind : type.kind = .interface ∨ type.kind = .enumeration)
    {declared : String} (named : type.name = some declared) :
    (ScopedName.resolve scope.library declared).foreignSpace? = some space ↔
      type.RefersAbroad scope.library space := by
  rw [ScopedName.foreignSpace?_resolve_eq_some_iff]
  simp [Model.DataType.RefersAbroad, kind, named]

/-- An interface brings in the space that it refers to. -/
theorem mem_foreignSpaces_referred (kind : type.kind = .interface) :
    space ∈ (scope.referred type.typeName).foreignSpaces ↔
      type.RefersAbroad scope.library space := by
  cases named : type.name with
  | none =>
      have base : type.typeName = baseInterface := by
        simp [Model.DataType.typeName, named, kind, Model.Kind.canonicalName, baseInterface]
      simp [referred, base, ObjectInterface.foreignSpaces, Model.DataType.RefersAbroad, named]
  | some declared =>
      have typeName : type.typeName = declared := by simp [Model.DataType.typeName, named]
      rw [← foreignSpace?_resolve_iff (.inl kind) named]
      by_cases base : declared = baseInterface
      · have own : ScopedName.resolve scope.library declared = ⟨.own, declared⟩ :=
          ScopedName.resolve_of_not_mem (base ▸ by decide)
        rw [own]
        simp [referred, typeName, base, ObjectInterface.foreignSpaces, ScopedName.foreignSpace?]
      · simp [referred, typeName, base, ObjectInterface.foreignSpaces]

/-- An enumeration brings in the space that it refers to. -/
theorem mem_foreignSpaces_enumeration (kind : type.kind = .enumeration) :
    space ∈ (scope.enumeration type).foreignSpaces ↔ type.RefersAbroad scope.library space := by
  cases named : type.name with
  | none =>
      simp [enumeration, EnumerationReference.foreignSpaces, Model.DataType.RefersAbroad, named]
  | some declared =>
      rw [← foreignSpace?_resolve_iff (.inr kind) named]
      by_cases generic : declared = genericEnumeration
      · have own : ScopedName.resolve scope.library declared = ⟨.own, declared⟩ :=
          ScopedName.resolve_of_not_mem (generic ▸ by decide)
        rw [own]
        simp [enumeration, named, generic, EnumerationReference.foreignSpaces,
          ScopedName.foreignSpace?]
      · simp [enumeration, named, generic, EnumerationReference.foreignSpaces]

/-- A resolved type names the foreign namespaces that something in the declared one refers to. -/
theorem mem_foreignSpaces_templateArgument {argument : TemplateArgument}
    (resolved : scope.templateArgument owner type = .ok argument) :
    (∃ part : Model.DataType, part.Occurs type ∧ part.RefersAbroad scope.library space) ↔
      space ∈ argument.foreignSpaces := by
  refine scope.templateArgument_induction owner (motive := fun type argument =>
    (∃ part : Model.DataType, part.Occurs type ∧ part.RefersAbroad scope.library space) ↔
      space ∈ argument.foreignSpaces) ?_ ?_ resolved
  · intro type index name kind found
    obtain ⟨unfilled, _, _⟩ := (parameter_eq_ok_iff owner type index name).mp found
    rw [Model.DataType.exists_occurs_iff, unfilled]
    simp [Model.DataType.RefersAbroad, kind, TemplateArgument.foreignSpaces]
  · intro type arguments kind _ inner
    rw [TemplateArgument.foreignSpaces, TemplateArgument.foreignSpacesOf_eq_flatMap,
      List.mem_append, List.mem_flatMap, mem_foreignSpaces_referred kind,
      ← exists_mem_iff_of_forall₂ inner, Model.DataType.exists_occurs_iff]

/-- An object type brings in the spaces that its parts refer to, at any depth. -/
theorem mem_foreignSpaces_object {objectType : ObjectType} (kind : type.kind = .interface)
    (resolved : scope.object owner type = .ok objectType) :
    (∃ part : Model.DataType, part.Occurs type ∧ part.RefersAbroad scope.library space) ↔
      space ∈ objectType.foreignSpaces := by
  have whole : scope.templateArgument owner type =
      .ok (.object objectType.interface objectType.arguments) := by
    rw [scope.templateArgument_eq_object owner kind, resolved]
    rfl
  rw [mem_foreignSpaces_templateArgument whole, TemplateArgument.foreignSpaces,
    ObjectType.foreignSpaces]

/-- The type of an argument names the foreign namespaces that the declared types refer to. -/
theorem Resolves.mem_foreignSpaces {argument : Model.Argument} {direction : Direction}
    {bound : ArgumentType} (resolves : scope.Resolves owner direction argument.dataType bound) :
    (∃ part, argument.Mentions part ∧ part.RefersAbroad scope.library space) ↔
      space ∈ bound.foreignSpaces := by
  cases resolves with
  | scalar scalar kind _ reference =>
      have notInterface : argument.dataType.kind ≠ .interface := by
        rw [← kind]
        cases scalar <;> nofun
      have notArray : argument.dataType.kind ≠ .arrayEnumeration := by
        rw [← kind]
        cases scalar <;> nofun
      rw [Model.Argument.exists_mentions_iff_whole notInterface notArray]
      cases scalar with
      | enumeration found =>
          rw [ArgumentType.foreignSpaces, reference found rfl,
            mem_foreignSpaces_enumeration kind.symm]
      | _ => simp [Model.DataType.RefersAbroad, ← kind, ScalarType.kind, ArgumentType.foreignSpaces]
  | carried carried kind element =>
      cases carried with
      | arrayEnumeration found =>
          obtain ⟨inner, single, isEnumeration, rfl⟩ := element_eq_ok (element found rfl)
          rw [Model.Argument.exists_mentions_iff_element kind.symm]
          simp [single, ArgumentType.foreignSpaces, mem_foreignSpaces_enumeration isEnumeration]
      | _ =>
          rw [Model.Argument.exists_mentions_iff_whole (by simp [← kind, CarriedType.kind])
            (by simp [← kind, CarriedType.kind])]
          simp [Model.DataType.RefersAbroad, ← kind, CarriedType.kind, ArgumentType.foreignSpaces]
  | object objectType kind resolved =>
      rw [Model.Argument.exists_mentions_iff_occurs kind, mem_foreignSpaces_object kind resolved,
        ArgumentType.foreignSpaces]
  | parameter index name kind found =>
      rw [Model.Argument.exists_mentions_iff_whole (by simp [kind]) (by simp [kind])]
      simp [Model.DataType.RefersAbroad, kind, ArgumentType.foreignSpaces]

end Scope

namespace Binding

theorem mem_insertSorted {text other : String} {texts : List String} :
    other ∈ insertSorted text texts ↔ other = text ∨ other ∈ texts := by
  fun_induction insertSorted text texts with
  | case1 => simp
  | case2 => simp
  | case3 => simp
  | case4 first rest _ _ ih => simp only [List.mem_cons, ih, or_left_comm]

/-- A text is inserted in order. -/
theorem pairwise_insertSorted {text : String} {texts : List String}
    (sorted : texts.Pairwise (· < ·)) : (insertSorted text texts).Pairwise (· < ·) := by
  fun_induction insertSorted text texts with
  | case1 => exact List.pairwise_singleton _ _
  | case2 => exact sorted
  | case3 first rest _ smaller =>
      refine List.pairwise_cons.mpr ⟨?_, sorted⟩
      intro other member
      rcases List.mem_cons.mp member with rfl | later
      · exact smaller
      · exact lt_trans smaller (List.rel_of_pairwise_cons sorted later)
  | case4 first rest different notSmaller ih =>
      obtain ⟨least, restSorted⟩ := List.pairwise_cons.mp sorted
      refine List.pairwise_cons.mpr ⟨?_, ih restSorted⟩
      intro other member
      rcases mem_insertSorted.mp member with rfl | later
      · exact lt_of_le_of_ne (not_lt.mp notSmaller) (Ne.symm different)
      · exact least other later

/-- A sorted set has the members of the list. -/
theorem mem_sortedSet {text : String} {texts : List String} :
    text ∈ sortedSet texts ↔ text ∈ texts := by
  induction texts with
  | nil => rfl
  | cons first rest ih => rw [sortedSet, List.foldr_cons, mem_insertSorted, List.mem_cons, ← ih,
      sortedSet]

/-- A sorted set is strictly ordered. -/
theorem pairwise_sortedSet (texts : List String) : (sortedSet texts).Pairwise (· < ·) := by
  induction texts with
  | nil => exact .nil
  | cons first rest ih => exact pairwise_insertSorted ih

variable {scope : Scope} {owner : Model.Interface} {external : String → Option Nat}
  {space : String}

/-- The foreign spaces of interfaces are those of their arguments. -/
theorem Library.mem_foreignSpacesOf {interfaces : List Interface} :
    space ∈ foreignSpacesOf interfaces ↔
      ∃ interface ∈ interfaces, ∃ method ∈ interface.methods,
        ∃ argument ∈ method.arguments, space ∈ argument.type.foreignSpaces := by
  simp only [foreignSpacesOf, mem_sortedSet, List.mem_flatMap]

/-- A binding lists the foreign namespaces that the arguments of its library refer to. -/
theorem Library.mem_foreignSpaces {declared : Model.Library} {bound : Library}
    (built : Library.ofModel external declared = .ok bound) :
    declared.RefersTo space ↔ space ∈ bound.foreignSpaces := by
  obtain ⟨_, _, _, _, interfaces, listed⟩ := Library.ofModel_eq_ok built
  rw [listed, mem_foreignSpacesOf]
  refine exists_mem_iff_of_forall₂ (forall₂_of_mem interfaces ?_)
  intro interface boundInterface _ builtInterface
  obtain ⟨_, _, _, _, methods⟩ := Interface.ofModel_eq_ok builtInterface
  refine exists_mem_iff_of_forall₂ (forall₂_of_mem methods ?_)
  intro method boundMethod _ builtMethod
  obtain ⟨_, _, _, _, _, arguments⟩ := Method.ofModel_eq_ok builtMethod
  refine exists_mem_iff_of_forall₂ (forall₂_of_mem arguments ?_)
  intro argument boundArgument _ builtArgument
  obtain ⟨_, _, _, _, _, resolves⟩ := Argument.ofModel_eq_ok builtArgument
  exact resolves.mem_foreignSpaces

/-- What the events of every entry have in common is also had by those up to the first fault. -/
theorem forall_mem_eventsThrough {α β ε : Type} {run : α → Except ε β} {events : α → List Event}
    {property : Event → Prop} {entries : List α}
    (each : ∀ entry ∈ entries, ∀ event ∈ events entry, property event) :
    ∀ event ∈ eventsThrough run events entries, property event := by
  induction entries with
  | nil => nofun
  | cons entry rest ih =>
      obtain ⟨first, others⟩ := List.forall_mem_cons.mp each
      refine List.forall_mem_append.mpr ⟨first, ?_⟩
      cases run entry with
      | ok _ => exact ih others
      | error _ => nofun

theorem Enumeration.level_of_mem_events (enumeration : Model.Enumeration) :
    ∀ event ∈ Enumeration.events enumeration, event.level = .debug := by
  unfold Enumeration.events
  cases Enumeration.ofModel enumeration <;> simp [Event.level]

/-- Building a method tells nothing but details. -/
theorem Method.level_of_mem_events (method : Model.Method) :
    ∀ event ∈ Method.events scope owner method, event.level = .debug := by
  unfold Method.events
  cases Method.ofModel scope owner method <;> simp [Event.level]

/-- Building an interface tells nothing but details. -/
theorem Interface.level_of_mem_events (interface : Model.Interface) :
    ∀ event ∈ Interface.events scope interface, event.level = .debug := by
  refine List.forall_mem_append.mpr ⟨?_, ?_⟩
  · exact forall_mem_eventsThrough fun method _ => Method.level_of_mem_events method
  · cases Interface.ofModel scope interface <;> simp [Event.level]

/-- The warnings among the events of a build. -/
def warnings (external : String → Option Nat) (libraries : List Model.Library) : List Event :=
  (buildEvents external libraries).filter fun event => event.level = .warn

/-- Details are no warnings. -/
theorem filter_warn_eq_nil {events : List Event} (debug : ∀ event ∈ events, event.level = .debug) :
    events.filter (fun event => event.level = .warn) = [] := by
  rw [List.filter_eq_nil_iff]
  intro event member
  simp [debug event member]

/-- A library gives one warning for each foreign namespace, and none if it cannot be built. -/
theorem Library.filter_warn_events (external : String → Option Nat) (library : Model.Library) :
    (Library.events external library).filter (fun event => event.level = .warn) =
      match Library.ofModel external library with
      | .ok bound => bound.foreignSpaces.map .foreignSpace
      | .error _ => [] := by
  have enumerationEvents : ∀ event ∈ eventsThrough Enumeration.ofModel Enumeration.events
      library.enumerations, event.level = .debug :=
    forall_mem_eventsThrough fun enumeration _ => Enumeration.level_of_mem_events enumeration
  have interfaceEvents : ∀ event ∈ eventsThrough
      (Interface.ofModel (Scope.ofLibrary library external))
      (Interface.events (Scope.ofLibrary library external)) library.interfaces,
      event.level = .debug :=
    forall_mem_eventsThrough fun interface _ => Interface.level_of_mem_events interface
  unfold Library.events
  rw [List.filter_append, filter_warn_eq_nil enumerationEvents, List.nil_append]
  cases each : library.enumerations.mapM Enumeration.ofModel with
  | error fault =>
      have failed : Library.ofModel external library = .error fault := by
        rw [Library.ofModel, each]
        rfl
      rw [failed]
      rfl
  | ok enumerations =>
      simp only [List.filter_append, filter_warn_eq_nil interfaceEvents, List.nil_append]
      cases Library.ofModel external library with
      | ok bound => exact List.filter_eq_self.mpr (by simp [Event.level])
      | error fault => rfl

end Binding

namespace Source

/-- The comment under which the head of the source lists foreign namespaces, if there are any. -/
def foreignComment : List String → String
  | [] => ""
  | spaces =>
      "\n//Foreign namespaces, must be imported by the including module:\n" ++
        String.join (spaces.map fun space => "//  " ++ space ++ "\n")

/-- A source begins with its imports. The foreign namespaces come next, and then the identifier of
the library. -/
def HeadLists (imports spaces : List String) (code : String) : Prop :=
  ∃ rest, code = "// This file was generated by cidl2rs\n" ++
    String.join (imports.map fun path => "use " ++ path ++ ";\n") ++ foreignComment spaces ++
      "\n//library ID\n" ++ rest

/-- The head of a file lists its imports and foreign spaces. -/
theorem headLists_text (file : File) :
    HeadLists file.preamble.imports file.preamble.foreignSpaces file.text := by
  have comment : Preamble.titled "Foreign namespaces, must be imported by the including module:"
      (file.preamble.foreignSpaces.map fun space => "//  " ++ space ++ "\n") =
        foreignComment file.preamble.foreignSpaces := by
    cases file.preamble.foreignSpaces <;> rfl
  have identifier : Preamble.titled "library ID" [file.preamble.library.text] =
      "\n//library ID\n" ++ file.preamble.library.text := by
    simp [Preamble.titled, String.join]
  unfold File.text Preamble.text
  rw [comment, identifier]
  simp only [HeadLists, String.append_assoc]
  exact ⟨_, rfl⟩

open Binding (build warnings)

/-- The foreign namespaces of a binding are exactly those that the arguments of the library refer
to, each once and sorted. The head of the source and the warnings list the same ones; a build that
fails warns of nothing. -/
theorem build_reports_foreign_spaces (external : String → Option Nat)
    (libraries : List Model.Library) :
    (∀ bound, build external libraries = .ok bound →
      ∃ library rest, libraries = library :: rest ∧
        (∀ space, space ∈ bound.foreignSpaces ↔ library.RefersTo space) ∧
        bound.foreignSpaces.Pairwise (· < ·) ∧
        (∀ options, ∃ code, generate options external libraries = .ok code ∧
          HeadLists (Preamble.ofLibrary (options.context bound.name) bound).imports
            bound.foreignSpaces code) ∧
        warnings external libraries = bound.foreignSpaces.map .foreignSpace) ∧
    ∀ fault, build external libraries = .error fault → warnings external libraries = [] := by
  constructor
  · intro bound built
    obtain ⟨library, rest, rfl, libraryBuilt⟩ := Binding.build_eq_ok built
    refine ⟨library, rest, rfl, fun space => (Binding.Library.mem_foreignSpaces libraryBuilt).symm,
      ?_, ?_, ?_⟩
    · obtain ⟨_, _, _, _, _, listed⟩ := Binding.Library.ofModel_eq_ok libraryBuilt
      rw [listed]
      exact Binding.pairwise_sortedSet _
    · intro options
      refine ⟨_, ?_, headLists_text (File.ofLibrary (options.context bound.name) bound)⟩
      rw [generate, built]
      rfl
    · rw [warnings, Binding.buildEvents, Binding.Library.filter_warn_events, libraryBuilt]
  · intro fault failed
    cases libraries with
    | nil => rfl
    | cons library rest =>
        have libraryFailed : Binding.Library.ofModel external library = .error fault := failed
        rw [warnings, Binding.buildEvents, Binding.Library.filter_warn_events, libraryFailed]

/-- A library that refers abroad in each way that counts, and at home and to a well-known namespace
besides. -/
def plantLibrary : Model.Library where
  name := "Plant"
  uuid := ⟨List.replicate 16 18, rfl⟩
  interfaces := [{
    name := "IUnit"
    uuid := ⟨List.replicate 16 19, rfl⟩
    methods := [{
      name := "Connect"
      returnType := some { kind := .result }
      arguments := [
        ⟨"boxes", [⟨"in", none⟩],
          { kind := .interface
            name := some "Vendor::IBox"
            templateTypes := [{ kind := .interface, name := some "Maker::IBolt" }] }⟩,
        ⟨"color", [⟨"in", none⟩], { kind := .enumeration, name := some "Vendor::Color" }⟩,
        ⟨"shades", [⟨"in", none⟩],
          { kind := .arrayEnumeration
            templateTypes := [{ kind := .enumeration, name := some "Abroad::Shade" }] }⟩,
        ⟨"label", [⟨"in", none⟩], { kind := .string, name := some "Ignored::Label" }⟩,
        ⟨"stream", [⟨"in", none⟩], { kind := .interface, name := some "CAPEOPEN::IStream" }⟩,
        ⟨"other", [⟨"in", none⟩], { kind := .interface, name := some "Plant::IUnit" }⟩] }] }]

/-- The places of the interfaces around the library. -/
def plantArities : String → Option Nat
  | "Vendor::IBox" => some 1
  | "Maker::IBolt" | "CAPEOPEN::IStream" => some 0
  | _ => none

/-- A library that refers to three others, at several depths. -/
theorem build_reports_foreign_spaces_plantLibrary :
    (∃ bound library rest, build plantArities [plantLibrary] = .ok bound ∧
      bound.foreignSpaces = ["Abroad", "Maker", "Vendor"] ∧ [plantLibrary] = library :: rest ∧
        (∀ space, space ∈ bound.foreignSpaces ↔ library.RefersTo space) ∧
        bound.foreignSpaces.Pairwise (· < ·) ∧
        (∀ options, ∃ code, generate options plantArities [plantLibrary] = .ok code ∧
          HeadLists (Preamble.ofLibrary (options.context bound.name) bound).imports
            bound.foreignSpaces code) ∧
        warnings plantArities [plantLibrary] = bound.foreignSpaces.map .foreignSpace) ∧
    ∃ fault, build (fun _ => none) [plantLibrary] = .error fault ∧
      warnings (fun _ => none) [plantLibrary] = [] := by
  have built : build plantArities [plantLibrary] = .ok _ := rfl
  have failed : build (fun _ => none) [plantLibrary] = .error _ := rfl
  obtain ⟨library, rest, facts⟩ := (build_reports_foreign_spaces _ _).1 _ built
  exact ⟨⟨_, library, rest, built, by decide +kernel, facts⟩,
    _, failed, (build_reports_foreign_spaces _ _).2 _ failed⟩

end Source

end IdlBindings
