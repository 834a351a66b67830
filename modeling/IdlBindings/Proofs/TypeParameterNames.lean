import IdlBindings.Proofs.ArgumentNames
import IdlBindings.Source.Accessor
import Mathlib

/-
This file tells from the names of the arguments when an accessor declares two type parameters
under one name.
-/

namespace IdlBindings

namespace Identifier

theorem isUpper_snakeFrom (separable : Bool) (word : List Char) :
    ∀ character ∈ snakeFrom separable word, character.isUpper = false := by
  induction word generalizing separable with
  | nil => simp [snakeFrom]
  | cons first rest ih =>
      rw [snakeFrom]
      split
      · rw [List.forall_mem_append]
        refine ⟨?_, ih false⟩
        split <;> simp
      case isFalse small =>
        rw [List.forall_mem_cons]
        exact ⟨by simpa using small, ih _⟩

/-- Snake case has no capitals. -/
theorem isUpper_snakeCase (word : String) :
    ∀ character ∈ (snakeCase word).toList, character.isUpper = false := by
  unfold snakeCase
  rw [String.toList_ofList]
  exact isUpper_snakeFrom false word.toList

/-- A part of the name starts after these characters. -/
def startsPart (before : List Char) : Bool := before.isEmpty || before.getLast? == some '_'

@[simp] theorem startsPart_nil : startsPart [] = true := rfl

@[simp] theorem startsPart_append_singleton (before : List Char) (last : Char) :
    startsPart (before ++ [last]) = (last == '_') := by
  simp [startsPart]

/-- Camel case goes character by character, and remembers whether a part starts. -/
theorem camelFrom_cons (inner : Char → Char) (starts : Bool) (first : Char) (rest : List Char) :
    camelFrom inner starts (first :: rest) =
      camelFrom inner starts [first] ++ camelFrom inner (first == '_') rest := by
  cases separator : first == '_' <;> simp [camelFrom, separator]

/-- The conversion goes on after any characters as their last one says. -/
theorem camelFrom_append (inner : Char → Char) (before after : List Char) :
    camelFrom inner true (before ++ after) =
      camelFrom inner true before ++ camelFrom inner (startsPart before) after := by
  induction before using List.reverseRecOn generalizing after with
  | nil => rfl
  | append_singleton before last ih =>
      rw [List.append_assoc, List.singleton_append, ih, ih, camelFrom_cons, List.append_assoc,
        startsPart_append_singleton]

/-- A separator starts nothing new: it stands in front or after another one, or before what has
no capital. -/
def IsIdle (before after : List Char) : Prop :=
  startsPart before = true ∨ ∀ character ∈ after.head?, character.isLower = false

/-- The second word is the first one without one of its idle separators. -/
inductive DropsIdle : List Char → List Char → Prop
  | drop {before after : List Char} (idle : IsIdle before after) :
      DropsIdle (before ++ '_' :: after) (before ++ after)

/-- The two words differ in idle separators only. -/
def SameParts : List Char → List Char → Prop := Relation.EqvGen DropsIdle

/-- Without a capital of its own, a character looks the same wherever it stands. -/
theorem camelFrom_of_not_isLower {word : List Char} (starts : Bool)
    (caseless : ∀ character ∈ word.head?, character.isLower = false) :
    camelFrom id true word = camelFrom id starts word := by
  cases word with
  | nil => rfl
  | cons first rest =>
      have kept : first.toUpper = first :=
        Char.toUpper_eq_of_not_isLower (by simpa using caseless)
      cases starts with
      | true => rfl
      | false => simp [camelFrom, kept]

/-- A separator with nothing to start can be dropped. -/
theorem DropsIdle.camelFrom_eq {word other : List Char} (drops : DropsIdle word other) :
    camelFrom id true word = camelFrom id true other := by
  cases drops with
  | @drop before after idle =>
      have skipped : camelFrom id (startsPart before) ('_' :: after) =
          camelFrom id true after := rfl
      rw [camelFrom_append, camelFrom_append, skipped]
      apply congrArg
      rcases idle with starts | caseless
      · rw [starts]
      · exact camelFrom_of_not_isLower _ caseless

/-- Words with the same parts have one camel case. -/
theorem SameParts.camelFrom_eq {word other : List Char} (same : SameParts word other) :
    camelFrom id true word = camelFrom id true other := by
  induction same with
  | rel _ _ drops => exact drops.camelFrom_eq
  | refl _ => rfl
  | symm _ _ _ ih => exact ih.symm
  | trans _ _ _ _ _ first second => exact first.trans second

/-- Camel case starts with no small letter. -/
theorem isLower_head?_separated (word : List Char) :
    ∀ character ∈ (separateCapitals (camelFrom id true word)).head?,
      character.isLower = false := by
  induction word with
  | nil => simp [camelFrom, separateCapitals]
  | cons first rest ih =>
      by_cases separator : first = '_'
      · rw [separator]
        exact ih
      · have opened : camelFrom id true (first :: rest) =
            first.toUpper :: camelFrom id false rest := by
          simp [camelFrom, separator]
        rw [opened]
        cases capital : first.toUpper.isUpper with
        | true => simp [separateCapitals_capital capital]
        | false => simp [separateCapitals_other capital]

section

variable {first : Char} (rest : List Char)

/-- A small letter at the start of a part can be told by its capital. -/
theorem separated_of_isLower (small : first.isUpper = false) (lower : first.isLower = true)
    (separator : first ≠ '_') :
    separateCapitals (camelFrom id true (first :: rest)) =
      '_' :: first :: separateCapitals (camelFrom id false rest) := by
  have capital : first.toUpper.isUpper = true := by
    simp [Char.isAlpha, lower]
  have restored : first.toUpper.toLower = first := by
    rw [Char.toLower_toUpper_eq_toLower, Char.toLower_eq_of_not_isUpper (by simp [small])]
  simp [camelFrom, separator, separateCapitals_capital capital, restored]

/-- Any other character stays as it is. -/
theorem separated_of_kept {starts : Bool} (small : first.isUpper = false)
    (kept : starts = true → first.isLower = false) (separator : first ≠ '_') :
    separateCapitals (camelFrom id starts (first :: rest)) =
      first :: separateCapitals (camelFrom id false rest) := by
  cases starts with
  | false => simp [camelFrom, separator, separateCapitals_other small]
  | true =>
      have same : first.toUpper = first := Char.toUpper_eq_of_not_isLower (by simp [kept rfl])
      simp [camelFrom, separator, same, separateCapitals_other small]

end

/-- A word without capitals is the same, up to idle separators, as the one that has a separator
before each capital it would get. The characters before it decide how it goes on. -/
theorem sameParts_separated (before : List Char) {word : List Char}
    (small : ∀ character ∈ word, character.isUpper = false) :
    SameParts (before ++ word)
      (before ++ separateCapitals (camelFrom id (startsPart before) word)) := by
  induction word generalizing before with
  | nil => exact .refl _
  | cons first rest ih =>
      obtain ⟨head, tail⟩ := List.forall_mem_cons.mp small
      by_cases separator : first = '_'
      · subst separator
        have later := ih (before ++ ['_']) tail
        rw [startsPart_append_singleton, List.append_assoc, List.append_assoc] at later
        exact .trans _ _ _ later (.rel _ _ (.drop (.inr (isLower_head?_separated rest))))
      -- after any other character no part starts
      have later (earlier : List Char) : SameParts (earlier ++ first :: rest)
          (earlier ++ first :: separateCapitals (camelFrom id false rest)) := by
        have next := ih (earlier ++ [first]) tail
        rwa [startsPart_append_singleton, beq_eq_false_iff_ne.mpr separator, List.append_assoc,
          List.append_assoc] at next
      by_cases capital : startsPart before = true ∧ first.isLower = true
      · obtain ⟨starts, lower⟩ := capital
        have marked : SameParts (before ++ first :: rest) (before ++ '_' :: first :: rest) :=
          .symm _ _ (.rel _ _ (.drop (.inl starts)))
        have separated := later (before ++ ['_'])
        rw [List.append_assoc, List.append_assoc] at separated
        rw [starts, separated_of_isLower rest head lower separator]
        exact .trans _ _ _ marked separated
      · have kept : startsPart before = true → first.isLower = false := by
          simpa using capital
        rw [separated_of_kept rest head kept separator]
        exact later before

/-- Words without capitals meet in the conversion exactly if they differ in idle separators only. -/
theorem camelFrom_eq_iff {word other : List Char}
    (small : ∀ character ∈ word, character.isUpper = false)
    (smallOther : ∀ character ∈ other, character.isUpper = false) :
    camelFrom id true word = camelFrom id true other ↔ SameParts word other := by
  refine ⟨fun same => ?_, SameParts.camelFrom_eq⟩
  have first := sameParts_separated [] small
  have second := sameParts_separated [] smallOther
  simp only [List.nil_append, startsPart_nil] at first second
  rw [same] at first
  exact .trans _ _ _ first (.symm _ _ second)

/-- The mark of an escape is an idle separator. -/
theorem camelFrom_withoutEscape (word : List Char) :
    camelFrom id true (withoutEscape word) = camelFrom id true word := by
  fun_cases withoutEscape word with
  | case1 rest => simp [camelFrom]
  | case2 => rfl

/-- Two arguments give one type parameter exactly if they have the same parts. -/
theorem providerParameter_eq_iff {argument other : String}
    (small : ∀ character ∈ argument.toList, character.isUpper = false)
    (smallOther : ∀ character ∈ other.toList, character.isUpper = false) :
    providerParameter argument = providerParameter other ↔
      SameParts argument.toList other.toList := by
  unfold providerParameter
  rw [String.ofList_inj, List.append_right_inj, camelFrom_withoutEscape, camelFrom_withoutEscape]
  exact camelFrom_eq_iff small smallOther

end Identifier

namespace Binding.Argument

/-- The name of an argument has no capitals. -/
theorem isUpper_nameOf (declared : String) :
    ∀ character ∈ (nameOf declared).toList, character.isUpper = false := by
  have small := Identifier.isUpper_snakeCase declared
  unfold nameOf
  rw [Identifier.escapeArgument_eq]
  split
  · rw [String.toList_append, List.forall_mem_append]
    exact ⟨by simp, small⟩
  · exact small

/-- The argument is carried by an interface of its own. -/
def isCarried (argument : Argument) : Bool :=
  match argument.type with
  | .carried _ => true
  | .scalar _ | .object _ | .parameter _ _ => false

end Binding.Argument

namespace Source

open Binding (Argument Method)

/-- The type parameter stands for whatever provides the argument. -/
def TypeParameter.ProvidesFor (argument : Argument) (parameter : TypeParameter) : Prop :=
  ∃ type, argument.type = .carried type ∧
    parameter.name = Identifier.providerParameter argument.name ∧
    parameter.bound = type.providerName argument.direction

namespace Accessor

/-- Each carried argument has a type parameter, in order. -/
theorem providesFor_typeParameters (arguments : List Argument) :
    List.Forall₂ TypeParameter.ProvidesFor (arguments.filter Argument.isCarried)
      ((arguments.filter fun argument => !argument.isResult).filterMap typeParameter?) := by
  induction arguments with
  | nil => exact .nil
  | cons argument rest ih =>
      cases type : argument.type with
      | carried carried =>
          have listed : typeParameter? argument = some
              ⟨Identifier.providerParameter argument.name,
                carried.providerName argument.direction⟩ := by
            simp [typeParameter?, type]
          rw [List.filter_cons_of_pos (by simp [Argument.isCarried, type]),
            List.filter_cons_of_pos (by simp [Argument.isResult, type]),
            List.filterMap_cons_some listed]
          exact .cons ⟨carried, type, rfl, rfl⟩ ih
      | scalar _ | object _ | parameter _ _ =>
          have unlisted : typeParameter? argument = none := by
            simp [typeParameter?, type]
          rw [List.filter_cons_of_neg (by simp [Argument.isCarried, type]), List.filter_cons]
          split
          · rwa [List.filterMap_cons_none unlisted]
          · exact ih

/-- The type parameters stand in angle brackets behind the name of the accessor. -/
theorem contains_typeParameters (accessor : Accessor) :
    Text.Contains accessor.text
      (accessor.name ++
        (if accessor.typeParameters.isEmpty then ""
          else "<" ++ String.intercalate "," (accessor.typeParameters.map
            fun parameter => parameter.name ++ ":" ++ parameter.bound) ++ ">") ++
        "(&self") := by
  have listed : bracketed (accessor.typeParameters.map TypeParameter.text) =
      if accessor.typeParameters.isEmpty then ""
      else "<" ++ String.intercalate "," (accessor.typeParameters.map
        fun parameter => parameter.name ++ ":" ++ parameter.bound) ++ ">" := by
    rw [bracketed, List.isEmpty_map]
    rfl
  unfold text
  rw [← listed]
  exact ⟨"\tpub fn ", _, by simp only [String.append_assoc]; rfl⟩

/-- The type parameters differ exactly if no two carried arguments have the same parts. -/
theorem nodup_typeParameters_iff (context : Context) {method : Method} (named : method.Named) :
    ((ofMethod context method).typeParameters.map TypeParameter.name).Nodup ↔
      (method.arguments.filter Argument.isCarried).Pairwise fun argument other =>
        ¬ Identifier.SameParts argument.name.toList other.name.toList := by
  have names : (ofMethod context method).typeParameters.map TypeParameter.name =
      (method.arguments.filter Argument.isCarried).map fun argument =>
        Identifier.providerParameter argument.name :=
    map_eq_of_forall₂ (providesFor_typeParameters method.arguments) fun _ _ provides => by
      obtain ⟨_, _, name, _⟩ := provides
      exact name
  have small {argument : Argument} (member : argument ∈ method.arguments.filter Argument.isCarried) :
      ∀ character ∈ argument.name.toList, character.isUpper = false := by
    rw [named argument (List.mem_of_mem_filter member)]
    exact Argument.isUpper_nameOf argument.declaredName
  rw [names, List.Nodup, List.pairwise_map]
  refine List.Pairwise.iff_of_mem fun {argument other} member memberOther => ?_
  rw [ne_eq, Identifier.providerParameter_eq_iff (small member) (small memberOther)]

end Accessor

/-- An accessor declares one type parameter for each argument with carried data, in their order.
The parameters are distinct exactly if no two of these arguments have names that differ in nothing
but idle separators. -/
theorem type_parameters_distinct_iff_parts_differ {external : String → Option Nat}
    {libraries : List Model.Library} {bound : Binding.Library}
    (built : Binding.build external libraries = .ok bound) (context : Context)
    {interface : Binding.Interface} (ofLibrary : interface ∈ bound.interfaces) {method : Method}
    (ofInterface : method ∈ interface.methods) :
    Text.Contains (Accessor.ofMethod context method).text
      (method.operation ++
        (if (Accessor.ofMethod context method).typeParameters.isEmpty then ""
          else "<" ++ String.intercalate "," ((Accessor.ofMethod context method).typeParameters.map
            fun parameter => parameter.name ++ ":" ++ parameter.bound) ++ ">") ++
        "(&self") ∧
    List.Forall₂ TypeParameter.ProvidesFor (method.arguments.filter Argument.isCarried)
      (Accessor.ofMethod context method).typeParameters ∧
    (((Accessor.ofMethod context method).typeParameters.map TypeParameter.name).Nodup ↔
      (method.arguments.filter Argument.isCarried).Pairwise fun argument other =>
        ¬ Identifier.SameParts argument.name.toList other.name.toList) := by
  have named := Binding.Method.named_of_build built ofLibrary ofInterface
  exact ⟨(Accessor.ofMethod context method).contains_typeParameters,
    Accessor.providesFor_typeParameters method.arguments,
    Accessor.nodup_typeParameters_iff context named⟩

/-- A method whose type parameters differ. -/
theorem type_parameters_distinct_iff_parts_differ_sampleLibrary :
    ∃ bound interface method,
      Binding.build (fun _ => none) [Binding.sampleLibrary] = .ok bound ∧
      interface ∈ bound.interfaces ∧ method ∈ interface.methods ∧
      (method.arguments.filter Argument.isCarried).map Argument.name = ["label", "values"] ∧
      (method.arguments.filter Argument.isCarried).Pairwise fun argument other =>
        ¬ Identifier.SameParts argument.name.toList other.name.toList := by
  have built : Binding.build (fun _ => none) [Binding.sampleLibrary] = .ok _ := rfl
  refine ⟨_, _, _, built, .head _, .head _, by decide, ?_⟩
  have facts := type_parameters_distinct_iff_parts_differ built (Options.context {} "Thermo")
    (.head _) (.head _)
  exact facts.2.2.mp (by decide)

/-- A library whose method takes two texts, and their names differ in a separator. -/
def compareLibrary : Model.Library where
  name := "Thermo"
  uuid := ⟨List.replicate 16 29, rfl⟩
  interfaces := [{
    name := "IThing"
    uuid := ⟨List.replicate 16 32, rfl⟩
    methods := [{
      name := "Compare"
      returnType := some { kind := .result }
      arguments := [
        ⟨"phase1", [⟨"in", none⟩], { kind := .string }⟩,
        ⟨"phase_1", [⟨"in", none⟩], { kind := .string }⟩] }] }]

/-- Argument names that differ, with one type parameter. -/
theorem type_parameters_repeated_compareLibrary :
    ∃ bound interface method, Binding.build (fun _ => none) [compareLibrary] = .ok bound ∧
      interface ∈ bound.interfaces ∧ method ∈ interface.methods ∧
      (method.arguments.map Argument.name).Nodup ∧
      ¬ ((Accessor.ofMethod (Options.context {} "Thermo") method).typeParameters.map
        TypeParameter.name).Nodup := by
  exact ⟨_, _, _, rfl, .head _, .head _, by decide, by decide⟩

end Source

end IdlBindings
