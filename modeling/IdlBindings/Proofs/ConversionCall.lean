import IdlBindings.Proofs.EnumerationTable
import IdlBindings.Proofs.OperationCall
import IdlBindings.Source.File

/-
This file compares the conversions from numbers that generated code calls with those that are
generated for the enumerations of the library.
-/

namespace IdlBindings

namespace Binding.Argument

/-- The argument is a value of an enumeration of its own library, which arrives as a number: on the
side of the provider if it is an input, and on that of the consumer if it is a result. -/
def Unpacks (argument : Argument) (enumeration : String) : Prop :=
  argument.type = .scalar (.enumeration (.named ⟨.own, enumeration⟩)) ∧
    (argument.isOutput = false ∨ argument.isResult = true)

end Binding.Argument

/-- A word is the display name of nothing but the declaration that has it for its own name. -/
theorem ScopedName.displayName_eq_iff {context : Context} {reference : ScopedName} {name : String}
    (word : Identifier.IsWord name) :
    reference.displayName context = name ↔ reference = ⟨.own, name⟩ := by
  have unqualified : ':' ∉ name.toList := word.not_mem (by decide)
  obtain ⟨origin, item⟩ := reference
  cases origin with
  | own => simp [displayName, qualify]
  | wellKnown space aliasName =>
      have differs : context.supportPath (aliasName ++ "::" ++ item) ≠ name := by
        rintro rfl
        simp [Context.supportPath] at unqualified
      simpa [displayName, qualify] using differs
  | foreign space =>
      have differs : space ++ "::" ++ item ≠ name := by
        rintro rfl
        simp at unqualified
      simpa [displayName, qualify] using differs

/-- A piece of a text has no characters but those of the text. -/
theorem Spelled.of_contains {allowed : Char → Prop} {text piece : String}
    (spelled : Spelled allowed text) (contains : Text.Contains text piece) :
    Spelled allowed piece := by
  obtain ⟨before, after, rfl⟩ := contains
  exact spelled.of_append_left.of_append_right

namespace Source

/-- The head of the conversion from a number to an optional value. -/
def conversionHead (enumeration : String) : String :=
  "\tpub fn from(value: i32) -> Option<" ++ enumeration ++ "> \x7b\n"

/-- The text of the enumeration holds the head of a conversion from numbers. -/
def GeneratesConversion (context : Context) (enumeration : Binding.Enumeration) : Prop :=
  Text.Contains (EnumerationDefinition.ofBinding context enumeration).text
    (conversionHead enumeration.name)

/-- The match on the optional value of a conversion. -/
def conversionCall (indent enumeration name : String) : String :=
  indent ++ "let " ++ name ++ "=match " ++ enumeration ++ "::from(" ++ name ++ ") \x7b\n" ++ indent ++
    "\tSome(_" ++ name ++ ") => _" ++ name ++ ",\n" ++ indent ++ "\tNone => \x7breturn "

/-- The generated code of a method calls the conversion of an enumeration: before the call to the
provider, or after the call of the consumer. -/
inductive CallsConversion (context : Context) (interface : Binding.Interface)
    (method : Binding.Method) (enumeration : String) : Prop
  | provider {name : String} (step : Preparation.enumeration name enumeration ∈
      (Trampoline.ofMethod context interface method).preparations)
  | consumer {name : String} (step : Conversion.enumeration name enumeration ∈
      (Accessor.ofMethod context method).conversions)

/-- Only a named enumeration is converted. -/
theorem packedName?_eq_some_iff {type : ScalarType} {reference : ScopedName} :
    type.packedName? = some reference ↔ type = .enumeration (.named reference) := by
  cases type with
  | enumeration found => cases found <;> simp [ScalarType.packedName?]
  | boolean | integer | real | result | uuid | windowId => simp [ScalarType.packedName?]

/-- An input is unpacked exactly if it is of a named enumeration. -/
theorem Preparation.ofArgument?_eq_enumeration_iff {context : Context}
    {argument : Binding.Argument} {name type : String} :
    ofArgument? context argument = some (.enumeration name type) ↔
      ∃ reference : ScopedName, argument.type = .scalar (.enumeration (.named reference)) ∧
        argument.isResult = false ∧ argument.isOutput = false ∧ argument.name = name ∧
        reference.displayName context = type := by
  unfold ofArgument?
  cases found : argument.type with
  | carried carried => cases argument.isOutput <;> simp
  | object objectType => cases argument.isOutput <;> simp
  | parameter index parameterName => cases argument.isOutput <;> simp
  | scalar scalar =>
      cases argument.isResult with
      | true => simp
      | false =>
          cases argument.isOutput with
          | true => simp
          | false =>
              simp only [Bool.false_eq_true, if_false, Option.map_eq_some_iff,
                packedName?_eq_some_iff, Preparation.enumeration.injEq, ArgumentType.scalar.injEq,
                true_and]
              refine exists_congr fun reference => and_congr_right fun named => ?_
              rw [named]
              rfl

/-- A result is unpacked exactly if it is of a named enumeration. -/
theorem Conversion.ofArgument?_eq_enumeration_iff {context : Context}
    {argument : Binding.Argument} {name type : String} :
    ofArgument? context argument = some (.enumeration name type) ↔
      ∃ reference : ScopedName, argument.type = .scalar (.enumeration (.named reference)) ∧
        argument.name = name ∧ reference.displayName context = type := by
  unfold ofArgument?
  cases found : argument.type with
  | carried carried => simp
  | object objectType => simp
  | parameter index parameterName => simp
  | scalar scalar =>
      simp only [Option.map_eq_some_iff, packedName?_eq_some_iff, Conversion.enumeration.injEq,
        ArgumentType.scalar.injEq]
      refine exists_congr fun reference => and_congr_right fun named => ?_
      rw [named]
      rfl

/-- The conversions that a method calls are those of the enumerations it unpacks. -/
theorem callsConversion_iff {context : Context} {interface : Binding.Interface}
    {method : Binding.Method} {enumeration : String} (word : Identifier.IsWord enumeration) :
    CallsConversion context interface method enumeration ↔
      ∃ argument ∈ method.arguments, argument.Unpacks enumeration := by
  constructor
  · rintro (⟨step⟩ | ⟨step⟩)
    · obtain ⟨argument, member, made⟩ := List.mem_filterMap.mp step
      obtain ⟨reference, type, _, input, _, display⟩ :=
        Preparation.ofArgument?_eq_enumeration_iff.mp made
      rw [ScopedName.displayName_eq_iff word] at display
      exact ⟨argument, member, display ▸ type, .inl input⟩
    · obtain ⟨argument, member, made⟩ := List.mem_filterMap.mp step
      obtain ⟨ofMethod, result⟩ := List.mem_filter.mp member
      obtain ⟨reference, type, _, display⟩ := Conversion.ofArgument?_eq_enumeration_iff.mp made
      rw [ScopedName.displayName_eq_iff word] at display
      exact ⟨argument, ofMethod, display ▸ type, .inr result⟩
  · rintro ⟨argument, member, type, side⟩
    have display : ScopedName.displayName context ⟨.own, enumeration⟩ = enumeration := rfl
    cases result : argument.isResult with
    | true =>
        have ofResults : argument ∈ method.results := List.mem_filter.mpr ⟨member, result⟩
        exact .consumer (List.mem_filterMap.mpr ⟨argument, ofResults,
          Conversion.ofArgument?_eq_enumeration_iff.mpr ⟨_, type, rfl, display⟩⟩)
    | false =>
        have input : argument.isOutput = false := by simpa [result] using side
        exact .provider (List.mem_filterMap.mpr ⟨argument, member,
          Preparation.ofArgument?_eq_enumeration_iff.mpr ⟨_, type, result, input, rfl, display⟩⟩)

/-- The preparation of an enumeration calls its conversion. -/
theorem Preparation.contains_conversionCall (label name type : String) :
    Text.Contains ((Preparation.enumeration name type).text label)
      (conversionCall "\t\t" type name) := by
  have opened : "\t\tlet " = "\t\t" ++ "let " := by decide
  have found : ") \x7b\n\t\t\tSome(_" = ") \x7b\n" ++ "\t\t" ++ "\tSome(_" := by decide
  have missing : ",\n\t\t\tNone => \x7breturn myself.set_last_error(COBIAError::Message(\"" =
      ",\n" ++ "\t\t" ++ "\tNone => \x7breturn " ++
        "myself.set_last_error(COBIAError::Message(\"" := by decide
  refine ⟨"", "myself.set_last_error(COBIAError::Message(\"" ++ invalidEnumeration ++
    "\".to_string()),\"" ++ label ++ "\");\x7d\n\t\t\x7d;\n", ?_⟩
  unfold text conversionCall
  rw [opened, found, missing]
  simp only [String.append_assoc, String.empty_append]

/-- The conversion of an enumeration calls it by its name. -/
theorem Conversion.contains_conversionCall (name type : String) :
    Text.Contains (Conversion.enumeration name type).text
      (conversionCall "\t\t\t\t" type name) := by
  have opened : "\t\t\t\tlet " = "\t\t\t\t" ++ "let " := by decide
  have found : ") \x7b\n\t\t\t\t\tSome(_" = ") \x7b\n" ++ "\t\t\t\t" ++ "\tSome(_" := by decide
  have missing : ",\n\t\t\t\t\tNone => \x7breturn Err(COBIAError::Message(\"" =
      ",\n" ++ "\t\t\t\t" ++ "\tNone => \x7breturn " ++ "Err(COBIAError::Message(\"" := by decide
  refine ⟨"", "Err(COBIAError::Message(\"" ++ invalidEnumeration ++
    "\".to_string()));\x7d\n\t\t\t\t\x7d;\n", ?_⟩
  unfold text conversionCall
  rw [opened, found, missing]
  simp only [String.append_assoc, String.empty_append]

/-- A conversion of an accessor stands in its text. -/
theorem Accessor.contains_conversion {accessor : Accessor} {step : Conversion}
    (member : step ∈ accessor.conversions) : Text.Contains accessor.text step.text := by
  have joined := Text.Contains.join (List.mem_map_of_mem (f := Conversion.text) member)
  have nonempty : accessor.conversions.isEmpty = false := by
    simpa using List.ne_nil_of_mem member
  have arm : Text.Contains accessor.successText step.text := by
    unfold successText
    rw [nonempty, Bool.and_false, if_neg Bool.false_ne_true]
    exact ((((joined.append_left _).append_left _).append_right _).append_right _).append_right _
  unfold Accessor.text
  exact (arm.append_left _).append_right _

/-- A preparation of a trampoline stands in its text. -/
theorem Trampoline.contains_preparation {trampoline : Trampoline} {step : Preparation}
    (prepared : step ∈ trampoline.preparations) :
    Text.Contains trampoline.text (step.text trampoline.label) := by
  have listed : Line.ofPreparation trampoline.label step ∈ trampoline.lines :=
    List.mem_append_left _ (List.mem_append_left _
      (mem_opening.mpr (.inr (.inr (.inr (.inl ⟨step, prepared, rfl⟩))))))
  rw [← join_lines, ← Line.text_ofPreparation]
  exact Text.Contains.join (List.mem_map_of_mem listed)

/-- A conversion that is called stands in the text of the interface. -/
theorem CallsConversion.contains {context : Context} {interface : Binding.Interface}
    {method : Binding.Method} {enumeration : String} (member : method ∈ interface.methods)
    (calls : CallsConversion context interface method enumeration) :
    ∃ indent name, Text.Contains (InterfaceDefinition.ofInterface context interface).text
      (conversionCall indent enumeration name) := by
  cases calls with
  | @provider name step =>
      let trampoline := Trampoline.ofMethod context interface method
      have inTrampoline : Text.Contains trampoline.text
          ((Preparation.enumeration name enumeration).text trampoline.label) :=
        Trampoline.contains_preparation step
      have inAdapter : Text.Contains (Adapter.ofInterface context interface).text trampoline.text :=
        Adapter.contains_trampoline (List.mem_map_of_mem member)
      refine ⟨"\t\t", name, ?_⟩
      have call := inAdapter.trans (inTrampoline.trans (Preparation.contains_conversionCall _ _ _))
      exact (call.append_left _).append_right _
  | @consumer name step =>
      have inHandle : Text.Contains (Handle.ofInterface context interface).text
          (Accessor.ofMethod context method).text :=
        Handle.contains_accessor (List.mem_map_of_mem member)
      refine ⟨"\t\t\t\t", name, ?_⟩
      have call := inHandle.trans
        ((Accessor.contains_conversion step).trans (Conversion.contains_conversionCall _ _))
      exact call.append_left _

/-- The head of a conversion is written as one line. -/
theorem contains_conversionHead (name : String) :
    Text.Contains
      ("\n\tpub fn from(value: i32) -> Option<" ++ name ++ "> \x7b\n\t\tmatch value \x7b\n")
      (conversionHead name) := by
  have opened : "\n\tpub fn from(value: i32) -> Option<" =
      "\n" ++ "\tpub fn from(value: i32) -> Option<" := by decide
  have closed : "> \x7b\n\t\tmatch value \x7b\n" = "> \x7b\n" ++ "\t\tmatch value \x7b\n" := by decide
  refine ⟨"\n", "\t\tmatch value \x7b\n", ?_⟩
  unfold conversionHead
  rewrite [opened, closed]
  simp only [String.append_assoc]

/-- A plain enumeration has a conversion. -/
theorem generatesConversion_of_plain {context : Context} {enumeration : Binding.Enumeration}
    (plain : enumeration.kind = .plain) : GeneratesConversion context enumeration := by
  have whole := PlainEnumeration.contains_ofNumber (.ofBinding context enumeration)
  have head := contains_conversionHead enumeration.name
  rw [GeneratesConversion, EnumerationDefinition.text_of_plain plain]
  exact whole.trans ((head.append_right _).append_right _)

theorem isWord_hexadecimal (number : Nat) : Identifier.IsWord (Text.hexadecimal number) := by
  refine Spelled.ofList fun character member => ?_
  obtain ⟨digit, listed, rfl⟩ := List.mem_map.mp member
  have each : ∀ digit < 16, Identifier.isWordCharacter (Text.digitCharacter digit) = true := by decide
  exact each digit (Text.lt_of_mem_digitsWithin (by decide) listed)

/-- A flag set has no conversion: there is no arrow in its text. -/
theorem not_generatesConversion_of_bitFlags {context : Context} {enumeration : Binding.Enumeration}
    (flags : enumeration.kind = .bitFlags) (name : Identifier.IsWord enumeration.name)
    (items : ∀ item ∈ enumeration.items, Identifier.IsWord item.name) :
    ¬ GeneratesConversion context enumeration := by
  have arrowless {text : String} (word : Identifier.IsWord text) : Spelled (· ≠ '-') text :=
    word.mono fun character ofWord same => by simp [same] at ofWord; revert ofWord; decide
  have inFlag : ∀ flag ∈ (FlagSet.ofBinding enumeration).flags.map FlagSet.flagText,
      Spelled (· ≠ '-') flag := by
    simp only [FlagSet.ofBinding, List.map_map, List.forall_mem_map]
    intro item member
    have inName := arrowless (items item member)
    have inNumber := arrowless (isWord_hexadecimal item.value.toUInt32.toNat)
    exact ((Spelled.append (Spelled.append (by decide) inName) (by decide)).append inNumber).append
      (by decide)
  have inText : Spelled (· ≠ '-') (FlagSet.ofBinding enumeration).text := by
    unfold FlagSet.text
    refine Spelled.append (Spelled.append (Spelled.append (Spelled.append (by decide) ?_) ?_) ?_) ?_
    · exact arrowless name
    · decide
    · exact Spelled.join inFlag
    · decide
  intro generated
  rw [GeneratesConversion, EnumerationDefinition.ofBinding, flags] at generated
  have arrow := inText.of_contains generated
  exact absurd arrow.of_append_left.of_append_left (by decide)

/-- Every conversion that the code of a library calls for one of its enumerations is generated. -/
def ConversionsGenerated (context : Context) (library : Binding.Library) : Prop :=
  ∀ interface ∈ library.interfaces, ∀ method ∈ interface.methods,
    ∀ enumeration ∈ library.enumerations,
      CallsConversion context interface method enumeration.name →
        GeneratesConversion context enumeration

/-- All called conversions are generated exactly if no argument unpacks a flag set. -/
theorem conversionsGenerated_iff {external : String → Option Nat} {library : Model.Library}
    {bound : Binding.Library} (built : Binding.Library.ofModel external library = .ok bound)
    (names : ∀ declared ∈ library.enumerations, Identifier.isIdentifier declared.name = true ∧
      ∀ item ∈ declared.items, Identifier.isIdentifier item.name = true) (context : Context) :
    ConversionsGenerated context bound ↔
      ∀ interface ∈ bound.interfaces, ∀ method ∈ interface.methods,
        ∀ argument ∈ method.arguments, ∀ declared ∈ library.enumerations,
          argument.Unpacks declared.name → declared.isBitFlag = false := by
  obtain ⟨_, _, _, enumerations, _, _⟩ := Binding.Library.ofModel_eq_ok built
  constructor
  · intro generated interface ofLibrary method ofInterface argument ofMethod declared listed unpacks
    obtain ⟨enumeration, ofBound, each⟩ := exists_mem_of_forall₂ enumerations.flip listed
    have binds := Binding.Enumeration.binds_of_ofModel each
    obtain ⟨word, words⟩ := isWord_of_ofModel each (names declared listed).1 (names declared listed).2
    have calls : CallsConversion context interface method enumeration.name :=
      (callsConversion_iff word).mpr ⟨argument, ofMethod, binds.name ▸ unpacks⟩
    by_contra flags
    have kind : enumeration.kind = .bitFlags := binds.kind.mpr (by simpa using flags)
    exact not_generatesConversion_of_bitFlags kind word words
      (generated interface ofLibrary method ofInterface enumeration ofBound calls)
  · intro unflagged interface ofLibrary method ofInterface enumeration ofBound calls
    obtain ⟨declared, listed, each⟩ := exists_mem_of_forall₂ enumerations ofBound
    have binds := Binding.Enumeration.binds_of_ofModel each
    obtain ⟨word, _⟩ := isWord_of_ofModel each (names declared listed).1 (names declared listed).2
    obtain ⟨argument, ofMethod, unpacks⟩ := (callsConversion_iff word).mp calls
    have plain := unflagged interface ofLibrary method ofInterface argument ofMethod declared listed
      (binds.name ▸ unpacks)
    apply generatesConversion_of_plain
    cases kind : enumeration.kind with
    | plain => rfl
    | bitFlags => simp [binds.kind.mp kind] at plain

/-- A conversion that is called stands in the text of its interface, and a plain enumeration has
one. With identifiers for names, all that are called are generated exactly if no argument unpacks a
flag set of the library. -/
theorem called_conversions_generated_iff_no_flag_set_unpacked {external : String → Option Nat}
    {libraries : List Model.Library} {bound : Binding.Library}
    (built : Binding.build external libraries = .ok bound) (context : Context) :
    ∃ library rest, libraries = library :: rest ∧
      (∀ interface ∈ bound.interfaces, ∀ method ∈ interface.methods, ∀ enumeration,
        CallsConversion context interface method enumeration →
          ∃ indent name, Text.Contains (InterfaceDefinition.ofInterface context interface).text
            (conversionCall indent enumeration name)) ∧
      (∀ enumeration ∈ bound.enumerations, enumeration.kind = .plain →
        GeneratesConversion context enumeration) ∧
      ((∀ declared ∈ library.enumerations, Identifier.isIdentifier declared.name = true ∧
          ∀ item ∈ declared.items, Identifier.isIdentifier item.name = true) →
        (ConversionsGenerated context bound ↔
          ∀ interface ∈ bound.interfaces, ∀ method ∈ interface.methods,
            ∀ argument ∈ method.arguments, ∀ declared ∈ library.enumerations,
              argument.Unpacks declared.name → declared.isBitFlag = false)) := by
  obtain ⟨library, rest, split, libraryBuilt⟩ := Binding.build_eq_ok built
  exact ⟨library, rest, split, fun _ _ _ ofInterface _ calls => calls.contains ofInterface,
    fun _ _ plain => generatesConversion_of_plain plain,
    fun names => conversionsGenerated_iff libraryBuilt names context⟩

/-- A library in which every conversion that is called is generated. -/
theorem called_conversions_generated_iff_no_flag_set_unpacked_sampleLibrary :
    ∃ bound, Binding.build (fun _ => none) [Binding.sampleLibrary] = .ok bound ∧
      ConversionsGenerated (({} : Options).context "Thermo") bound := by
  have built : Binding.build (fun _ => none) [Binding.sampleLibrary] = .ok _ := rfl
  obtain ⟨library, rest, split, _, _, closed⟩ :=
    called_conversions_generated_iff_no_flag_set_unpacked built (({} : Options).context "Thermo")
  obtain ⟨rfl, rfl⟩ := List.cons.inj split
  refine ⟨_, built, (closed (by decide)).mpr ?_⟩
  -- The only enumeration of the library counts from zero.
  have plain : ∀ declared ∈ Binding.sampleLibrary.enumerations, declared.isBitFlag = false := by
    decide
  exact fun _ _ _ _ _ _ declared listed _ => plain declared listed

/-- Two colours, each a bit of its own. -/
def flagLibrary : Model.Library where
  name := "Thermo"
  uuid := ⟨List.replicate 16 4, rfl⟩
  enumerations := [⟨"Color", [⟨"RED", 1⟩, ⟨"GREEN", 2⟩]⟩]
  interfaces := [{
    name := "IPaint"
    uuid := ⟨List.replicate 16 5, rfl⟩
    methods := [{
      name := "Mix"
      returnType := some { kind := .result }
      arguments := [
        ⟨"base", [⟨"in", none⟩], { kind := .enumeration, name := some "Color" }⟩,
        ⟨"mixed", [⟨"out", none⟩, ⟨"retval", none⟩],
          { kind := .enumeration, name := some "Color" }⟩] }] }]

/-- A flag set is unpacked on both sides of a call, and nothing generates the conversion. -/
theorem conversions_not_generated_flagLibrary :
    ∃ bound, Binding.build (fun _ => none) [flagLibrary] = .ok bound ∧
      ¬ ConversionsGenerated (({} : Options).context "Thermo") bound := by
  have built : Binding.Library.ofModel (fun _ => none) flagLibrary = .ok _ := rfl
  have names : ∀ declared ∈ flagLibrary.enumerations,
      Identifier.isIdentifier declared.name = true ∧
        ∀ item ∈ declared.items, Identifier.isIdentifier item.name = true := by decide
  refine ⟨_, built, ?_⟩
  rw [conversionsGenerated_iff built names]
  intro unflagged
  have plain := unflagged _ List.mem_cons_self _ List.mem_cons_self _ List.mem_cons_self _
    List.mem_cons_self ⟨rfl, .inl rfl⟩
  exact absurd plain (by decide)

end Source

end IdlBindings
