import IdlBindings.Proofs.BindingInvariant
import IdlBindings.Proofs.FunctionText
import IdlBindings.Source.File

/-
This file tells from the declared methods of an interface when the generated source defines two of
its members under one name.
-/

namespace IdlBindings

namespace Identifier

/-- The small form of a capital is no separator, and gives the capital back. -/
theorem toLower_of_isUpper {character : Char} (capital : character.isUpper = true) :
    character.toLower ≠ '_' ∧ character.toLower.isUpper = false ∧
      character.toLower.toUpper = character := by
  have bounds : 'A'.val ≤ character.val ∧ character.val ≤ 'Z'.val := of_decide_eq_true capital
  have small : character.toNat < 91 := Nat.lt_succ_of_le (UInt32.le_iff_toNat_le.mp bounds.2)
  have each : ∀ code < 91, (Char.ofNat code).isUpper = true →
      (Char.ofNat code).toLower ≠ '_' ∧ (Char.ofNat code).toLower.isUpper = false ∧
        (Char.ofNat code).toLower.toUpper = Char.ofNat code := by
    decide
  have found := each character.toNat small
  rw [Char.ofNat_toNat] at found
  exact found capital

/-- Two spellings of one word. A capital stands for a separator and its small letter. -/
inductive SameSpelling : List Char → List Char → Prop
  | nil : SameSpelling [] []
  | keep {word other : List Char} (character : Char) (rest : SameSpelling word other) :
      SameSpelling (character :: word) (character :: other)
  | separate {word other : List Char} (character : Char) (capital : character.isUpper = true)
      (rest : SameSpelling word other) :
      SameSpelling (character :: word) ('_' :: character.toLower :: other)
  | join {word other : List Char} (character : Char) (capital : character.isUpper = true)
      (rest : SameSpelling word other) :
      SameSpelling ('_' :: character.toLower :: word) (character :: other)

/-- A capital is written small, after a separator. -/
theorem separateCapitals_capital {character : Char} (capital : character.isUpper = true)
    (word : List Char) :
    separateCapitals (character :: word) = '_' :: character.toLower :: separateCapitals word := by
  simp [separateCapitals, capital]

/-- Any other character stays as it is. -/
theorem separateCapitals_other {character : Char} (other : character.isUpper = false)
    (word : List Char) :
    separateCapitals (character :: word) = character :: separateCapitals word := by
  simp [separateCapitals, other]

/-- Words with one spelling are separated alike. -/
theorem SameSpelling.separateCapitals_eq {word other : List Char}
    (same : SameSpelling word other) : separateCapitals word = separateCapitals other := by
  induction same with
  | nil => rfl
  | keep character _ ih =>
      cases capital : character.isUpper with
      | true => rw [separateCapitals_capital capital, separateCapitals_capital capital, ih]
      | false => rw [separateCapitals_other capital, separateCapitals_other capital, ih]
  | separate character capital _ ih =>
      obtain ⟨_, small, _⟩ := toLower_of_isUpper capital
      rw [separateCapitals_capital capital, separateCapitals_other (by decide),
        separateCapitals_other small, ih]
  | join character capital _ ih =>
      obtain ⟨_, small, _⟩ := toLower_of_isUpper capital
      rw [separateCapitals_capital capital, separateCapitals_other (by decide),
        separateCapitals_other small, ih]

/-- What is read where a capital was separated is the capital or what it was separated into. -/
theorem eq_of_separated {character : Char} (capital : character.isUpper = true)
    {rest other : List Char}
    (same : '_' :: character.toLower :: rest = separateCapitals other) :
    (∃ later, other = character :: later ∧ rest = separateCapitals later) ∨
      ∃ later, other = '_' :: character.toLower :: later ∧ rest = separateCapitals later := by
  obtain ⟨notSeparator, _, restored⟩ := toLower_of_isUpper capital
  cases other with
  | nil => cases same
  | cons first later =>
      cases kind : first.isUpper with
      | true =>
          rw [separateCapitals_capital kind, List.cons.injEq, List.cons.injEq] at same
          obtain ⟨_, lower, same⟩ := same
          have equal : character = first := by
            rw [← restored, lower, (toLower_of_isUpper kind).2.2]
          exact .inl ⟨later, by rw [equal], same⟩
      | false =>
          rw [separateCapitals_other kind, List.cons.injEq] at same
          obtain ⟨rfl, same⟩ := same
          cases later with
          | nil => cases same
          | cons second later =>
              cases kindSecond : second.isUpper with
              | true =>
                  rw [separateCapitals_capital kindSecond, List.cons.injEq] at same
                  exact absurd same.1 notSeparator
              | false =>
                  rw [separateCapitals_other kindSecond, List.cons.injEq] at same
                  obtain ⟨rfl, same⟩ := same
                  exact .inr ⟨later, rfl, same⟩

theorem separateCapitals_eq_nil {word : List Char} (same : [] = separateCapitals word) :
    word = [] := by
  cases word with
  | nil => rfl
  | cons first rest =>
      cases kind : first.isUpper with
      | true =>
          rw [separateCapitals_capital kind] at same
          cases same
      | false =>
          rw [separateCapitals_other kind] at same
          cases same

/-- Where two words separate alike, their first characters agree, or one of them is a capital and
the other word has it separated. -/
theorem cases_of_separateCapitals_eq {first : Char} {rest other : List Char}
    (same : separateCapitals (first :: rest) = separateCapitals other) :
    (∃ later, other = first :: later ∧ separateCapitals rest = separateCapitals later) ∨
      (first.isUpper = true ∧ ∃ later, other = '_' :: first.toLower :: later ∧
        separateCapitals rest = separateCapitals later) ∨
      ∃ capital tail later, capital.isUpper = true ∧ first = '_' ∧
        rest = capital.toLower :: tail ∧ other = capital :: later ∧
        separateCapitals tail = separateCapitals later := by
  cases kind : first.isUpper with
  | true =>
      rw [separateCapitals_capital kind] at same
      rcases eq_of_separated kind same with kept | separated
      · exact .inl kept
      · exact .inr (.inl ⟨rfl, separated⟩)
  | false =>
      cases other with
      | nil => cases separateCapitals_eq_nil same.symm
      | cons second later =>
          cases kindSecond : second.isUpper with
          | false =>
              rw [separateCapitals_other kind, separateCapitals_other kindSecond] at same
              obtain ⟨rfl, sameRest⟩ := List.cons.inj same
              exact .inl ⟨later, rfl, sameRest⟩
          | true =>
              rw [separateCapitals_capital kindSecond] at same
              rcases eq_of_separated kindSecond same.symm with
                ⟨tail, split, _⟩ | ⟨tail, split, sameRest⟩
              · rw [(List.cons.inj split).1, kindSecond] at kind
                cases kind
              · obtain ⟨isSeparator, tailSplit⟩ := List.cons.inj split
                exact .inr (.inr ⟨second, tail, later, kindSecond, isSeparator, tailSplit, rfl,
                  sameRest.symm⟩)

/-- Separating all capitals forgets exactly which of the two spellings was used. -/
theorem separateCapitals_eq_iff {word other : List Char} :
    separateCapitals word = separateCapitals other ↔ SameSpelling word other := by
  refine ⟨fun same => ?_, SameSpelling.separateCapitals_eq⟩
  -- A separator and its letter may answer to one capital, so the length may go down by two.
  induction length : word.length using Nat.strongRecOn generalizing word other with
  | ind _ ih =>
      subst length
      cases word with
      | nil =>
          rw [separateCapitals_eq_nil same]
          exact .nil
      | cons first rest =>
          rcases cases_of_separateCapitals_eq same with ⟨later, rfl, sameRest⟩ |
            ⟨capital, later, rfl, sameRest⟩ |
            ⟨letter, tail, later, capital, rfl, rfl, rfl, sameRest⟩
          all_goals simp only [List.length_cons] at ih
          · exact .keep first (ih rest.length (by omega) sameRest rfl)
          · exact .separate first capital (ih rest.length (by omega) sameRest rfl)
          · exact .join letter capital (ih tail.length (by omega) sameRest rfl)

/-- The word starts with a separator, or with a capital that gets one. -/
def opensPart : List Char → Bool
  | [] => false
  | first :: _ => first == '_' || first.isUpper

/-- A word without a separator in front gets one. -/
def symbolWord (word : List Char) : List Char :=
  if opensPart word then word else '_' :: word

/-- A separator can be put in front before the capitals are separated, or after. -/
theorem withLeadingSeparator_separateCapitals (word : List Char) :
    withLeadingSeparator (separateCapitals word) = separateCapitals (symbolWord word) := by
  have separator : separateCapitals ('_' :: word) = '_' :: separateCapitals word :=
    separateCapitals_other (by decide) word
  cases word with
  | nil => rfl
  | cons first rest =>
      cases kind : first.isUpper with
      | true =>
          simp [symbolWord, opensPart, kind, separateCapitals_capital kind, withLeadingSeparator]
      | false =>
          by_cases isSeparator : first = '_'
          · simp [symbolWord, opensPart, isSeparator, separateCapitals_other,
              withLeadingSeparator]
          · simp [symbolWord, opensPart, isSeparator, kind, separateCapitals_other kind,
              withLeadingSeparator, separator]

/-- The two names are spellings of one word, up to a separator in front. -/
def SameSymbol (name other : String) : Prop :=
  SameSpelling (symbolWord name.toList) (symbolWord other.toList)

/-- Two names give one symbol exactly if they are spellings of one word, up to a separator in front.
-/
theorem nativeSymbol_eq_iff (name other : String) :
    nativeSymbol name = nativeSymbol other ↔ SameSymbol name other := by
  unfold nativeSymbol
  rw [String.ofList_inj, List.append_right_inj, withLeadingSeparator_separateCapitals,
    withLeadingSeparator_separateCapitals]
  exact separateCapitals_eq_iff

/-- A reserved word is escaped to the other word. -/
def EscapesTo (word other : String) : Prop :=
  isReserved word = true ∧ other = "_" ++ word

/-- A word that gets the mark of an escape is none of those that have no such mark. -/
theorem not_contains_escaped {words : List String}
    (unmarked : ∀ listed ∈ words, listed.toList.head? ≠ some '_') (word : String) :
    words.contains ("_" ++ word) = false := by
  by_contra listed
  have member : "_" ++ word ∈ words := by
    simpa using listed
  apply unmarked _ member
  simp

/-- A marked word is not reserved. -/
theorem not_isReserved_escaped (word : String) : isReserved ("_" ++ word) = false :=
  not_contains_escaped (by simp [reservedWords]) word

/-- An escape that leaves escaped words alone only joins a word with what it is escaped to. -/
theorem escaped_eq_escaped_iff {escapes : String → Bool}
    (free : ∀ word, escapes ("_" ++ word) = false) (word other : String) :
    (if escapes word then "_" ++ word else word) = (if escapes other then "_" ++ other else other) ↔
      word = other ∨ (escapes word = true ∧ other = "_" ++ word) ∨
        (escapes other = true ∧ word = "_" ++ other) := by
  have differ {word other : String} (escaped : escapes word = true)
      (kept : escapes other = false) : word ≠ other := by
    rintro rfl
    simp [escaped] at kept
  cases first : escapes word <;> cases second : escapes other
  · simp
  · simp [(differ second first).symm]
  · simp [differ first second, eq_comm]
  · simp [differ first (free other), differ second (free word), String.append_right_inj]

/-- Two words are escaped to one only if one of them is what the other is escaped to. -/
theorem escape_eq_escape_iff (word other : String) :
    escape word = escape other ↔ word = other ∨ EscapesTo word other ∨ EscapesTo other word :=
  escaped_eq_escaped_iff not_isReserved_escaped word other

/-- The two names give one operation: they agree in snake case, or one is escaped to the other. -/
def SameOperation (name other : String) : Prop :=
  snakeCase name = snakeCase other ∨ EscapesTo (snakeCase name) (snakeCase other) ∨
    EscapesTo (snakeCase other) (snakeCase name)

end Identifier

/-- The field of the dispatch table that a method is called through. -/
def Model.Method.slotName (method : Model.Method) : String :=
  match method.attributes with
  | [⟨"property_get", _⟩] => "get" ++ method.name
  | [⟨"property_set", _⟩] => "put" ++ method.name
  | [⟨"long_name", some longName⟩] => longName
  | _ => method.name

namespace Binding

/-- The slot of a method is named by its declaration. -/
theorem MethodNames.ofMethod_slot {interface : String} {method : Model.Method}
    {names : MethodNames} (named : MethodNames.ofMethod interface method = .ok names) :
    names.slot = method.slotName := by
  have wellNamed : method.WellNamed := by
    rw [← method.namingViolations_eq_nil_iff interface]
    exact (ofMethod_reports interface method).eq_nil_of_ok named
  obtain ⟨name, attributes, returnType, arguments⟩ := method
  match attributes with
  | [] =>
      cases named
      rfl
  | [⟨word, value⟩] =>
      simp only [ofMethod, ofAttributes_cons] at named
      obtain ⟨chosen, given, same⟩ := bind_eq_ok_iff.mp named
      cases same
      simp only [ofAttribute, beq_iff_eq] at given
      by_cases isGet : word = "property_get"
      · subst isGet
        cases given
        rfl
      rw [if_neg isGet] at given
      by_cases isSet : word = "property_set"
      · subst isSet
        cases given
        rfl
      rw [if_neg isSet] at given
      by_cases isLong : word = "long_name"
      · subst isLong
        cases value with
        | none => cases given
        | some longName =>
            cases given
            rfl
      · rw [if_neg isLong] at given
        cases given
  | first :: second :: rest =>
      have short := wellNamed.single
      simp at short

/-- The three names of a method come from its declaration. -/
structure Method.NamedBy (declared : Model.Method) (bound : Method) : Prop where
  operation : bound.operation = Identifier.escape (Identifier.snakeCase declared.adjustedName)
  symbol : bound.symbol = Identifier.nativeSymbol declared.adjustedName
  slot : bound.slot = declared.slotName

/-- The methods of an interface that is built are named by their declarations. -/
theorem Interface.namedBy_of_ofModel {scope : Scope} {declared : Model.Interface}
    {bound : Interface} (built : Interface.ofModel scope declared = .ok bound) :
    List.Forall₂ Method.NamedBy declared.methods bound.methods := by
  obtain ⟨_, _, _, _, methods⟩ := Interface.ofModel_eq_ok built
  refine forall₂_of_mem methods fun method boundMethod _ each => ?_
  obtain ⟨_, adjusted, named, operation, symbol, _⟩ := Method.ofModel_eq_ok each
  exact ⟨adjusted ▸ operation, adjusted ▸ symbol, MethodNames.ofMethod_slot named⟩

end Binding

namespace Source

/-- The names that the functions at the head of every dispatch table are derived from. -/
def baseNames : List String := ["AddReference", "Release", "QueryInterface", "GetLastError"]

/-- The base interface has the symbols of its names. -/
theorem symbols_baseSlots : baseSlots.map Slot.symbol = baseNames.map Identifier.nativeSymbol := by
  decide

end Source

namespace Model.Interface

/-- No two methods give one operation. -/
def OperationsApart (declared : Model.Interface) : Prop :=
  declared.methods.Pairwise fun method other =>
    ¬ Identifier.SameOperation method.adjustedName other.adjustedName

/-- No method has the symbol of another one or of a function that every table starts with. -/
def SymbolsApart (declared : Model.Interface) : Prop :=
  (Source.baseNames ++ declared.methods.map Model.Method.adjustedName).Pairwise
    fun name other => ¬ Identifier.SameSymbol name other

/-- No two methods give one slot. -/
def SlotsApart (declared : Model.Interface) : Prop :=
  declared.methods.Pairwise fun method other => method.slotName ≠ other.slotName

variable {declared : Model.Interface} {methods : List Binding.Method}
  (named : List.Forall₂ Binding.Method.NamedBy declared.methods methods)

include named

/-- The operations differ exactly if they are apart. -/
theorem nodup_operations_iff :
    (methods.map Binding.Method.operation).Nodup ↔ declared.OperationsApart := by
  rw [map_eq_of_forall₂ named fun _ _ each => each.operation]
  simp only [List.Nodup, List.pairwise_map, ne_eq, Identifier.escape_eq_escape_iff]
  rfl

/-- The symbols differ, also from those of the base interface, exactly if they are apart. -/
theorem nodup_symbols_iff :
    (Source.baseSlots.map Source.Slot.symbol ++ methods.map Binding.Method.symbol).Nodup ↔
      declared.SymbolsApart := by
  have symbols : methods.map Binding.Method.symbol =
      (declared.methods.map Model.Method.adjustedName).map Identifier.nativeSymbol := by
    rw [map_eq_of_forall₂ named fun _ _ each => each.symbol, List.map_map]
    rfl
  rw [Source.symbols_baseSlots, symbols, ← List.map_append]
  simp only [List.Nodup, List.pairwise_map, ne_eq, Identifier.nativeSymbol_eq_iff]
  rfl

/-- The slots differ exactly if they are apart. -/
theorem nodup_slots_iff :
    (methods.map Binding.Method.slot).Nodup ↔ declared.SlotsApart := by
  rw [map_eq_of_forall₂ named fun _ _ each => each.slot, List.Nodup, List.pairwise_map]
  rfl

end Model.Interface

namespace Source

/-- The members that are listed for an interface are defined in its text: the operations in the
contract, the accessors in the handle, and in the adapter the trampolines and the rows of the
dispatch table. -/
structure DefinesMembers (context : Context) (interface : Binding.Interface) : Prop where
  operations : ∀ operation ∈ (Contract.ofInterface context interface).operations,
    Text.Contains (Contract.ofInterface context interface).text
      ("\tfn " ++ operation.name ++ "(&mut self")
  accessors : ∀ accessor ∈ (Handle.ofInterface context interface).accessors,
    Text.Contains (Handle.ofInterface context interface).text ("\tpub fn " ++ accessor.name)
  trampolines : ∀ trampoline ∈ (Adapter.ofInterface context interface).trampolines,
    Text.Contains (Adapter.ofInterface context interface).text
      ("\textern \"C\" fn " ++ trampoline.symbol ++ "(me: *mut std::ffi::c_void")
  slots : Text.Contains (Adapter.ofInterface context interface).text
    (dispatchTable (context.nativePath interface.name) (context.supportRaw "ICapeInterface_VTable")
      ((Adapter.ofInterface context interface).slots.map fun slot => (slot.field, slot.symbol)))

theorem Operation.contains_head (operation : Operation) :
    Text.Contains operation.text ("\tfn " ++ operation.name ++ "(&mut self") := by
  unfold text
  exact ⟨"", _, by simp only [String.append_assoc, String.empty_append]; rfl⟩

/-- An accessor starts with its name. -/
theorem Accessor.contains_head (accessor : Accessor) :
    Text.Contains accessor.text ("\tpub fn " ++ accessor.name) := by
  unfold text
  exact ⟨"", _, by simp only [String.append_assoc, String.empty_append]; rfl⟩

/-- A trampoline starts with its symbol. -/
theorem Trampoline.contains_head (trampoline : Trampoline) :
    Text.Contains trampoline.text
      ("\textern \"C\" fn " ++ trampoline.symbol ++ "(me: *mut std::ffi::c_void") := by
  unfold text
  exact ⟨"", _, by simp only [String.append_assoc, String.empty_append]; rfl⟩

/-- The members of an interface stand in its text under their names. -/
theorem definesMembers (context : Context) (interface : Binding.Interface) :
    DefinesMembers context interface where
  operations operation member := (Contract.contains_operation member).trans operation.contains_head
  accessors accessor member := (Handle.contains_accessor member).trans accessor.contains_head
  trampolines trampoline member :=
    (Adapter.contains_trampoline member).trans trampoline.contains_head
  slots := Adapter.contains_table _

/-- The members of the contract, of the handle and of the dispatch table of every interface are
defined in its text. They are distinct exactly if those of its declared methods are told apart: by
their names in snake case, by their symbols, and by their slots. -/
theorem member_names_distinct_iff_apart {external : String → Option Nat}
    {libraries : List Model.Library} {bound : Binding.Library}
    (built : Binding.build external libraries = .ok bound) (context : Context) :
    ∃ library rest, libraries = library :: rest ∧
      List.Forall₂ (fun declared interface =>
          DefinesMembers context interface ∧
          (((Contract.ofInterface context interface).operations.map Operation.name).Nodup ↔
            declared.OperationsApart) ∧
          (((Handle.ofInterface context interface).accessors.map Accessor.name).Nodup ↔
            declared.OperationsApart) ∧
          ((baseSlots.map Slot.symbol ++
              (Adapter.ofInterface context interface).trampolines.map Trampoline.symbol).Nodup ↔
            declared.SymbolsApart) ∧
          (((Adapter.ofInterface context interface).slots.map Slot.field).Nodup ↔
            declared.SlotsApart))
        library.interfaces bound.interfaces := by
  obtain ⟨library, rest, split, libraryBuilt⟩ := Binding.build_eq_ok built
  obtain ⟨_, _, _, _, interfaces, _⟩ := Binding.Library.ofModel_eq_ok libraryBuilt
  refine ⟨library, rest, split, forall₂_of_mem interfaces fun declared interface _ each => ?_⟩
  have named := Binding.Interface.namedBy_of_ofModel each
  refine ⟨definesMembers context interface, ?_⟩
  simp only [Contract.ofInterface, Handle.ofInterface, Adapter.ofInterface, List.map_map]
  exact ⟨Model.Interface.nodup_operations_iff named, Model.Interface.nodup_operations_iff named,
    Model.Interface.nodup_symbols_iff named, Model.Interface.nodup_slots_iff named⟩

/-- A library with an interface that reads and sets one property. -/
def valveLibrary : Model.Library where
  name := "Piping"
  uuid := ⟨List.replicate 16 23, rfl⟩
  interfaces := [{
    name := "IValve"
    uuid := ⟨List.replicate 16 24, rfl⟩
    methods := [
      { name := "Opening"
        attributes := [⟨"property_get", none⟩]
        returnType := some { kind := .result }
        arguments := [⟨"value", [⟨"out", none⟩, ⟨"retval", none⟩], { kind := .real }⟩] },
      { name := "Opening"
        attributes := [⟨"property_set", none⟩]
        returnType := some { kind := .result }
        arguments := [⟨"value", [⟨"in", none⟩], { kind := .real }⟩] },
      { name := "Close", returnType := some { kind := .result } }] }]

/-- An interface in which all members are apart. -/
theorem member_names_distinct_iff_apart_valveLibrary :
    (∃ bound, Binding.build (fun _ => none) [valveLibrary] = .ok bound) ∧
      ∃ declared ∈ valveLibrary.interfaces,
        declared.OperationsApart ∧ declared.SymbolsApart ∧ declared.SlotsApart := by
  have built : Binding.build (fun _ => none) [valveLibrary] = .ok _ := rfl
  obtain ⟨library, rest, split, each⟩ :=
    member_names_distinct_iff_apart built (Options.context {} "Piping")
  obtain ⟨rfl, rfl⟩ := List.cons.inj split
  obtain ⟨⟨_, operations, _, symbols, slots⟩, _⟩ := List.forall₂_cons.mp each
  refine ⟨⟨_, built⟩, _, List.mem_cons_self, operations.mp ?_, symbols.mp ?_, slots.mp ?_⟩
  · decide
  · decide
  · decide

/-- A library with an interface whose methods differ in their names or attributes, and which
nevertheless meet each other or what every table starts with. -/
def twinLibrary : Model.Library where
  name := "Thermo"
  uuid := ⟨List.replicate 16 25, rfl⟩
  interfaces := [{
    name := "IThing"
    uuid := ⟨List.replicate 16 26, rfl⟩
    methods := [
      { name := "getName", returnType := some { kind := .result } },
      { name := "Name"
        attributes := [⟨"property_get", none⟩]
        returnType := some { kind := .result } },
      { name := "Release", returnType := some { kind := .result } }] }]

/-- Methods that differ in name or attributes, with members that meet. -/
theorem member_names_repeated_twinLibrary :
    ∃ bound, Binding.build (fun _ => none) [twinLibrary] = .ok bound ∧
      (∀ declared ∈ twinLibrary.interfaces,
        (declared.methods.map fun method => (method.name, method.attributes)).Nodup) ∧
      ∃ interface ∈ bound.interfaces,
        ¬ (interface.methods.map Binding.Method.operation).Nodup ∧
        ¬ (interface.methods.map Binding.Method.symbol).Nodup ∧
        "raw_release" ∈ interface.methods.map Binding.Method.symbol ∧
        "raw_release" ∈ baseSlots.map Slot.symbol ∧
        ¬ (interface.methods.map Binding.Method.slot).Nodup := by
  refine ⟨_, rfl, by decide, _, List.mem_cons_self, ?_⟩
  decide

end Source

end IdlBindings
