import IdlBindings.Proofs.SnakeCase
import IdlBindings.Proofs.VariantNames

/-
This file follows declared names that are ASCII identifiers into a binding. Operations and
arguments get identifiers without capitals there, clear of the words that have another meaning.
-/

namespace IdlBindings

namespace Identifier

/-- Small letters, digits and separators of ASCII. -/
def isSmallWordCharacter (character : Char) : Bool :=
  character.isLower || character.isDigit || character == '_'

/-- A word of small letters, digits and separators that does not start with a digit. -/
def isSmallIdentifier (name : String) : Bool :=
  match name.toList with
  | [] => false
  | first :: rest => (first.isLower || first == '_') && rest.all isSmallWordCharacter

/-- An identifier that starts with something but a digit, and then has any word characters. -/
theorem isAsciiIdentifier_iff (name : String) :
    isAsciiIdentifier name = true ↔
      (∃ first, name.toList.head? = some first ∧ first.isDigit = false) ∧
        Spelled (fun character => isAsciiWordCharacter character = true) name := by
  unfold isAsciiIdentifier Spelled
  cases name.toList with
  | nil => simp
  | cons first rest => simp

/-- Two identifiers of ASCII make one. -/
theorem isAsciiIdentifier_append {start : String} (identifier : isAsciiIdentifier start = true)
    {name : String} (named : isAsciiIdentifier name = true) :
    isAsciiIdentifier (start ++ name) = true := by
  obtain ⟨⟨first, opening, notDigit⟩, spelled⟩ := (isAsciiIdentifier_iff start).mp identifier
  rw [isAsciiIdentifier_iff]
  refine ⟨⟨first, ?_, notDigit⟩, spelled.append (mem_of_isAsciiIdentifier named)⟩
  rw [String.toList_append, List.head?_append, opening]
  rfl

theorem isDigit_toLower (character : Char) : character.toLower.isDigit = character.isDigit := by
  rw [← isDigit_toUpper, Char.toUpper_toLower_eq_toUpper, isDigit_toUpper]

/-- An identifier of ASCII stays one in snake case. -/
theorem isAsciiIdentifier_snakeCase {name : String} (identifier : isAsciiIdentifier name = true) :
    isAsciiIdentifier (snakeCase name) = true := by
  have letters (character : Char) (letter : character.isAlpha = true) :
      isAsciiWordCharacter character = true := by
    simp [isAsciiWordCharacter, Char.isAlphanum, letter]
  obtain ⟨⟨first, opening, notDigit⟩, spelled⟩ := (isAsciiIdentifier_iff name).mp identifier
  rw [isAsciiIdentifier_iff]
  refine ⟨⟨first.toLower, ?_, ?_⟩, spelled_snakeCase letters (by decide) spelled⟩
  · rw [snakeCase, String.toList_ofList, head?_snakeFrom, opening]
    rfl
  · rw [isDigit_toLower, notDigit]

/-- Without its capitals, the alphabet of identifiers is that of small ones. -/
theorem isSmallIdentifier_of_ascii {name : String} (identifier : isAsciiIdentifier name = true)
    (small : ∀ character ∈ name.toList, character.isUpper = false) :
    isSmallIdentifier name = true := by
  unfold isAsciiIdentifier at identifier
  unfold isSmallIdentifier
  cases spelled : name.toList with
  | nil => simp [spelled] at identifier
  | cons first rest =>
      have each (character : Char) (member : character ∈ first :: rest)
          (word : isAsciiWordCharacter character = true) :
          isSmallWordCharacter character = true := by
        have notUpper := small character (spelled ▸ member)
        simpa [isAsciiWordCharacter, isSmallWordCharacter, Char.isAlphanum, Char.isAlpha, notUpper]
          using word
      simp only [spelled, Bool.and_eq_true, Bool.not_eq_eq_eq_not, Bool.not_true,
        List.all_eq_true] at identifier
      obtain ⟨notDigit, words⟩ := identifier
      rw [Bool.and_eq_true, List.all_eq_true]
      constructor
      · have opening := each first List.mem_cons_self (words first List.mem_cons_self)
        simpa [isSmallWordCharacter, notDigit] using opening
      · intro character member
        have listed := List.mem_cons_of_mem first member
        exact each character listed (words character listed)

/-- Snake case makes an identifier small. -/
theorem isSmallIdentifier_snakeCase {name : String} (identifier : isAsciiIdentifier name = true) :
    isSmallIdentifier (snakeCase name) = true :=
  isSmallIdentifier_of_ascii (isAsciiIdentifier_snakeCase identifier) (isUpper_snakeCase name)

/-- The mark of an escape may stand before any identifier. -/
theorem isSmallIdentifier_marked {word : String} (small : isSmallIdentifier word = true) :
    isSmallIdentifier ("_" ++ word) = true := by
  unfold isSmallIdentifier at small ⊢
  rw [String.toList_append]
  cases spelled : word.toList with
  | nil => simp [spelled] at small
  | cons first rest =>
      simp only [spelled, Bool.and_eq_true, Bool.or_eq_true] at small
      have opening : isSmallWordCharacter first = true := by
        rcases small.1 with lower | separator
        · simp [isSmallWordCharacter, lower]
        · simp [isSmallWordCharacter, separator]
      simpa [opening] using small.2

/-- An escape keeps an identifier small. -/
theorem isSmallIdentifier_escape {word : String} (small : isSmallIdentifier word = true) :
    isSmallIdentifier (escape word) = true := by
  unfold escape
  split
  · exact isSmallIdentifier_marked small
  · exact small

/-- An escape of an argument keeps an identifier small. -/
theorem isSmallIdentifier_escapeArgument {word : String} (small : isSmallIdentifier word = true) :
    isSmallIdentifier (escapeArgument word) = true := by
  rw [escapeArgument_eq]
  split
  · exact isSmallIdentifier_marked small
  · exact small

/-- No escaped word is reserved. -/
theorem escape_not_mem_reservedWords (word : String) : escape word ∉ reservedWords := by
  have free := not_isReserved_escape word
  simpa [isReserved] using free

/-- An escaped argument falls back into neither of the two tables. -/
theorem escapeArgument_not_mem (word : String) :
    escapeArgument word ∉ reservedWords ∧ escapeArgument word ∉ generatedLocals := by
  have free := not_isTaken_escapeArgument word
  simp only [isTaken, isReserved, Bool.or_eq_false_iff, List.contains_eq_mem,
    decide_eq_false_iff_not] at free
  exact ⟨free.2, free.1⟩

end Identifier

namespace Model.Method

open Identifier (isAsciiIdentifier)

/-- All names that those of a bound method and its arguments are derived from are identifiers. -/
structure AsciiNamed (method : Model.Method) : Prop where
  name : isAsciiIdentifier method.name = true
  longName : ∀ entry ∈ method.attributes, entry.name = "long_name" →
    ∀ text ∈ entry.value, isAsciiIdentifier text = true
  arguments : ∀ argument ∈ method.arguments, isAsciiIdentifier argument.name = true

/-- A property puts letters before the name, and a long name is an identifier itself. -/
theorem AsciiNamed.adjustedName {method : Model.Method} (ascii : method.AsciiNamed) :
    isAsciiIdentifier method.adjustedName = true := by
  unfold Model.Method.adjustedName
  cases chosen : method.attributes.find? Attribute.isNaming with
  | none => exact ascii.name
  | some naming =>
      have listed := List.mem_of_find?_eq_some chosen
      have word := List.find?_some chosen
      dsimp only
      split
      case isTrue => exact Identifier.isAsciiIdentifier_append (by decide) ascii.name
      case isFalse notGet =>
        split
        case isTrue => exact Identifier.isAsciiIdentifier_append (by decide) ascii.name
        case isFalse notSet =>
          have isLong : naming.name = "long_name" := by
            simpa [Attribute.isNaming, namingWords, notGet, notSet] using word
          -- Without a value nothing is built, but the adjusted name is then the declared one.
          cases given : naming.value with
          | none => exact ascii.name
          | some text => exact ascii.longName naming listed isLong text given

end Model.Method

namespace Binding

open Identifier (isSmallIdentifier reservedWords generatedLocals)

/-- Every operation of a binding and every argument has an identifier without capitals for its
name. None is a reserved word, and no argument is named like a local of generated code. -/
theorem bound_names_usable {external : String → Option Nat} {library : Model.Library}
    {rest : List Model.Library} {bound : Library}
    (built : build external (library :: rest) = .ok bound)
    (ascii : ∀ interface ∈ library.interfaces, ∀ method ∈ interface.methods, method.AsciiNamed) :
    ∀ interface ∈ bound.interfaces, ∀ method ∈ interface.methods,
      (isSmallIdentifier method.operation = true ∧ method.operation ∉ reservedWords) ∧
      ∀ argument ∈ method.arguments,
        isSmallIdentifier argument.name = true ∧ argument.name ∉ reservedWords ∧
          argument.name ∉ generatedLocals := by
  intro interface ofLibrary method ofInterface
  obtain ⟨_, _, _, _, interfaces, _⟩ := Library.ofModel_eq_ok built
  obtain ⟨owner, ownerListed, interfaceBuilt⟩ := exists_mem_of_forall₂ interfaces ofLibrary
  obtain ⟨_, _, _, _, methods⟩ := Interface.ofModel_eq_ok interfaceBuilt
  obtain ⟨declared, declaredListed, methodBuilt⟩ := exists_mem_of_forall₂ methods ofInterface
  obtain ⟨_, adjusted, _, operation, _, arguments⟩ := Method.ofModel_eq_ok methodBuilt
  have named := ascii owner ownerListed declared declaredListed
  constructor
  · rw [operation, adjusted]
    exact ⟨Identifier.isSmallIdentifier_escape
      (Identifier.isSmallIdentifier_snakeCase named.adjustedName),
      Identifier.escape_not_mem_reservedWords _⟩
  · intro argument ofMethod
    obtain ⟨declaredArgument, argumentListed, argumentBuilt⟩ :=
      exists_mem_of_forall₂ arguments ofMethod
    obtain ⟨_, name, _⟩ := Argument.ofModel_eq_ok argumentBuilt
    rw [name]
    exact ⟨Identifier.isSmallIdentifier_escapeArgument
      (Identifier.isSmallIdentifier_snakeCase (named.arguments declaredArgument argumentListed)),
      Identifier.escapeArgument_not_mem _⟩

/-- A library whose names turn into words that have another meaning. -/
def keywordLibrary : Model.Library where
  name := "Syntax"
  uuid := ⟨List.replicate 16 36, rfl⟩
  interfaces := [{
    name := "IToken"
    uuid := ⟨List.replicate 16 37, rfl⟩
    methods := [
      { name := "Type"
        returnType := some { kind := .result }
        arguments := [
          ⟨"ResultCode", [⟨"in", none⟩], { kind := .integer }⟩,
          ⟨"Ref", [⟨"out", none⟩], { kind := .integer }⟩] },
      { name := "_Self"
        attributes := [⟨"property_get", none⟩]
        returnType := some { kind := .result }
        arguments := [⟨"P", [⟨"out", none⟩, ⟨"retval", none⟩], { kind := .real }⟩] },
      { name := "Build"
        attributes := [⟨"long_name", some "IMPL"⟩]
        returnType := some { kind := .result } }] }]

/-- Names that meet reserved words and locals, which are all usable once bound. -/
theorem bound_names_usable_keywordLibrary :
    ∃ bound, build (fun _ => none) [keywordLibrary] = .ok bound ∧
      (∀ interface ∈ keywordLibrary.interfaces, ∀ method ∈ interface.methods,
        method.AsciiNamed) ∧
      ∀ interface ∈ bound.interfaces,
        interface.methods.map Method.operation = ["_type", "get_self", "_impl"] ∧
        ∀ method ∈ interface.methods,
          (isSmallIdentifier method.operation = true ∧ method.operation ∉ reservedWords) ∧
          ∀ argument ∈ method.arguments,
            isSmallIdentifier argument.name = true ∧ argument.name ∉ reservedWords ∧
              argument.name ∉ generatedLocals := by
  have built : build (fun _ => none) [keywordLibrary] = .ok _ := rfl
  have ascii : ∀ interface ∈ keywordLibrary.interfaces, ∀ method ∈ interface.methods,
      method.AsciiNamed := by
    intro interface ofLibrary method ofInterface
    obtain rfl := List.mem_singleton.mp ofLibrary
    constructor
    all_goals
      revert method
      decide
  refine ⟨_, built, ascii, ?_⟩
  intro interface ofLibrary
  refine ⟨?_, bound_names_usable built ascii interface ofLibrary⟩
  obtain rfl := List.mem_singleton.mp ofLibrary
  decide

end Binding

end IdlBindings
