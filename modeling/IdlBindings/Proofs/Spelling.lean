import IdlBindings.ScopedName
import Mathlib

/-
This file says which texts are identifiers and paths of identifiers, and follows the characters of
declared names into the names derived from them.
-/

namespace IdlBindings

namespace Identifier

/-- Letters, digits and separators stand in identifiers, and whatever lies beyond ASCII may. -/
def isWordCharacter (character : Char) : Bool :=
  character.isAlphanum || character == '_' || decide (0x7F < character.toNat)

/-- An identifier is not empty and does not start with a digit. -/
def isIdentifier (text : String) : Bool :=
  match text.toList with
  | [] => false
  | first :: rest => !first.isDigit && (first :: rest).all isWordCharacter

/-- The characters of an identifier are those of words. -/
theorem mem_of_isIdentifier {text : String} (identifier : isIdentifier text = true) :
    ∀ character ∈ text.toList, isWordCharacter character = true := by
  unfold isIdentifier at identifier
  split at identifier
  · simp at identifier
  case h_2 first rest spelled =>
    rw [spelled]
    simp only [Bool.and_eq_true, List.all_eq_true] at identifier
    exact identifier.2

end Identifier

/-- A text is spelled with the allowed characters only. -/
def Spelled (allowed : Char → Prop) (text : String) : Prop :=
  ∀ character ∈ text.toList, allowed character

instance (allowed : Char → Prop) [DecidablePred allowed] (text : String) :
    Decidable (Spelled allowed text) :=
  List.decidableBAll allowed text.toList

namespace Spelled

variable {allowed : Char → Prop} {text : String}

/-- What is spelled in some characters is spelled in more. -/
theorem mono {wider : Char → Prop} (spelled : Spelled allowed text)
    (follows : ∀ character, allowed character → wider character) : Spelled wider text :=
  fun character member => follows character (spelled character member)

/-- Texts in some characters can be written one after the other. -/
theorem append {suffix : String} (first : Spelled allowed text)
    (second : Spelled allowed suffix) : Spelled allowed (text ++ suffix) := by
  intro character member
  rw [String.toList_append, List.mem_append] at member
  exact member.elim (first character) (second character)

theorem of_append_left {suffix : String} (spelled : Spelled allowed (text ++ suffix)) :
    Spelled allowed text := by
  intro character member
  apply spelled
  rw [String.toList_append]
  exact List.mem_append_left _ member

theorem of_append_right {start : String} (spelled : Spelled allowed (start ++ text)) :
    Spelled allowed text := by
  intro character member
  apply spelled
  rw [String.toList_append]
  exact List.mem_append_right _ member

theorem ofList {characters : List Char} (each : ∀ character ∈ characters, allowed character) :
    Spelled allowed (String.ofList characters) := by
  intro character member
  rw [String.toList_ofList] at member
  exact each character member

/-- A list is spelled in some characters if its entries and its separator are. -/
theorem intercalate {separator : String} {parts : List String}
    (between : Spelled allowed separator) (each : ∀ part ∈ parts, Spelled allowed part) :
    Spelled allowed (String.intercalate separator parts) := by
  induction parts with
  | nil => simp [Spelled]
  | cons part rest ih =>
      have first := each part List.mem_cons_self
      have others := ih fun other member => each other (List.mem_cons_of_mem part member)
      cases rest with
      | nil => simpa using first
      | cons next later =>
          rw [String.intercalate_cons_cons]
          exact (first.append between).append others

/-- A joined text is spelled in some characters if its parts are. -/
theorem join {parts : List String} (each : ∀ part ∈ parts, Spelled allowed part) :
    Spelled allowed (String.join parts) := by
  intro character member
  rw [String.toList_join, List.mem_flatMap] at member
  obtain ⟨part, listed, within⟩ := member
  exact each part listed character within

end Spelled

namespace Identifier

section Derived

-- What is allowed has to take in the letters and the separator, which conversions may bring in.
variable {allowed : Char → Prop} (letters : ∀ character : Char, character.isAlpha → allowed character)
  (separator : allowed '_')

include letters

theorem allowed_toLower {character : Char} (spelled : allowed character) :
    allowed character.toLower := by
  by_cases letter : character.isAlpha
  · exact letters _ (by rwa [Char.isAlpha_toLower_eq_isAlpha])
  · have notUpper : ¬ character.isUpper := fun upper => letter (by simp [Char.isAlpha, upper])
    rwa [Char.toLower_eq_of_not_isUpper notUpper]

theorem allowed_toUpper {character : Char} (spelled : allowed character) :
    allowed character.toUpper := by
  by_cases letter : character.isAlpha
  · exact letters _ (by rwa [Char.isAlpha_toUpper_eq_isAlpha])
  · have notLower : ¬ character.isLower := fun lower => letter (by simp [Char.isAlpha, lower])
    rwa [Char.toUpper_eq_of_not_isLower notLower]

theorem mem_camelFrom {starts : Bool} {word : List Char}
    (spelled : ∀ character ∈ word, allowed character) :
    ∀ character ∈ camelFrom Char.toLower starts word, allowed character := by
  induction word generalizing starts with
  | nil => simp [camelFrom]
  | cons first rest ih =>
      have others (starts : Bool) := @ih starts fun other member =>
        spelled other (List.mem_cons_of_mem first member)
      have head := spelled first List.mem_cons_self
      intro character member
      rw [camelFrom] at member
      split at member
      · exact others true character member
      · rcases List.mem_cons.mp member with same | later
        · rw [same]
          split
          · exact allowed_toUpper letters head
          · exact allowed_toLower letters head
        · exact others false character later

/-- Camel case brings in no other characters. -/
theorem spelled_camelCase {word : String} (spelled : Spelled allowed word) :
    Spelled allowed (camelCase word) := Spelled.ofList (mem_camelFrom letters spelled)

omit letters

include separator

/-- An escape brings in no other characters. -/
theorem spelled_escape {word : String} (spelled : Spelled allowed word) :
    Spelled allowed (escape word) := by
  unfold escape
  split
  · refine Spelled.append ?_ spelled
    intro character member
    obtain rfl : character = '_' := by simpa using member
    exact separator
  · exact spelled

include letters

theorem mem_snakeFrom {separable : Bool} {word : List Char}
    (spelled : ∀ character ∈ word, allowed character) :
    ∀ character ∈ snakeFrom separable word, allowed character := by
  induction word generalizing separable with
  | nil => simp [snakeFrom]
  | cons first rest ih =>
      have others (separable : Bool) := @ih separable fun other member =>
        spelled other (List.mem_cons_of_mem first member)
      have head := spelled first List.mem_cons_self
      have lowered := allowed_toLower letters head
      intro character member
      rw [snakeFrom] at member
      split at member
      · rcases List.mem_append.mp member with before | later
        · split at before
          · simp only [List.mem_cons, List.not_mem_nil, or_false] at before
            rcases before with rfl | rfl
            · exact separator
            · exact lowered
          · obtain rfl := List.mem_singleton.mp before
            exact lowered
        · exact others false character later
      · rcases List.mem_cons.mp member with rfl | later
        · exact head
        · exact others _ character later

/-- Snake case brings in no characters but letters and separators. -/
theorem spelled_snakeCase {word : String} (spelled : Spelled allowed word) :
    Spelled allowed (snakeCase word) := Spelled.ofList (mem_snakeFrom letters separator spelled)

end Derived

/-- A word has only characters of identifiers, but may be empty or start with a digit. -/
def IsWord (text : String) : Prop :=
  Spelled (fun character => isWordCharacter character = true) text

/-- An identifier is a word. -/
theorem IsWord.of_isIdentifier {text : String} (identifier : isIdentifier text = true) :
    IsWord text := mem_of_isIdentifier identifier

/-- A character that is not one of words is in no word. -/
theorem IsWord.not_mem {text : String} (word : IsWord text) {character : Char}
    (other : isWordCharacter character = false) : character ∉ text.toList := by
  intro member
  rw [word character member] at other
  contradiction

/-- The name of an item is a word. -/
theorem IsWord.escape_camelCase {text : String} (word : IsWord text) :
    IsWord (escape (camelCase text)) := by
  have letters (character : Char) (letter : character.isAlpha = true) :
      isWordCharacter character = true := by
    simp [isWordCharacter, Char.isAlphanum, letter]
  exact spelled_escape (by decide) (spelled_camelCase letters word)

end Identifier

end IdlBindings
