import IdlBindings.Proofs.MemberNames
import IdlBindings.Proofs.Spelling

/-
This file tells from the declared name of an enumeration item whether generated code can use the
name that is derived from it.
-/

namespace IdlBindings

namespace Identifier

/-- Letters, digits and separators of ASCII. -/
def isAsciiWordCharacter (character : Char) : Bool := character.isAlphanum || character == '_'

/-- A word of ASCII that is not empty and does not start with a digit. -/
def isAsciiIdentifier (name : String) : Bool :=
  match name.toList with
  | [] => false
  | first :: rest => !first.isDigit && (first :: rest).all isAsciiWordCharacter

/-- Generated code can use the name for an item: it is an identifier, and no reserved word. -/
structure IsVariantName (name : String) : Prop where
  inhabited : name ≠ ""
  opening : ∀ first ∈ name.toList.head?, first.isDigit = false
  characters : ∀ character ∈ name.toList, isAsciiWordCharacter character = true
  unreserved : isReserved name = false

/-- The first character of the name that is no separator is a letter. -/
def OpenedByLetter (name : String) : Prop :=
  ∃ letter, name.toList.find? (· != '_') = some letter ∧ letter.isAlpha = true

/-- No escaped word is reserved. -/
theorem not_isReserved_escape (word : String) : isReserved (escape word) = false := by
  unfold escape
  cases reserved : isReserved word with
  | true => exact not_isReserved_escaped word
  | false => exact reserved

/-- A letter is no digit. -/
theorem not_isDigit_of_isAlpha {character : Char} (letter : character.isAlpha = true) :
    character.isDigit = false := by
  by_contra digit
  have below : character.toNat ≤ 57 := by
    simp only [Char.isDigit, Bool.not_eq_false, Bool.and_eq_true, decide_eq_true_eq,
      UInt32.le_iff_toNat_le] at digit
    exact digit.2
  have above : 65 ≤ character.toNat := by
    simp only [Char.isAlpha, Char.isUpper, Char.isLower, Bool.or_eq_true, Bool.and_eq_true,
      decide_eq_true_eq, ge_iff_le, UInt32.le_iff_toNat_le] at letter
    rcases letter with upper | lower
    · exact upper.1
    · exact Nat.le_trans (by decide) lower.1
  omega

/-- The capital of a character is a digit only if the character is. -/
theorem isDigit_toUpper (character : Char) : character.toUpper.isDigit = character.isDigit := by
  by_cases lower : character.isLower = true
  · have letter : character.isAlpha = true := by
      simp [Char.isAlpha, lower]
    have capital : character.toUpper.isAlpha = true := by
      rwa [Char.isAlpha_toUpper_eq_isAlpha]
    rw [not_isDigit_of_isAlpha letter, not_isDigit_of_isAlpha capital]
  · rw [Char.toUpper_eq_of_not_isLower lower]

/-- The conversion starts with the first character that is no separator. -/
theorem head?_camelFrom (inner : Char → Char) (word : List Char) :
    (camelFrom inner true word).head? = (word.find? (· != '_')).map Char.toUpper := by
  induction word with
  | nil => rfl
  | cons first rest ih =>
      by_cases separator : first = '_'
      · simp [camelFrom, separator, ih]
      · simp [camelFrom, separator]

/-- The characters of an identifier of ASCII. -/
theorem mem_of_isAsciiIdentifier {name : String} (identifier : isAsciiIdentifier name = true) :
    ∀ character ∈ name.toList, isAsciiWordCharacter character = true := by
  unfold isAsciiIdentifier at identifier
  split at identifier
  · cases identifier
  case h_2 first rest spelled =>
    rw [spelled]
    simp only [Bool.and_eq_true, List.all_eq_true] at identifier
    exact identifier.2

/-- An escaped name can be used exactly if the word itself starts with something but a digit. -/
theorem isVariantName_escape_iff {word : String}
    (characters : ∀ character ∈ word.toList, isAsciiWordCharacter character = true) :
    IsVariantName (escape word) ↔
      ∃ first, word.toList.head? = some first ∧ first.isDigit = false := by
  have opened : ∀ reserved ∈ reservedWords,
      ∃ first, reserved.toList.head? = some first ∧ first.isDigit = false := by
    simp [reservedWords]
  have unreserved := not_isReserved_escape word
  have spelled : Spelled (fun character => isAsciiWordCharacter character = true) (escape word) :=
    spelled_escape (by decide) characters
  cases reserved : isReserved word with
  | true =>
      have marked : escape word = "_" ++ word := by
        simp [escape, reserved]
      have member : word ∈ reservedWords := by
        simpa [isReserved] using reserved
      refine iff_of_true ⟨?_, ?_, spelled, unreserved⟩ (opened word member)
      · simp [marked, ← String.toList_inj]
      · simp [marked]
  | false =>
      have kept : escape word = word := by
        simp [escape, reserved]
      rw [kept]
      constructor
      · intro usable
        cases start : word.toList with
        | nil => exact absurd (String.toList_eq_nil_iff.mp start) usable.inhabited
        | cons first rest => exact ⟨first, rfl, usable.opening first (by simp [start])⟩
      · rintro ⟨first, start, other⟩
        refine ⟨?_, ?_, characters, reserved⟩
        · rintro rfl
          cases start
        · simp [start, other]

/-- The name of an item can be used exactly if its first character that is no separator is a letter.
-/
theorem isVariantName_iff_openedByLetter {declared : String}
    (ascii : isAsciiIdentifier declared = true) :
    IsVariantName (escape (camelCase declared)) ↔ OpenedByLetter declared := by
  have characters := mem_of_isAsciiIdentifier ascii
  have letters (character : Char) (letter : character.isAlpha = true) :
      isAsciiWordCharacter character = true := by
    simp [isAsciiWordCharacter, Char.isAlphanum, letter]
  have start : (camelCase declared).toList.head? =
      (declared.toList.find? (· != '_')).map Char.toUpper := by
    rw [camelCase, String.toList_ofList, head?_camelFrom]
  rw [isVariantName_escape_iff (spelled_camelCase letters characters), start]
  constructor
  · rintro ⟨_, opened, other⟩
    obtain ⟨first, found, rfl⟩ := Option.map_eq_some_iff.mp opened
    rw [isDigit_toUpper] at other
    have allowed := characters first (List.mem_of_find?_eq_some found)
    have notSeparator : first ≠ '_' := by
      simpa using List.find?_some found
    refine ⟨first, found, ?_⟩
    simpa [isAsciiWordCharacter, Char.isAlphanum, other, notSeparator] using allowed
  · rintro ⟨letter, found, isLetter⟩
    refine ⟨letter.toUpper, by rw [found]; rfl, ?_⟩
    rw [isDigit_toUpper, not_isDigit_of_isAlpha isLetter]

end Identifier

namespace Binding.Enumeration

/-- The name of an item is never a reserved word, and generated code can use it exactly if the
first character of the declared name that is no separator is a letter. -/
theorem item_name_usable_iff_opened_by_letter {declared : Model.Enumeration} {bound : Enumeration}
    (built : ofModel declared = .ok bound)
    (ascii : ∀ item ∈ declared.items, Identifier.isAsciiIdentifier item.name = true) :
    List.Forall₂ (fun item boundItem =>
        Identifier.isReserved boundItem.name = false ∧
        (Identifier.IsVariantName boundItem.name ↔ Identifier.OpenedByLetter item.name))
      declared.items bound.items := by
  refine forall₂_of_mem (binds_of_ofModel built).items fun item boundItem member binds => ?_
  rw [binds.name]
  exact ⟨Identifier.not_isReserved_escape _,
    Identifier.isVariantName_iff_openedByLetter (ascii item member)⟩

/-- An enumeration with a reserved word and a name that starts with a separator. -/
def toneEnumeration : Model.Enumeration := ⟨"Tone", [⟨"SELF", 0⟩, ⟨"_dark_1", 1⟩]⟩

/-- Both names of the sample can be used. -/
theorem item_name_usable_iff_opened_by_letter_toneEnumeration :
    ∃ bound, ofModel toneEnumeration = .ok bound ∧
      bound.items.map EnumerationItem.name = ["_Self", "Dark1"] ∧
      ∀ item ∈ bound.items, Identifier.IsVariantName item.name := by
  have built : ofModel toneEnumeration = .ok _ := rfl
  have each := item_name_usable_iff_opened_by_letter built (by decide)
  refine ⟨_, built, by decide, fun item member => ?_⟩
  obtain ⟨declared, listed, _, usable⟩ := exists_mem_of_forall₂ each member
  refine usable.mpr ?_
  simp only [toneEnumeration, List.mem_cons, List.not_mem_nil, or_false] at listed
  rcases listed with rfl | rfl
  · exact ⟨'S', by decide, by decide⟩
  · exact ⟨'d', by decide, by decide⟩

/-- An enumeration with a name that starts with a digit once its separator is gone. -/
def levelEnumeration : Model.Enumeration := ⟨"Level", [⟨"LOW", 0⟩, ⟨"_1", 1⟩]⟩

/-- An identifier whose name cannot be used. -/
theorem item_name_unusable_levelEnumeration :
    ∃ bound, ofModel levelEnumeration = .ok bound ∧
      (∀ item ∈ levelEnumeration.items, Identifier.isAsciiIdentifier item.name = true) ∧
      ∃ item ∈ bound.items, item.declaredName = "_1" ∧ item.name = "1" ∧
        ¬ Identifier.IsVariantName item.name := by
  refine ⟨_, rfl, by decide, ⟨"_1", "1", 1⟩, by decide, rfl, rfl, ?_⟩
  intro usable
  have other := usable.opening '1' (by decide)
  revert other
  decide

end Binding.Enumeration

end IdlBindings
