import IdlBindings.Text.Blank
import IdlBindings.Text.Bytes
import IdlBindings.Text.Numeral
import Mathlib.Data.List.Basic

/-
This file says what the bytes of a text show of its characters, which characters are digits, and
what is left of a text without the blanks around it.
-/

namespace IdlBindings.Text

/-- A text is found again from its bytes. -/
theorem utf8_injective : Function.Injective utf8 := by
  intro text other same
  have encoded : text.utf8Encode = other.utf8Encode := congrArg List.toByteArray same
  have equal : String.ofList text = String.ofList other := String.toByteArray_inj.mp encoded
  rw [← String.toList_ofList (l := text), equal, String.toList_ofList]

/-- The one byte of a character that needs no more. -/
def asciiByte (character : Char) : UInt8 := UInt8.ofNat character.toNat

/-- The character that a byte stands for on its own. -/
def byteCharacter (byte : UInt8) : Char := Char.ofNat byte.toNat

/-- A byte is read back from its character. -/
theorem asciiByte_byteCharacter (byte : UInt8) : asciiByte (byteCharacter byte) = byte := by
  have code : (Char.ofNat byte.toNat).toNat = byte.toNat := by
    rw [Char.ofNat, dif_pos (.inl (Nat.lt_trans byte.toNat_lt (by decide)))]
    rfl
  rw [asciiByte, byteCharacter, code, UInt8.ofNat_toNat]

/-- A character of ASCII is read back from its byte. -/
theorem byteCharacter_asciiByte {character : Char} (ascii : character.toNat < 128) :
    byteCharacter (asciiByte character) = character := by
  have code : (asciiByte character).toNat = character.toNat :=
    UInt8.toNat_ofNat_of_lt' (Nat.lt_trans ascii (by decide))
  rw [byteCharacter, code, Char.ofNat_toNat]

/-- A character of ASCII takes one byte. -/
theorem utf8EncodeChar_of_ascii {character : Char} (ascii : character.toNat < 128) :
    String.utf8EncodeChar character = [asciiByte character] :=
  if_pos (Nat.le_of_lt_succ ascii)

/-- A character of several bytes has no byte that stands for another character. -/
theorem le_of_mem_utf8EncodeChar {character : Char} (long : 128 ≤ character.toNat) :
    ∀ byte ∈ String.utf8EncodeChar character, 128 ≤ byte.toNat := by
  have several : ¬ character.val.toNat ≤ 127 := Nat.not_le_of_lt long
  dsimp only [String.utf8EncodeChar]
  rw [if_neg several]
  split
  case' isFalse => split
  all_goals
    simp only [List.forall_mem_cons, UInt8.toNat_ofNat']
    simp
    omega

/-- A byte of ASCII stands for its character only. -/
theorem mem_utf8_iff {text : List Char} {character : Char} (ascii : character.toNat < 128) :
    asciiByte character ∈ utf8 text ↔ character ∈ text := by
  have code : (asciiByte character).toNat = character.toNat :=
    UInt8.toNat_ofNat_of_lt' (Nat.lt_trans ascii (by decide))
  constructor
  · intro member
    obtain ⟨other, listed, ofOther⟩ := List.mem_flatMap.mp member
    by_cases long : 128 ≤ other.toNat
    · have large := le_of_mem_utf8EncodeChar long _ ofOther
      omega
    · have otherAscii : other.toNat < 128 := Nat.lt_of_not_le long
      rw [utf8EncodeChar_of_ascii otherAscii, List.mem_singleton] at ofOther
      have equal : character = other := by
        rw [← byteCharacter_asciiByte ascii, ofOther, byteCharacter_asciiByte otherAscii]
      exact equal ▸ listed
  · intro listed
    refine List.mem_flatMap.mpr ⟨character, listed, ?_⟩
    rw [utf8EncodeChar_of_ascii ascii]
    exact List.mem_singleton_self _

/-- A text in ASCII has one byte for each character. -/
theorem utf8_of_ascii {text : List Char} (ascii : ∀ character ∈ text, character.toNat < 128) :
    utf8 text = text.map asciiByte := by
  rw [utf8, List.map_eq_flatMap]
  exact List.flatMap_congr fun character member => utf8EncodeChar_of_ascii (ascii character member)

/-- What holds of all characters of one byte can be checked code by code. -/
@[elab_as_elim]
theorem ascii_cases {motive : Char → Prop} (character : Char) (ascii : character.toNat < 128)
    (each : ∀ code < 128, motive (Char.ofNat code)) : motive character := by
  have own := each character.toNat ascii
  rwa [Char.ofNat_toNat] at own

/-- Only characters of ASCII have a small form. -/
theorem toLower_of_not_ascii {character : Char} (large : 128 ≤ character.toNat) :
    character.toLower = character := by
  have outside : ¬ (character.val ≥ 'A'.val ∧ character.val ≤ 'Z'.val) := by
    rintro ⟨_, below⟩
    have bound : character.toNat ≤ 90 := UInt32.le_iff_toNat_le.mp below
    omega
  exact dif_neg outside

/-- Two texts that differ in nothing but the case of letters. -/
def EqualUpToCase (text other : List Char) : Prop :=
  text.map Char.toLower = other.map Char.toLower

theorem eq_dash_of_toLower {character : Char} (lower : character.toLower = '-') :
    character = '-' := by
  by_cases ascii : character.toNat < 128
  · revert lower
    exact ascii_cases character ascii (by decide)
  · rwa [toLower_of_not_ascii (Nat.le_of_not_lt ascii)] at lower

/-- Digits are in ASCII, and less than sixteen. -/
theorem bounds_of_digitValue? {character : Char} {value : Nat}
    (read : digitValue? character = some value) : value < 16 ∧ character.toNat < 128 := by
  simp only [digitValue?, Bool.and_eq_true, decide_eq_true_eq] at read
  repeat' split at read
  all_goals
    cases read
  all_goals omega

/-- A character is a digit exactly if its lower case is that digit. -/
theorem digitValue?_eq_some_iff {character : Char} {value : Nat} :
    digitValue? character = some value ↔
      value < 16 ∧ character.toLower = digitCharacter value := by
  have own (ascii : character.toNat < 128) : ∀ value < 16,
      digitValue? character = some value ↔ character.toLower = digitCharacter value :=
    ascii_cases character ascii (by decide +kernel)
  constructor
  · intro read
    obtain ⟨small, ascii⟩ := bounds_of_digitValue? read
    exact ⟨small, (own ascii value small).mp read⟩
  · rintro ⟨small, lower⟩
    refine (own ?_ value small).mpr lower
    by_contra large
    rw [toLower_of_not_ascii (Nat.le_of_not_lt large)] at lower
    have digits : ∀ value < 16, (digitCharacter value).toNat < 128 := by decide
    exact large (lower ▸ digits value small)

/-- The core of a text is the text without the blanks before and after it. -/
structure IsCore (text core : List Char) : Prop where
  around : ∃ before after, text = before ++ (core ++ after) ∧
    (∀ character ∈ before, isBlank character = true) ∧
    ∀ character ∈ after, isBlank character = true
  first : ∀ character ∈ core.head?, isBlank character = false
  last : ∀ character ∈ core.getLast?, isBlank character = false

/-- Blanks in front are left out. -/
theorem dropWhile_blank {before core : List Char}
    (blank : ∀ character ∈ before, isBlank character = true)
    (first : ∀ character ∈ core.head?, isBlank character = false) :
    (before ++ core).dropWhile isBlank = core := by
  rw [List.dropWhile_append_of_pos blank]
  cases core with
  | nil => rfl
  | cons character rest => exact List.dropWhile_cons_of_neg (by simp [first character rfl])

/-- What is left does not start with a blank. -/
theorem isBlank_of_mem_head? (text : List Char) {character : Char}
    (first : character ∈ (text.dropWhile isBlank).head?) : isBlank character = false := by
  have stopped := List.head?_dropWhile_not isBlank text
  rwa [Option.mem_def.mp first] at stopped

/-- The core of a text is left when it is trimmed. -/
theorem isCore_trim (text : List Char) : IsCore text (trim text) := by
  have split : trim text ++ ((text.dropWhile isBlank).reverse.takeWhile isBlank).reverse =
      text.dropWhile isBlank := by
    rw [trim, ← List.reverse_append, List.takeWhile_append_dropWhile, List.reverse_reverse]
  have blank (part : List Char) : ∀ character ∈ part.takeWhile isBlank, isBlank character = true :=
    List.all_eq_true.mp List.all_takeWhile
  constructor
  case around =>
    refine ⟨text.takeWhile isBlank,
      ((text.dropWhile isBlank).reverse.takeWhile isBlank).reverse, ?_, blank text, ?_⟩
    · rw [split, List.takeWhile_append_dropWhile]
    · intro character member
      exact blank _ character (List.mem_reverse.mp member)
  case first =>
    intro character first
    refine isBlank_of_mem_head? text ?_
    rw [← split, List.head?_append, Option.mem_def.mp first]
    rfl
  case last =>
    intro character last
    rw [trim, List.getLast?_reverse] at last
    exact isBlank_of_mem_head? _ last

/-- Trimming gives the core and nothing else. -/
theorem trim_eq_iff {text core : List Char} : trim text = core ↔ IsCore text core := by
  constructor
  · rintro rfl
    exact isCore_trim text
  · rintro ⟨⟨before, after, rfl, blankBefore, blankAfter⟩, first, last⟩
    have backwards : ∀ character ∈ after.reverse, isBlank character = true :=
      fun character member => blankAfter character (List.mem_reverse.mp member)
    cases core with
    | nil =>
        have blank := List.forall_mem_append.mpr ⟨blankBefore, blankAfter⟩
        have dropped : ((before ++ after) ++ []).dropWhile isBlank = [] :=
          dropWhile_blank blank (by simp)
        rw [List.append_nil] at dropped
        rw [trim, List.nil_append, dropped]
        rfl
    | cons character rest =>
        rw [trim, dropWhile_blank blankBefore (by simpa using first), List.reverse_append,
          dropWhile_blank backwards (by rwa [List.head?_reverse]), List.reverse_reverse]

/-- A text without blanks stays as it is. -/
theorem trim_of_visible {text : List Char}
    (visible : ∀ character ∈ text, isBlank character = false) : trim text = text := by
  refine trim_eq_iff.mpr ⟨⟨[], [], by simp, by simp, by simp⟩, ?_, ?_⟩
  · exact fun character first => visible character (List.mem_of_mem_head? first)
  · exact fun character last => visible character (List.mem_of_mem_getLast? last)

end IdlBindings.Text
