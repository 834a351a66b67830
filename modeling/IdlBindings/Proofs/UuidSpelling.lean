import IdlBindings.Proofs.UuidText

/-
This file says which texts spell an identifier, and for all others which fault is found.
-/

namespace IdlBindings

namespace Uuid

/-- What is left of a text without the blanks around it and then without braces. -/
def IsStripped (text core : List Char) : Prop :=
  ∃ middle, Text.IsCore text middle ∧ IsUnbraced middle core

/-- A text is stripped of blanks and then of braces. -/
theorem isStripped_iff {text core : List Char} :
    IsStripped text core ↔ core = withoutBraces (Text.trim text) := by
  simp only [IsStripped, ← Text.trim_eq_iff, ← withoutBraces_eq_iff]
  simp [eq_comm]

/-- The text is the written form of the identifier with or without its dashes, up to the case of
its letters. -/
def Spells (uuid : Uuid) (core : List Char) : Prop :=
  Text.EqualUpToCase core uuid.text.toList ∨
    Text.EqualUpToCase core (uuid.text.toList.filter (· != '-'))

/-- Digits have no capitals. -/
theorem map_toLower_digits (uuid : Uuid) : uuid.digits.map Char.toLower = uuid.digits :=
  uuid.hasDigits_digits

/-- The digits are left when the dashes are taken out. -/
theorem filter_grouped_digits (uuid : Uuid) :
    (grouped '-' uuid.digits).filter (· != '-') = uuid.digits := by
  rw [filter_grouped (by decide), List.filter_eq_self]
  intro character member
  refine bne_iff_ne.mpr ?_
  rintro rfl
  exact uuid.hasDigits_digits.dashless member

/-- A core has the digits exactly if it is equal to them up to case. -/
theorem equalUpToCase_digits_iff {uuid : Uuid} {core : List Char} :
    Text.EqualUpToCase core (uuid.text.toList.filter (· != '-')) ↔ uuid.HasDigits core := by
  rw [toList_text, filter_grouped_digits, Text.EqualUpToCase, map_toLower_digits, HasDigits]

/-- Groups are the same in capitals. -/
theorem isGrouped_of_map_toLower {core : List Char}
    (isGrouped : IsGrouped '-' (core.map Char.toLower)) : IsGrouped '-' core where
  length := by simpa using isGrouped.length
  separators := by
    intro position member
    have found := isGrouped.separators position member
    rw [List.getElem?_map, Option.map_eq_some_iff] at found
    obtain ⟨character, found, lower⟩ := found
    rw [found, Text.eq_dash_of_toLower lower]

/-- A core equals the text up to case exactly if it has the digits in groups. -/
theorem equalUpToCase_text_iff {uuid : Uuid} {core : List Char} :
    Text.EqualUpToCase core uuid.text.toList ↔
      ∃ characters, uuid.HasDigits characters ∧ core = grouped '-' characters := by
  have lower : uuid.text.toList.map Char.toLower = grouped '-' uuid.digits := by
    rw [toList_text, map_grouped, map_toLower_digits]
    rfl
  rw [Text.EqualUpToCase, lower]
  constructor
  · intro same
    have isGrouped : IsGrouped '-' (core.map Char.toLower) :=
      same ▸ isGrouped_grouped '-' uuid.length_digits
    obtain ⟨characters, complete, rfl⟩ := exists_of_isGrouped (isGrouped_of_map_toLower isGrouped)
    have length : uuid.digits.length = (characters.map Char.toLower).length := by
      rw [List.length_map, complete, length_digits]
    rw [map_grouped] at same
    have kept : (grouped '-' (characters.map Char.toLower)).filter (· != '-') = uuid.digits :=
      (congrArg _ same).trans uuid.filter_grouped_digits
    exact ⟨characters, eq_of_filter_grouped kept length, rfl⟩
  · rintro ⟨characters, isDigits, rfl⟩
    rw [map_grouped, isDigits]
    rfl

/-- The spellings of a UUID are what holds it. -/
theorem spells_iff {uuid : Uuid} {core : List Char} : uuid.Spells core ↔ uuid.Holds core := by
  rw [Spells, equalUpToCase_digits_iff, equalUpToCase_text_iff, Holds]
  constructor
  · rintro (⟨characters, isDigits, same⟩ | isDigits)
    · exact ⟨characters, isDigits, .inr same⟩
    · exact ⟨core, isDigits, .inl rfl⟩
  · rintro ⟨characters, isDigits, rfl | same⟩
    · exact .inr isDigits
    · exact .inl ⟨characters, isDigits, same⟩

end Uuid

/-- The fault is one of the digits, not of the dashes between them. -/
def UuidFault.IsOfDigits : UuidFault → Prop
  | layout _ => False
  | oddDigitCount | wrongDigitCount | badDigit _ _ => True

namespace Uuid

/-- What is wrong with a digit is a fault of digits. -/
theorem isOfDigits_of_digitAt {position : Nat} {byte : UInt8} {fault : UuidFault}
    (refused : digitAt position byte = .error fault) : fault.IsOfDigits := by
  unfold digitAt at refused
  split at refused
  · cases refused
  · cases refused
    trivial

/-- What is wrong with pairs is a fault of digits. -/
theorem isOfDigits_of_readPairs {position : Nat} {digits : List UInt8} {fault : UuidFault}
    (refused : readPairs position digits = .error fault) : fault.IsOfDigits := by
  fun_induction readPairs position digits with
  | case1 position high low rest ih =>
      rcases bind_eq_error refused with ofHigh | ⟨upper, _, refused⟩
      · exact isOfDigits_of_digitAt ofHigh
      rcases bind_eq_error refused with ofLow | ⟨lower, _, refused⟩
      · exact isOfDigits_of_digitAt ofLow
      rcases bind_eq_error refused with ofRest | ⟨bytes, _, refused⟩
      · exact ih ofRest
      · cases refused
  | case2 => cases refused

/-- What is wrong with the digits is a fault of digits. -/
theorem isOfDigits_of_ofDigits {digits : List UInt8} {fault : UuidFault}
    (refused : ofDigits digits = .error fault) : fault.IsOfDigits := by
  unfold ofDigits at refused
  split at refused
  · cases refused
    trivial
  split at refused
  · cases refused
    trivial
  rcases bind_eq_error refused with ofPairs | ⟨bytes, _, refused⟩
  · exact isOfDigits_of_readPairs ofPairs
  split at refused
  · cases refused
  · cases refused
    trivial

/-- Every identifier is read from its own text. Any other text has one core, without the blanks
around it and without braces. It is read as the identifier that its core spells, and as no other.
If there is none, the fault is the layout of the whole text where the dashes of the core are
misplaced, and one of the digits where they are not. -/
theorem parse_accepts_exactly_spellings (source : String) :
    (∀ uuid : Uuid, parse uuid.text = .ok uuid) ∧
      ∃ core, (∀ other, IsStripped source.toList other ↔ other = core) ∧
        (∀ uuid, parse source = .ok uuid ↔ uuid.Spells core) ∧
        ∀ fault, parse source = .error fault →
          fault = .layout source ∧ IsMisgrouped core ∨ fault.IsOfDigits ∧ ¬ IsMisgrouped core := by
  refine ⟨parse_text, withoutBraces (Text.trim source.toList), fun _ => isStripped_iff,
    fun uuid => parse_eq_ok_iff.trans spells_iff.symm, ?_⟩
  intro fault refused
  by_cases misgrouped : IsMisgrouped (withoutBraces (Text.trim source.toList))
  · rw [parse_of_isMisgrouped misgrouped] at refused
    cases refused
    exact .inl ⟨rfl, misgrouped⟩
  · rw [parse_of_not_isMisgrouped misgrouped] at refused
    exact .inr ⟨isOfDigits_of_ofDigits refused, misgrouped⟩

/-- A text with a dash that stands one digit too early. -/
def shiftedText : String := "1234567-89abc-def0-1122-334455667788"

/-- A text with its dashes in the wrong places, which spells nothing. -/
theorem parse_accepts_exactly_spellings_shiftedText :
    parse shiftedText = .error (.layout shiftedText) ∧
      ∃ core, IsStripped shiftedText.toList core ∧ IsMisgrouped core ∧
        ∀ uuid : Uuid, ¬ uuid.Spells core := by
  have refused : parse shiftedText = .error (.layout shiftedText) := by decide +kernel
  obtain ⟨_, core, stripped, accepted, faults⟩ := parse_accepts_exactly_spellings shiftedText
  refine ⟨refused, core, (stripped core).mpr rfl, ?_, fun uuid spelled => ?_⟩
  · rcases faults _ refused with ⟨_, misgrouped⟩ | ⟨ofDigits, _⟩
    · exact misgrouped
    · cases ofDigits
  · have read := (accepted uuid).mpr spelled
    rw [refused] at read
    cases read

end Uuid

end IdlBindings
