import IdlBindings.Proofs.Refusal
import IdlBindings.Proofs.TextBytes
import IdlBindings.Uuid

/-
This file tells from the digits of a text which identifier it is read as, and reads identifiers
back from the texts that they are written as.
-/

namespace IdlBindings.Uuid

/-- A separator between groups of eight, four, four, four and all further entries. -/
def grouped {α : Type} (separator : α) (entries : List α) : List α :=
  entries.take 8 ++ [separator] ++ (entries.drop 8).take 4 ++ [separator] ++
    (entries.drop 12).take 4 ++ [separator] ++ (entries.drop 16).take 4 ++ [separator] ++
    entries.drop 20

/-- The text of a UUID is its digits in groups. -/
theorem toList_text (uuid : Uuid) : uuid.text.toList = grouped '-' uuid.digits :=
  String.toList_ofList

/-- Groups can be converted entry by entry. -/
theorem map_grouped {α β : Type} (convert : α → β) (separator : α) (entries : List α) :
    (grouped separator entries).map convert =
      grouped (convert separator) (entries.map convert) := by
  simp [grouped, List.map_take, List.map_drop]

/-- In groups there is nothing but separators and entries. -/
theorem mem_of_mem_grouped {α : Type} {separator entry : α} {entries : List α}
    (member : entry ∈ grouped separator entries) : entry = separator ∨ entry ∈ entries := by
  simp only [grouped, List.mem_append, List.mem_singleton] at member
  rcases member with
    (((((((first | dash) | second) | dash) | third) | dash) | fourth) | dash) | last
  · exact .inr (List.mem_of_mem_take first)
  · exact .inl dash
  · exact .inr (List.mem_of_mem_drop (List.mem_of_mem_take second))
  · exact .inl dash
  · exact .inr (List.mem_of_mem_drop (List.mem_of_mem_take third))
  · exact .inl dash
  · exact .inr (List.mem_of_mem_drop (List.mem_of_mem_take fourth))
  · exact .inl dash
  · exact .inr (List.mem_of_mem_drop last)

/-- What drops the separators keeps of a text in groups what it keeps of the entries. -/
theorem filter_grouped {α : Type} {keep : α → Bool} {separator : α}
    (dropped : keep separator = false) (entries : List α) :
    (grouped separator entries).filter keep = entries.filter keep := by
  have tail {start next : Nat} (follows : start + 4 = next) :
      ((entries.drop start).take 4).filter keep ++ (entries.drop next).filter keep =
        (entries.drop start).filter keep := by
    rw [← List.filter_append, ← follows, ← List.drop_drop, List.take_append_drop]
  have none : [separator].filter keep = [] := by simp [dropped]
  simp only [grouped, List.filter_append, none, List.nil_append, List.append_assoc]
  rw [tail rfl, tail rfl, tail rfl, ← List.filter_append, List.take_append_drop]

/-- The separators of thirty-two entries stand at four fixed positions. -/
structure IsGrouped {α : Type} (separator : α) (entries : List α) : Prop where
  length : entries.length = 36
  separators : ∀ position ∈ [8, 13, 18, 23], entries[position]? = some separator

/-- Thirty-two entries can be grouped. -/
theorem isGrouped_grouped {α : Type} (separator : α) {entries : List α}
    (complete : entries.length = 32) : IsGrouped separator (grouped separator entries) := by
  constructor
  case length => simp [grouped, complete]
  case separators => simp [grouped, List.getElem?_append, complete]

/-- The five groups with separators between them. -/
theorem grouped_append {α : Type} (separator : α) {first second third fourth : List α}
    (eight : first.length = 8) (four : second.length = 4) (fourThird : third.length = 4)
    (fourFourth : fourth.length = 4) (last : List α) :
    grouped separator (first ++ (second ++ (third ++ (fourth ++ last)))) =
      first ++ (separator :: (second ++ (separator :: (third ++ (separator ::
        (fourth ++ (separator :: last))))))) := by
  simp [grouped, List.drop_append, List.drop_of_length_le, eight, four, fourThird, fourFourth]

/-- What is grouped is thirty-two entries in groups. -/
theorem exists_of_isGrouped {α : Type} {separator : α} {entries : List α}
    (isGrouped : IsGrouped separator entries) :
    ∃ rest, rest.length = 32 ∧ entries = grouped separator rest := by
  have length := isGrouped.length
  have cut (start count : Nat) (found : entries[start + count]? = some separator) :
      entries.drop start =
        (entries.drop start).take count ++ separator :: entries.drop (start + count + 1) := by
    obtain ⟨within, same⟩ := List.getElem?_eq_some_iff.mp found
    rw [← same, ← List.drop_eq_getElem_cons, ← List.drop_drop, List.take_append_drop]
  refine ⟨entries.take 8 ++ ((entries.drop 9).take 4 ++ ((entries.drop 14).take 4 ++
    ((entries.drop 19).take 4 ++ entries.drop 24))), ?_, ?_⟩
  · simp [length]
  · rw [grouped_append separator (by simp [length]) (by simp [length]) (by simp [length])
      (by simp [length])]
    have separators := isGrouped.separators
    have first := cut 0 8 (separators 8 (by simp))
    rw [List.drop_zero] at first
    rw [← cut 19 4 (separators 23 (by simp)), ← cut 14 4 (separators 18 (by simp)),
      ← cut 9 4 (separators 13 (by simp)), ← first]

/-- Entries none of which is lost without the separators are all that stands in the groups. -/
theorem eq_of_filter_grouped {α : Type} [DecidableEq α] {separator : α} {entries kept : List α}
    (same : (grouped separator entries).filter (· != separator) = kept)
    (length : kept.length = entries.length) : entries = kept := by
  rw [filter_grouped (by simp)] at same
  have all : entries.filter (· != separator) = entries :=
    List.filter_eq_self.mpr (List.length_filter_eq_length_iff.mp (by rw [same, length]))
  rw [← same, all]

/-- The test for dashes finds the groups. -/
theorem hasGroupDashes_iff {bytes : List UInt8} :
    hasGroupDashes bytes = true ↔ IsGrouped dash bytes := by
  simp only [hasGroupDashes, Bool.and_eq_true, beq_iff_eq, List.all_eq_true]
  exact ⟨fun ⟨length, separators⟩ => ⟨length, separators⟩,
    fun ⟨length, separators⟩ => ⟨length, separators⟩⟩

/-- A digit is read exactly if it has the character of its value, up to case. -/
theorem digitAt_eq_ok_iff {position : Nat} {byte : UInt8} {value : Nat} :
    digitAt position byte = .ok value ↔
      value < 16 ∧ (Text.byteCharacter byte).toLower = Text.digitCharacter value := by
  rw [← Text.digitValue?_eq_some_iff, digitAt, Text.byteCharacter]
  split <;> simp_all

/-- Two digits at a time make a byte. -/
theorem readPairs_eq_ok_iff {position : Nat} {digits bytes : List UInt8}
    (even : digits.length % 2 = 0) :
    readPairs position digits = .ok bytes ↔
      (digits.map Text.byteCharacter).map Char.toLower = bytes.flatMap Text.hexByte := by
  fun_induction readPairs position digits generalizing bytes with
  | case1 position high low rest ih =>
      have evenRest : rest.length % 2 = 0 := by
        simp only [List.length_cons] at even
        omega
      simp only [bind_eq_ok_iff, digitAt_eq_ok_iff, ih evenRest]
      constructor
      · rintro ⟨upper, ⟨upperSmall, ofUpper⟩, lower, ⟨lowerSmall, ofLower⟩, tail, same, made⟩
        cases made
        have value : (UInt8.ofNat (16 * upper + lower)).toNat = 16 * upper + lower :=
          UInt8.toNat_ofNat_of_lt' (by change _ < 256; omega)
        have high : (16 * upper + lower) / 16 = upper := by omega
        have low : (16 * upper + lower) % 16 = lower := by omega
        rw [List.flatMap_cons, Text.hexByte, value, high, low, ← same, ← ofUpper, ← ofLower]
        rfl
      · intro same
        cases bytes with
        | nil => cases same
        | cons byte tail =>
            have bound : byte.toNat < 256 := byte.toNat_lt
            obtain ⟨ofUpper, later⟩ := List.cons.inj same
            obtain ⟨ofLower, same⟩ := List.cons.inj later
            refine ⟨byte.toNat / 16, ⟨by omega, ofUpper⟩, byte.toNat % 16, ⟨by omega, ofLower⟩,
              tail, same, ?_⟩
            rw [Nat.div_add_mod, UInt8.ofNat_toNat]
            rfl
  | case2 digits position short =>
      match digits with
      | [] => cases bytes <;> simp [Text.hexByte]
      | [_] => cases even
      | high :: low :: rest => exact absurd rfl (short high low rest)

theorem length_digits (uuid : Uuid) : uuid.digits.length = 32 := by
  simp [digits, List.length_flatMap, Text.hexByte, uuid.length_bytes]

/-- Digits are read exactly if they are those of the UUID, up to case. -/
theorem ofDigits_eq_ok_iff {digits : List UInt8} {uuid : Uuid} :
    ofDigits digits = .ok uuid ↔
      (digits.map Text.byteCharacter).map Char.toLower = uuid.digits := by
  by_cases complete : digits.length = 32
  · obtain ⟨bytes, length⟩ := uuid
    rw [ofDigits, complete, if_neg (by decide), if_neg (by decide), bind_eq_ok_iff]
    simp only [readPairs_eq_ok_iff (by rw [complete] : digits.length % 2 = 0)]
    constructor
    · rintro ⟨read, same, made⟩
      split at made
      case isTrue => 
        cases made
        exact same
      case isFalse => cases made
    · intro same
      exact ⟨bytes, same, dif_pos length⟩
  · have faulty : ofDigits digits ≠ .ok uuid := by
      unfold ofDigits
      split <;> simp
    have longer : (digits.map Text.byteCharacter).map Char.toLower ≠ uuid.digits := by
      intro same
      have length := congrArg List.length same
      rw [List.length_map, List.length_map, length_digits] at length
      exact complete length
    simp only [faulty, longer]

/-- A digit stands for itself in a text: it is a character of one byte, it is not blank, and it is
neither a brace nor a dash. -/
theorem plain_of_digitValue? {character : Char} {value : Nat}
    (read : Text.digitValue? character = some value) :
    character.toNat < 128 ∧ Text.isBlank character = false ∧ character ≠ '\x7b' ∧
      character ≠ '\x7d' ∧ character ≠ '-' := by
  have ascii := (Text.bounds_of_digitValue? read).2
  have own : (Text.digitValue? character).isSome = true →
      Text.isBlank character = false ∧ character ≠ '\x7b' ∧ character ≠ '\x7d' ∧
        character ≠ '-' :=
    Text.ascii_cases character ascii (by decide +kernel)
  exact ⟨ascii, own (by rw [read]; rfl)⟩

/-- The characters are the digits of the identifier, in either case. -/
def HasDigits (uuid : Uuid) (characters : List Char) : Prop :=
  characters.map Char.toLower = uuid.digits

/-- A digit of a UUID is the character of a value. -/
theorem exists_of_mem_digits {uuid : Uuid} {character : Char} (member : character ∈ uuid.digits) :
    ∃ value < 16, character = Text.digitCharacter value := by
  obtain ⟨byte, _, ofByte⟩ := List.mem_flatMap.mp member
  have bound : byte.toNat < 256 := byte.toNat_lt
  simp only [Text.hexByte, List.mem_cons, List.not_mem_nil, or_false] at ofByte
  rcases ofByte with same | same
  · exact ⟨_, by omega, same⟩
  · exact ⟨_, by omega, same⟩

/-- A UUID has its own digits. -/
theorem hasDigits_digits (uuid : Uuid) : uuid.HasDigits uuid.digits := by
  have lower : ∀ value < 16,
      (Text.digitCharacter value).toLower = Text.digitCharacter value := by decide
  have kept : ∀ character ∈ uuid.digits, character.toLower = id character := by
    intro character member
    obtain ⟨value, small, rfl⟩ := exists_of_mem_digits member
    exact lower value small
  rw [HasDigits, List.map_congr_left kept, List.map_id]

namespace HasDigits

variable {uuid : Uuid} {characters : List Char}

theorem length (isDigits : uuid.HasDigits characters) : characters.length = 32 := by
  rw [← length_digits uuid, ← isDigits, List.length_map]

/-- Each of the digits has a value. -/
theorem digit (isDigits : uuid.HasDigits characters) :
    ∀ character ∈ characters, ∃ value, Text.digitValue? character = some value := by
  intro character member
  have lower : character.toLower ∈ uuid.digits := isDigits ▸ List.mem_map_of_mem member
  obtain ⟨value, small, same⟩ := exists_of_mem_digits lower
  exact ⟨value, Text.digitValue?_eq_some_iff.mpr ⟨small, same⟩⟩

theorem dashless (isDigits : uuid.HasDigits characters) : '-' ∉ characters := by
  intro member
  obtain ⟨value, read⟩ := isDigits.digit '-' member
  exact (plain_of_digitValue? read).2.2.2.2 rfl

theorem ascii (isDigits : uuid.HasDigits characters) :
    ∀ character ∈ characters, character.toNat < 128 := by
  intro character member
  obtain ⟨value, read⟩ := isDigits.digit character member
  exact (plain_of_digitValue? read).1

/-- The digits take as many bytes. -/
theorem length_utf8 (isDigits : uuid.HasDigits characters) :
    (Text.utf8 characters).length = 32 := by
  rw [Text.utf8_of_ascii isDigits.ascii, List.length_map, isDigits.length]

end HasDigits

/-- Bytes are read exactly if they are those of digits of the UUID. -/
theorem ofDigits_eq_ok_iff_utf8 {bytes : List UInt8} {uuid : Uuid} :
    ofDigits bytes = .ok uuid ↔
      ∃ characters, uuid.HasDigits characters ∧ bytes = Text.utf8 characters := by
  rw [ofDigits_eq_ok_iff]
  constructor
  · intro isDigits
    refine ⟨bytes.map Text.byteCharacter, isDigits, ?_⟩
    have restored : Text.asciiByte ∘ Text.byteCharacter = id :=
      funext Text.asciiByte_byteCharacter
    rw [Text.utf8_of_ascii (HasDigits.ascii isDigits), List.map_map, restored, List.map_id]
  · rintro ⟨characters, isDigits, rfl⟩
    have restored : ∀ character ∈ characters,
        (Text.byteCharacter ∘ Text.asciiByte) character = id character :=
      fun character member => Text.byteCharacter_asciiByte (isDigits.ascii character member)
    have same : (characters.map Text.asciiByte).map Text.byteCharacter = characters := by
      rw [List.map_map, List.map_congr_left restored, List.map_id]
    rw [Text.utf8_of_ascii isDigits.ascii, same]
    exact isDigits

/-- Groups can be made of the characters or of their bytes. -/
theorem utf8_grouped {characters : List Char}
    (ascii : ∀ character ∈ characters, character.toNat < 128) :
    Text.utf8 (grouped '-' characters) = grouped dash (Text.utf8 characters) := by
  have asciiGrouped : ∀ character ∈ grouped '-' characters, character.toNat < 128 := by
    intro character member
    rcases mem_of_mem_grouped member with rfl | digit
    · decide
    · exact ascii character digit
  rw [Text.utf8_of_ascii asciiGrouped, map_grouped, Text.utf8_of_ascii ascii]
  rfl

theorem dash_mem_utf8_iff {text : List Char} : dash ∈ Text.utf8 text ↔ '-' ∈ text :=
  Text.mem_utf8_iff (by decide : '-'.toNat < 128)

/-- Without dashes nothing is taken out. -/
theorem filter_utf8 {text : List Char} (dashless : '-' ∉ text) :
    (Text.utf8 text).filter (· != dash) = Text.utf8 text := by
  refine List.filter_eq_self.mpr fun byte member => bne_iff_ne.mpr ?_
  rintro rfl
  exact dashless (dash_mem_utf8_iff.mp member)

/-- There are dashes, but not just where the groups meet. -/
def IsMisgrouped (core : List Char) : Prop :=
  '-' ∈ core ∧ ¬ IsGrouped dash (Text.utf8 core)

/-- A core with dashes that is not misgrouped is grouped. -/
theorem isGrouped_of_not_isMisgrouped {core : List Char} (fine : ¬ IsMisgrouped core)
    (dashed : '-' ∈ core) : IsGrouped dash (Text.utf8 core) := by
  by_contra ungrouped
  exact fine ⟨dashed, ungrouped⟩

/-- A misgrouped text is refused for its layout. -/
theorem parse_of_isMisgrouped {source : String}
    (misgrouped : IsMisgrouped (withoutBraces (Text.trim source.toList))) :
    parse source = .error (.layout source) := by
  obtain ⟨dashed, ungrouped⟩ := misgrouped
  rw [parse, if_pos (List.contains_iff_mem.mpr (dash_mem_utf8_iff.mpr dashed)),
    if_neg (hasGroupDashes_iff.not.mpr ungrouped)]

/-- Any other text is read by its digits. -/
theorem parse_of_not_isMisgrouped {source : String}
    (fine : ¬ IsMisgrouped (withoutBraces (Text.trim source.toList))) :
    parse source =
      ofDigits ((Text.utf8 (withoutBraces (Text.trim source.toList))).filter (· != dash)) := by
  generalize stripped : withoutBraces (Text.trim source.toList) = core at fine
  rw [parse, stripped]
  by_cases dashed : '-' ∈ core
  · have isGrouped := isGrouped_of_not_isMisgrouped fine dashed
    rw [if_pos (List.contains_iff_mem.mpr (dash_mem_utf8_iff.mpr dashed)),
      if_pos (hasGroupDashes_iff.mpr isGrouped)]
  · rw [filter_utf8 dashed, if_neg]
    rw [List.contains_iff_mem, dash_mem_utf8_iff]
    exact dashed

/-- The text holds the digits of the identifier, in a row or in groups. -/
def Holds (uuid : Uuid) (core : List Char) : Prop :=
  ∃ characters, uuid.HasDigits characters ∧ (core = characters ∨ core = grouped '-' characters)

/-- What holds a UUID is not misgrouped. -/
theorem Holds.not_isMisgrouped {uuid : Uuid} {core : List Char} (holds : uuid.Holds core) :
    ¬ IsMisgrouped core := by
  rintro ⟨dashed, ungrouped⟩
  obtain ⟨characters, isDigits, rfl | rfl⟩ := holds
  · exact isDigits.dashless dashed
  · rw [utf8_grouped isDigits.ascii] at ungrouped
    exact ungrouped (isGrouped_grouped dash isDigits.length_utf8)

/-- A core that is not misgrouped is read exactly if it holds the UUID. -/
theorem ofDigits_filter_eq_ok_iff {uuid : Uuid} {core : List Char} (fine : ¬ IsMisgrouped core) :
    ofDigits ((Text.utf8 core).filter (· != dash)) = .ok uuid ↔ uuid.Holds core := by
  rw [ofDigits_eq_ok_iff_utf8]
  constructor
  · rintro ⟨characters, isDigits, same⟩
    by_cases dashed : '-' ∈ core
    · obtain ⟨rest, complete, ofGroups⟩ :=
        exists_of_isGrouped (isGrouped_of_not_isMisgrouped fine dashed)
      rw [ofGroups] at same
      have all : rest = Text.utf8 characters :=
        eq_of_filter_grouped same (by rw [complete, isDigits.length_utf8])
      refine ⟨characters, isDigits, .inr (Text.utf8_injective ?_)⟩
      rw [ofGroups, all, utf8_grouped isDigits.ascii]
    · rw [filter_utf8 dashed] at same
      exact ⟨characters, isDigits, .inl (Text.utf8_injective same)⟩
  · rintro ⟨characters, isDigits, rfl | rfl⟩
    · exact ⟨core, isDigits, filter_utf8 isDigits.dashless⟩
    · refine ⟨characters, isDigits, ?_⟩
      rw [utf8_grouped isDigits.ascii, filter_grouped (by decide), filter_utf8 isDigits.dashless]

/-- A text without blanks and braces around it is read as the identifier whose digits it holds. -/
theorem parse_eq_ok_iff {source : String} {uuid : Uuid} :
    parse source = .ok uuid ↔ uuid.Holds (withoutBraces (Text.trim source.toList)) := by
  by_cases misgrouped : IsMisgrouped (withoutBraces (Text.trim source.toList))
  · rw [parse_of_isMisgrouped misgrouped]
    constructor
    · intro read
      cases read
    · intro holds
      exact absurd misgrouped holds.not_isMisgrouped
  · rw [parse_of_not_isMisgrouped misgrouped]
    exact ofDigits_filter_eq_ok_iff misgrouped

/-- The core of a text is the text without one pair of braces around it, if both are there. -/
def IsUnbraced (text core : List Char) : Prop :=
  text = '\x7b' :: (core ++ ['\x7d']) ∨
    text = core ∧ ∀ inner, text ≠ '\x7b' :: (inner ++ ['\x7d'])

/-- Braces are taken away only in pairs. -/
theorem withoutBraces_eq_iff {text core : List Char} :
    withoutBraces text = core ↔ IsUnbraced text core := by
  have braced (inner : List Char) : withoutBraces ('\x7b' :: (inner ++ ['\x7d'])) = inner := by
    simp [withoutBraces]
  by_cases both : ∃ inner, text = '\x7b' :: (inner ++ ['\x7d'])
  · obtain ⟨inner, rfl⟩ := both
    simp [IsUnbraced, braced]
  · have bare : withoutBraces text = text := by
      unfold withoutBraces
      split
      case h_1 inner =>
        refine if_neg fun closed => both ⟨inner.dropLast, ?_⟩
        rw [List.dropLast_append_getLast? _ (beq_iff_eq.mp closed)]
      case h_2 => rfl
    simp only [not_exists] at both
    simp [IsUnbraced, bare, both]

/-- An identifier is what its text reads as. -/
theorem parse_text (uuid : Uuid) : parse uuid.text = .ok uuid := by
  have isDigits := uuid.hasDigits_digits
  have plain : ∀ character ∈ grouped '-' uuid.digits,
      Text.isBlank character = false ∧ character ≠ '\x7b' := by
    intro character member
    rcases mem_of_mem_grouped member with rfl | digit
    · decide
    · obtain ⟨value, read⟩ := isDigits.digit character digit
      obtain ⟨_, visible, bare, _⟩ := plain_of_digitValue? read
      exact ⟨visible, bare⟩
  have stripped : withoutBraces (Text.trim uuid.text.toList) = grouped '-' uuid.digits := by
    rw [toList_text, Text.trim_of_visible fun character member => (plain character member).1]
    refine withoutBraces_eq_iff.mpr (.inr ⟨rfl, fun inner braced => ?_⟩)
    exact (plain '\x7b' (braced ▸ List.mem_cons_self)).2 rfl
  exact parse_eq_ok_iff.mpr ⟨uuid.digits, isDigits, .inr stripped⟩

end IdlBindings.Uuid
