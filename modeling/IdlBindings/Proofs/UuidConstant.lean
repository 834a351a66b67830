import IdlBindings.Proofs.ItemNames
import IdlBindings.Proofs.LineListing
import IdlBindings.Proofs.UuidSpelling

/-
This file compares the two written forms of an identifier, the text in a document and the
expression in a generated source, and reads the constants in the head of a source.
-/

namespace IdlBindings

namespace Text

/-- A hexadecimal digit in either case. -/
def isHexDigit (character : Char) : Bool :=
  character.isDigit || ('a' ≤ character && character ≤ 'f') ||
    ('A' ≤ character && character ≤ 'F')

/-- The hexadecimal digits are the characters with a value. -/
theorem isHexDigit_eq (character : Char) :
    isHexDigit character = (digitValue? character).isSome := by
  by_cases ascii : character.toNat < 128
  · exact ascii_cases character ascii (by decide +kernel)
  · have above (bound : Char) (small : bound.toNat < 128) : ¬ character ≤ bound := by
      intro below
      have codes : character.toNat ≤ bound.toNat := UInt32.le_iff_toNat_le.mp below
      omega
    have none : (digitValue? character).isSome = false := by
      by_contra some
      obtain ⟨value, read⟩ := Option.isSome_iff_exists.mp (Bool.of_not_eq_false some)
      exact ascii (bounds_of_digitValue? read).2
    have notDigit : character.isDigit = false := by
      by_contra digit
      have codes := Char.isDigit_iff_toNat.mp (Bool.of_not_eq_false digit)
      exact ascii (Nat.lt_of_le_of_lt codes.2 (by decide))
    simp [none, isHexDigit, notDigit, above 'f' (by decide), above 'F' (by decide)]

end Text

namespace Uuid

/-- A digit is no blank. -/
theorem plain_of_isHexDigit {character : Char} (digit : Text.isHexDigit character = true) :
    Text.isBlank character = false := by
  rw [Text.isHexDigit_eq, Option.isSome_iff_exists] at digit
  obtain ⟨value, read⟩ := digit
  exact (plain_of_digitValue? read).2.1

/-- There are no digits among blanks. -/
theorem filter_blank {part : List Char}
    (blank : ∀ character ∈ part, Text.isBlank character = true) :
    part.filter Text.isHexDigit = [] := by
  apply List.filter_eq_nil_iff.mpr
  intro character member digit
  have visible := plain_of_isHexDigit digit
  rw [blank character member] at visible
  contradiction

/-- Digits are all that a filter for digits leaves. -/
theorem HasDigits.filter {uuid : Uuid} {characters : List Char}
    (isDigits : uuid.HasDigits characters) :
    characters.filter Text.isHexDigit = characters := by
  apply List.filter_eq_self.mpr
  intro character member
  obtain ⟨value, read⟩ := isDigits.digit character member
  rw [Text.isHexDigit_eq, read]
  rfl

/-- All the digits in a text are those of the identifier that it is read as. -/
theorem hasDigits_of_parse {source : String} {uuid : Uuid} (read : parse source = .ok uuid) :
    uuid.HasDigits (source.toList.filter Text.isHexDigit) := by
  obtain ⟨characters, isDigits, ofCore⟩ := parse_eq_ok_iff.mp read
  obtain ⟨middle, isCore, unbraced⟩ :=
    isStripped_iff.mpr (Eq.refl (withoutBraces (Text.trim source.toList)))
  obtain ⟨before, after, split, blankBefore, blankAfter⟩ := isCore.around
  have inMiddle : middle.filter Text.isHexDigit =
      (withoutBraces (Text.trim source.toList)).filter Text.isHexDigit := by
    have opening : Text.isHexDigit '\x7b' = false := by decide
    have closing : Text.isHexDigit '\x7d' = false := by decide
    rcases unbraced with braced | ⟨bare, _⟩
    · rw [braced]
      simp [opening, closing]
    · rw [bare]
  have inCore : (withoutBraces (Text.trim source.toList)).filter Text.isHexDigit = characters := by
    rcases ofCore with inRow | inGroups
    · rw [inRow, isDigits.filter]
    · rw [inGroups, filter_grouped (by decide), isDigits.filter]
  have all : source.toList.filter Text.isHexDigit = characters := by
    rw [split, List.filter_append, List.filter_append, filter_blank blankBefore,
      filter_blank blankAfter, inMiddle, inCore, List.nil_append, List.append_nil]
  rw [all]
  exact isDigits

/-- The literal of a byte with two digits. -/
def pairLiteral (pair : Char × Char) : String :=
  "0x" ++ String.ofList [pair.1, pair.2] ++ "u8"

/-- The expression that lists the literals of bytes. -/
def literalOf (pairs : List (Char × Char)) : String :=
  "CapeUUID::from_slice(&[" ++ String.intercalate "," (pairs.map pairLiteral) ++ "])"

/-- The two digits of a byte. -/
def digitPair (byte : UInt8) : Char × Char :=
  (Text.digitCharacter (byte.toNat / 16), Text.digitCharacter (byte.toNat % 16))

/-- A literal is written by pairs of digits. -/
theorem literal_eq (uuid : Uuid) : uuid.literal = literalOf (uuid.bytes.map digitPair) := by
  have each : (fun byte => "0x" ++ String.ofList (Text.hexByte byte) ++ "u8") =
      pairLiteral ∘ digitPair := rfl
  unfold literal literalOf
  rw [List.map_map, each]

/-- The digits of a UUID are those of its bytes. -/
theorem digits_eq (uuid : Uuid) :
    uuid.digits = (uuid.bytes.map digitPair).flatMap fun pair => [pair.1, pair.2] := by
  rw [List.flatMap_map]
  rfl

/-- The byte that a literal of the source stands for. -/
def byteOfLiteral? (literal : List Char) : Option UInt8 := do
  let opened ← literal.dropPrefix? "0x".toList
  let digits ← opened.dropSuffix? "u8".toList
  let value ← Text.readNumeral? 16 digits
  if value < 256 then some (UInt8.ofNat value) else none

/-- The bytes that an expression lists. -/
def readLiteral? (expression : String) : Option (List UInt8) := do
  let opened ← expression.toList.dropPrefix? "CapeUUID::from_slice(&[".toList
  let inner ← opened.dropSuffix? "])".toList
  (Text.split ',' inner).mapM byteOfLiteral?

/-- A byte is read back from its two digits. -/
theorem readNumeral?_digitPair (byte : UInt8) :
    Text.readNumeral? 16 [(digitPair byte).1, (digitPair byte).2] = some byte.toNat := by
  have bound : byte.toNat < 256 := byte.toNat_lt
  have high := Text.readDigit?_digitCharacter (by omega : byte.toNat / 16 < 16) (by decide) 0
  have low := Text.readDigit?_digitCharacter (Nat.mod_lt byte.toNat (by decide : 0 < 16))
    (by decide) (byte.toNat / 16)
  change (Text.readDigit? 16 0 (Text.digitCharacter (byte.toNat / 16))).bind (fun value =>
    (Text.readDigit? 16 value (Text.digitCharacter (byte.toNat % 16))).bind some) = _
  rw [high, Option.bind_some, Nat.zero_mul, Nat.zero_add, low, Option.bind_some,
    Nat.div_add_mod']

theorem dropPrefix?_append (opening inner : List Char) :
    (opening ++ inner).dropPrefix? opening = some inner :=
  List.dropPrefix?_eq_some_iff.mpr ⟨_, rfl, beq_self_eq_true _⟩

theorem dropSuffix?_append (inner closing : List Char) :
    (inner ++ closing).dropSuffix? closing = some inner :=
  List.dropSuffix?_eq_some_iff.mpr ⟨_, rfl, beq_self_eq_true _⟩

/-- A byte is read back from its literal. -/
theorem byteOfLiteral?_digitPair (byte : UInt8) :
    byteOfLiteral? (pairLiteral (digitPair byte)).toList = some byte := by
  rw [byteOfLiteral?, pairLiteral, String.append_assoc, String.toList_append, dropPrefix?_append,
    String.toList_append, String.toList_ofList]
  simp only [Option.bind_eq_bind, Option.bind_some, dropSuffix?_append, readNumeral?_digitPair,
    if_pos byte.toNat_lt, UInt8.ofNat_toNat]

theorem comma_not_mem_pairLiteral (byte : UInt8) :
    ',' ∉ (pairLiteral (digitPair byte)).toList := by
  have each : ∀ value < 16, ',' ≠ Text.digitCharacter value := by decide
  have bound : byte.toNat < 256 := byte.toNat_lt
  have high := each (byte.toNat / 16) (by omega)
  have low := each (byte.toNat % 16) (by omega)
  simp [pairLiteral, digitPair, high, low]

/-- The expression for an identifier rebuilds its bytes, in their order. -/
theorem readLiteral?_literal (uuid : Uuid) : readLiteral? uuid.literal = some uuid.bytes := by
  have inhabited : uuid.bytes ≠ [] := by
    intro empty
    have length := uuid.length_bytes
    rw [empty] at length
    contradiction
  have parts : Text.split ',' (",".toList.intercalate
      (((uuid.bytes.map digitPair).map pairLiteral).map String.toList)) =
      ((uuid.bytes.map digitPair).map pairLiteral).map String.toList := by
    apply Text.split_intercalate
    · simpa using inhabited
    · simpa using fun byte _ => comma_not_mem_pairLiteral byte
  have cut : uuid.literal.toList = "CapeUUID::from_slice(&[".toList ++ (",".toList.intercalate
      (((uuid.bytes.map digitPair).map pairLiteral).map String.toList) ++ "])".toList) := by
    rw [literal_eq]
    unfold literalOf
    simp only [String.toList_append, String.toList_intercalate, List.append_assoc]
  rw [readLiteral?, cut, dropPrefix?_append]
  simp only [Option.bind_eq_bind, Option.bind_some, dropSuffix?_append, parts, List.mapM_map]
  exact (Text.mapM_eq_some_map fun byte _ => byteOfLiteral?_digitPair byte).trans
    (congrArg some (List.map_id' _))

/-- A literal is no more than a line. -/
theorem isUnbroken_literal (uuid : Uuid) : Text.IsUnbroken uuid.literal := by
  have each : ∀ value < 16, Text.digitCharacter value ≠ '\n' ∧
      Text.digitCharacter value ≠ '\r' := by decide
  have literals : ∀ part ∈ (uuid.bytes.map digitPair).map pairLiteral, Text.IsUnbroken part := by
    intro part member
    rw [List.map_map] at member
    obtain ⟨byte, _, rfl⟩ := List.mem_map.mp member
    have bound : byte.toNat < 256 := byte.toNat_lt
    have high := each (byte.toNat / 16) (by omega)
    have low := each (byte.toNat % 16) (by omega)
    have digits : Text.IsUnbroken (String.ofList [(digitPair byte).1, (digitPair byte).2]) :=
      Spelled.ofList (by simpa using ⟨high, low⟩)
    exact (Text.IsUnbroken.append (by decide) digits).append (by decide)
  rw [literal_eq]
  exact (Text.IsUnbroken.append (by decide) (Spelled.intercalate (by decide) literals)).append
    (by decide)

/-- The literal tells UUIDs apart. -/
theorem literal_injective : Function.Injective literal := by
  intro uuid other same
  have bytes : some uuid.bytes = some other.bytes := by
    rw [← readLiteral?_literal, same, readLiteral?_literal]
  obtain ⟨_, _⟩ := uuid
  obtain ⟨_, _⟩ := other
  cases bytes
  rfl

end Uuid

namespace Model

open Source (UuidConstant)

/-- The constants that a library declares, in the order of its declarations. -/
def Library.constants (library : Library) : List UuidConstant :=
  ⟨"LIBRARY_ID", library.uuid⟩ ::
    (library.categories.map (fun category =>
        ⟨"CATEGORYID_" ++ Identifier.upperCase category.name, category.uuid⟩) ++
      library.interfaces.map fun interface =>
        ⟨Identifier.upperCase interface.name ++ "_UUID", interface.uuid⟩)

end Model

namespace Source

variable {external : String → Option Nat} {library : Model.Library} {bound : Binding.Library}

/-- The line defines the constant, and its expression rebuilds the bytes of the identifier. -/
def ShowsConstant (constant : UuidConstant) (line : String) : Prop :=
  ∃ expression, line = "pub const " ++ constant.name ++ ":CapeUUID=" ++ expression ++ ";" ∧
    Uuid.readLiteral? expression = some constant.uuid.bytes

/-- The line of a constant, without the break after it. -/
def UuidConstant.line (constant : UuidConstant) : String :=
  "pub const " ++ constant.name ++ ":CapeUUID=" ++ constant.uuid.literal ++ ";"

/-- A constant is written as one line. -/
theorem UuidConstant.line_break (constant : UuidConstant) :
    constant.line ++ "\n" = constant.text := by
  have ending : ";" ++ "\n" = ";\n" := by decide
  simp only [line, text, String.append_assoc, ending]

/-- The line of a constant is unbroken, if its name is. -/
theorem UuidConstant.isUnbroken_line {constant : UuidConstant}
    (name : Text.IsUnbroken constant.name) : Text.IsUnbroken constant.line :=
  (((Text.IsUnbroken.append (by decide) name).append (by decide)).append
    constant.uuid.isUnbroken_literal).append (by decide)

/-- The line of a constant shows its name and its literal. -/
theorem UuidConstant.shows_line (constant : UuidConstant) : ShowsConstant constant constant.line :=
  ⟨constant.uuid.literal, rfl, constant.uuid.readLiteral?_literal⟩

namespace Preamble

/-- The lines under a title, if there are any. -/
def titledLines (title : String) (lines : List String) : List String :=
  if lines.isEmpty then [] else "" :: ("//" ++ title) :: lines

/-- The lines of the head, without the breaks after them. -/
def lines (preamble : Preamble) : List String :=
  "// This file was generated by cidl2rs" ::
    (preamble.imports.map (fun path => "use " ++ path ++ ";") ++
      (titledLines "Foreign namespaces, must be imported by the including module:"
          (preamble.foreignSpaces.map fun space => "//  " ++ space) ++
        (titledLines "library ID" [preamble.library.line] ++
          (titledLines "Category IDs" (preamble.categories.map UuidConstant.line) ++
            titledLines "Interface IDs" (preamble.interfaces.map UuidConstant.line)))))

/-- A titled list is written by its lines. -/
theorem unlines_titledLines (title : String) (lines : List String) :
    Text.unlines (titledLines title lines) =
      titled title (lines.map fun line => line ++ "\n") := by
  cases lines with
  | nil => rfl
  | cons line others =>
      have opening : "\n//" = "" ++ "\n" ++ "//" := by decide
      change Text.unlines ("" :: ("//" ++ title) :: line :: others) =
        "\n//" ++ title ++ "\n" ++ Text.unlines (line :: others)
      rw [Text.unlines_cons, Text.unlines_cons, opening]
      simp only [String.append_assoc]

/-- The head of a file is written by its lines. -/
theorem unlines_lines (preamble : Preamble) : Text.unlines preamble.lines = preamble.text := by
  have ending : ";" ++ "\n" = ";\n" := by decide
  have banner : "// This file was generated by cidl2rs" ++ "\n" =
      "// This file was generated by cidl2rs\n" := by decide
  have imports : Text.unlines (preamble.imports.map fun path => "use " ++ path ++ ";") =
      String.join (preamble.imports.map fun path => "use " ++ path ++ ";\n") := by
    simp only [Text.unlines, List.map_map, Function.comp_def, String.append_assoc, ending]
  unfold lines text
  rw [Text.unlines_cons, banner, Text.unlines_append, imports]
  simp only [Text.unlines_append, unlines_titledLines, List.map_map, List.map_cons, List.map_nil,
    Function.comp_def, UuidConstant.line_break, String.append_assoc]

/-- A title is no constant. -/
theorem filter_titledLines (title : String) (lines : List String) :
    (titledLines title lines).filter (Text.startsWith "pub const ") =
      lines.filter (Text.startsWith "pub const ") := by
  cases lines with
  | nil => rfl
  | cons line others =>
      have heading : Text.startsWith "pub const " ("//" ++ title) = false := by
        simp [Text.startsWith, List.isPrefixOf]
      change ("" :: ("//" ++ title) :: line :: others).filter _ = _
      rw [List.filter_cons_of_neg (by decide), List.filter_cons_of_neg (by simp [heading])]

/-- The lines that start like a constant are those of the constants. -/
theorem filter_lines (preamble : Preamble) :
    preamble.lines.filter (Text.startsWith "pub const ") =
      (preamble.library :: (preamble.categories ++ preamble.interfaces)).map UuidConstant.line := by
  have imports : (preamble.imports.map fun path => "use " ++ path ++ ";").filter
      (Text.startsWith "pub const ") = [] := by
    simp [Text.startsWith]
  have spaces : (preamble.foreignSpaces.map fun space => "//  " ++ space).filter
      (Text.startsWith "pub const ") = [] := by
    simp [Text.startsWith]
  have kept (constants : List UuidConstant) :
      (constants.map UuidConstant.line).filter (Text.startsWith "pub const ") =
        constants.map UuidConstant.line := by
    apply Text.filter_startsWith_map
    intro constant
    simp only [UuidConstant.line, String.append_assoc, Text.startsWith_append]
  have first := kept [preamble.library]
  rw [lines, List.filter_cons_of_neg (by decide)]
  simp only [List.filter_append, imports, filter_titledLines, spaces, kept, List.nil_append,
    List.map_cons, List.map_nil, List.map_append] at first ⊢
  rw [first]
  rfl

/-- Titled lines are unbroken, if the title and the lines are. -/
theorem isUnbroken_titledLines {title : String} {lines : List String}
    (heading : Text.IsUnbroken title) (each : ∀ line ∈ lines, Text.IsUnbroken line) :
    ∀ line ∈ titledLines title lines, Text.IsUnbroken line := by
  unfold titledLines
  split
  · exact List.forall_mem_nil _
  · rw [List.forall_mem_cons, List.forall_mem_cons]
    exact ⟨by decide, Text.IsUnbroken.append (by decide) heading, each⟩

/-- Nothing breaks the lines of the head if nothing breaks the names in it. -/
theorem isUnbroken_lines {preamble : Preamble}
    (imports : ∀ path ∈ preamble.imports, Text.IsUnbroken path)
    (spaces : ∀ space ∈ preamble.foreignSpaces, Text.IsUnbroken space)
    (constants : ∀ constant ∈ preamble.library :: (preamble.categories ++ preamble.interfaces),
      Text.IsUnbroken constant.name) :
    ∀ line ∈ preamble.lines, Text.IsUnbroken line := by
  rw [List.forall_mem_cons, List.forall_mem_append] at constants
  obtain ⟨ofLibrary, ofCategories, ofInterfaces⟩ := constants
  unfold lines
  simp only [List.forall_mem_cons, List.forall_mem_append]
  refine ⟨by decide, ?_, isUnbroken_titledLines (by decide) ?_,
    isUnbroken_titledLines (by decide) ?_, isUnbroken_titledLines (by decide) ?_,
    isUnbroken_titledLines (by decide) ?_⟩
  all_goals simp only [List.forall_mem_map, List.forall_mem_singleton]
  · intro path member
    exact (Text.IsUnbroken.append (by decide) (imports path member)).append (by decide)
  · intro space member
    exact Text.IsUnbroken.append (by decide) (spaces space member)
  · exact UuidConstant.isUnbroken_line ofLibrary
  · exact fun category member => UuidConstant.isUnbroken_line (ofCategories category member)
  · exact fun interface member => UuidConstant.isUnbroken_line (ofInterfaces interface member)

/-- The constants of a file are those of the library, its categories and its interfaces. -/
theorem constants_ofLibrary (built : Binding.Library.ofModel external library = .ok bound)
    (context : Context) :
    (ofLibrary context bound).library ::
        ((ofLibrary context bound).categories ++ (ofLibrary context bound).interfaces) =
      library.constants := by
  obtain ⟨_, uuid, categories, _, interfaces, _⟩ := Binding.Library.ofModel_eq_ok built
  have ofInterfaces : (bound.interfaces.map fun interface =>
      (⟨interface.uuidConstant, interface.uuid⟩ : UuidConstant)) =
      library.interfaces.map fun interface =>
        ⟨Identifier.upperCase interface.name ++ "_UUID", interface.uuid⟩ := by
    apply map_eq_of_forall₂ interfaces
    intro declared interface each
    obtain ⟨name, sameUuid, _⟩ := Binding.Interface.ofModel_eq_ok each
    rw [Binding.Interface.uuidConstant, name, sameUuid]
  simp only [ofLibrary, uuid, categories, ofInterfaces, Model.Library.constants]

/-- The imports are unbroken, if the support module is. -/
theorem isUnbroken_imports {context : Context} (support : Text.IsUnbroken context.support)
    (library : Binding.Library) :
    ∀ path ∈ (ofLibrary context library).imports, Text.IsUnbroken path := by
  unfold ofLibrary interfaceImports enumerationImports
  rw [List.forall_mem_append]
  constructor
  · split
    · rw [List.forall_mem_singleton]
      exact support.append (by decide)
    · rw [List.forall_mem_append, List.forall_mem_cons, List.forall_mem_singleton]
      refine ⟨⟨support.append (by decide), support.append (by decide)⟩, ?_⟩
      split <;> decide
  · split
    · exact List.forall_mem_nil _
    · rw [List.forall_mem_append]
      refine ⟨by decide, ?_⟩
      split <;> decide

end Preamble

/-- The head of a source lists the constants of the library, and the expression of each rebuilds
the declared bytes. -/
theorem lists_constants (built : Binding.Library.ofModel external library = .ok bound)
    (context : Context) :
    Text.Lists "pub const " ShowsConstant library.constants
      (context.support :: (bound.foreignSpaces ++ library.constants.map UuidConstant.name))
      (Preamble.ofLibrary context bound).text := by
  rw [← Preamble.unlines_lines]
  apply Text.lists_unlines
  · rw [Preamble.filter_lines, Preamble.constants_ofLibrary built, List.forall₂_map_right_iff,
      List.forall₂_same]
    exact fun constant _ => constant.shows_line
  · intro unbroken
    rw [List.forall_mem_cons, List.forall_mem_append, List.forall_mem_map] at unbroken
    obtain ⟨support, spaces, constants⟩ := unbroken
    apply Preamble.isUnbroken_lines (Preamble.isUnbroken_imports support bound) spaces
    rw [Preamble.constants_ofLibrary built]
    exact constants

/-- The expression for an identifier that was read from a text has sixteen literals, and their
digits are those of the text in lower case. So no two identifiers have the same expression, and the
head of a source gives each constant of the library the bytes that were declared for it. -/
theorem constants_carry_declared_digits :
    (∀ source uuid, Uuid.parse source = .ok uuid →
      ∃ pairs, pairs.length = 16 ∧ uuid.literal = Uuid.literalOf pairs ∧
        pairs.flatMap (fun pair => [pair.1, pair.2]) =
          (source.toList.filter Text.isHexDigit).map Char.toLower) ∧
    Function.Injective Uuid.literal ∧
    ∀ external libraries bound, Binding.build external libraries = .ok bound →
      ∀ context : Context, ∃ library rest, libraries = library :: rest ∧
        Text.Lists "pub const " ShowsConstant library.constants
          (context.support :: (bound.foreignSpaces ++ library.constants.map UuidConstant.name))
          (Preamble.ofLibrary context bound).text := by
  refine ⟨?_, Uuid.literal_injective, ?_⟩
  · intro source uuid read
    have isDigits := Uuid.hasDigits_of_parse read
    refine ⟨uuid.bytes.map Uuid.digitPair, ?_, uuid.literal_eq, ?_⟩
    · rw [List.length_map, uuid.length_bytes]
    · rw [← uuid.digits_eq, ← isDigits]
  · intro external libraries bound built context
    obtain ⟨library, rest, split, libraryBuilt⟩ := Binding.build_eq_ok built
    exact ⟨library, rest, split, lists_constants libraryBuilt context⟩

/-- A text with blanks, braces and capitals. -/
def bracedText : String := "\t\x7b00112233-4455-6677-8899-AABBCCDDEEFF\x7d\n"

/-- A text in braces, with the digits that its literal carries. -/
theorem constants_carry_declared_digits_bracedText :
    (∃ uuid, Uuid.parse bracedText = .ok uuid ∧
      ∃ pairs, pairs.length = 16 ∧ uuid.literal = Uuid.literalOf pairs ∧
        pairs.flatMap (fun pair => [pair.1, pair.2]) =
          "00112233445566778899aabbccddeeff".toList) ∧
    ∃ bound, Binding.build (fun _ => none) [Binding.sampleLibrary] = .ok bound ∧
      ∃ library rest, [Binding.sampleLibrary] = library :: rest ∧
        Text.Lists "pub const " ShowsConstant library.constants
          ("cobia" :: (bound.foreignSpaces ++ library.constants.map UuidConstant.name))
          (Preamble.ofLibrary (Options.context {} "Thermo") bound).text := by
  obtain ⟨literals, _, constants⟩ := constants_carry_declared_digits
  constructor
  · have read : Uuid.parse bracedText = .ok ⟨[0x00, 0x11, 0x22, 0x33, 0x44, 0x55, 0x66, 0x77, 0x88,
        0x99, 0xAA, 0xBB, 0xCC, 0xDD, 0xEE, 0xFF], rfl⟩ := by decide +kernel
    obtain ⟨pairs, length, literal, digits⟩ := literals _ _ read
    refine ⟨_, read, pairs, length, literal, digits.trans ?_⟩
    decide +kernel
  · have built : Binding.build (fun _ => none) [Binding.sampleLibrary] = .ok _ := rfl
    exact ⟨_, built, constants _ _ _ built (Options.context {} "Thermo")⟩

end Source

end IdlBindings
