import IdlBindings.Text.Lines
import IdlBindings.Text.Numeral
import IdlBindings.Text.Split
import Mathlib.Data.List.Basic

/-
This file reads back what is written: numbers in any base, lists between separators, and tables
with one row a line.
-/

namespace IdlBindings.Text

/-- A digit is read back from its character. -/
theorem digitValue?_digitCharacter {value : Nat} (small : value < 16) :
    digitValue? (digitCharacter value) = some value := by
  revert value
  decide

theorem digitsWithin_ne_nil (base fuel number : Nat) : digitsWithin base (fuel + 1) number ≠ [] := by
  rw [digitsWithin]
  split <;> simp

/-- The digits of a number are below the base. -/
theorem lt_of_mem_digitsWithin {base fuel number digit : Nat} (positive : 0 < base)
    (member : digit ∈ digitsWithin base fuel number) : digit < base := by
  induction fuel generalizing number with
  | zero => simp [digitsWithin] at member
  | succ fuel ih =>
      rw [digitsWithin] at member
      split at member
      case isTrue small =>
        rw [List.mem_singleton.mp member]
        exact small
      case isFalse =>
        rcases List.mem_append.mp member with earlier | last
        · exact ih earlier
        · rw [List.mem_singleton.mp last]
          exact Nat.mod_lt number positive

/-- One digit more is one step more of the reader. -/
def readDigit? (base number : Nat) (character : Char) : Option Nat :=
  match digitValue? character with
  | some digit => if digit < base then some (number * base + digit) else none
  | none => none

/-- One digit more is read as one step more. -/
theorem readDigit?_digitCharacter {base digit : Nat} (small : digit < base) (bounded : base ≤ 16)
    (number : Nat) :
    readDigit? base number (digitCharacter digit) = some (number * base + digit) := by
  rw [readDigit?, digitValue?_digitCharacter (by omega)]
  exact if_pos small

/-- A number is read back from its digits. -/
theorem foldlM_digitsWithin {base fuel number : Nat} (valid : 2 ≤ base) (bounded : base ≤ 16)
    (enough : number < fuel) :
    ((digitsWithin base fuel number).map digitCharacter).foldlM (readDigit? base) 0 =
      some number := by
  induction fuel generalizing number with
  | zero => omega
  | succ fuel ih =>
      rw [digitsWithin]
      split
      case isTrue small =>
        have single := readDigit?_digitCharacter small bounded 0
        rw [List.map_singleton, List.foldlM_cons, single]
        simp
      case isFalse large =>
        have smaller : number / base < fuel := by
          have below : number / base < number := Nat.div_lt_self (by omega) (by omega)
          omega
        have last := readDigit?_digitCharacter (Nat.mod_lt number (by omega : 0 < base)) bounded
          (number / base)
        rw [List.map_append, List.foldlM_append, ih smaller, List.map_singleton]
        simp only [Option.bind_eq_bind, Option.bind_some, List.foldlM_cons, List.foldlM_nil, last,
          Nat.div_add_mod']
        rfl

/-- A numeral reads as the number it was written for. -/
theorem readNumeral?_numeral {base : Nat} (valid : 2 ≤ base) (bounded : base ≤ 16) (number : Nat) :
    readNumeral? base (numeral base number) = some number := by
  have nonempty : ((digitsWithin base (number + 1) number).map digitCharacter).isEmpty = false := by
    simp [digitsWithin_ne_nil]
  rw [readNumeral?, numeral, if_neg (by simp [nonempty])]
  exact foldlM_digitsWithin valid bounded (Nat.lt_succ_self number)

/-- A decimal numeral has no characters but digits. -/
theorem isDigit_of_mem_numeral {number : Nat} {character : Char}
    (member : character ∈ numeral 10 number) : character.isDigit = true := by
  obtain ⟨digit, listed, rfl⟩ := List.mem_map.mp member
  have each : ∀ digit < 10, (digitCharacter digit).isDigit = true := by decide
  exact each digit (lt_of_mem_digitsWithin (by decide) listed)

/-- A sign may stand before the digits. -/
def readInteger? : List Char → Option Int
  | '-' :: digits => (readNumeral? 10 digits).map fun magnitude => -Int.ofNat magnitude
  | digits => (readNumeral? 10 digits).map Int.ofNat

/-- A literal of thirty-two bits, the least one included. -/
def readInt32? (text : String) : Option Int32 :=
  (readInteger? text.toList).bind fun number =>
    if -2147483648 ≤ number ∧ number < 2147483648 then some (Int32.ofInt number) else none

/-- An integer is read back from its decimal form. -/
theorem readInteger?_signedDecimal (number : Int) :
    readInteger? (signedDecimal number).toList = some number := by
  cases number with
  | ofNat magnitude =>
      simp only [signedDecimal, decimal, String.toList_ofList]
      have unsigned : ∀ rest, numeral 10 magnitude ≠ '-' :: rest := by
        intro rest same
        have digit : '-'.isDigit = true := isDigit_of_mem_numeral (same ▸ List.mem_cons_self)
        revert digit
        decide
      rw [readInteger?]
      · rw [readNumeral?_numeral (by decide) (by decide)]
        rfl
      · exact fun rest same => unsigned rest same
  | negSucc predecessor =>
      simp only [signedDecimal, decimal, String.toList_append, String.toList_ofList]
      change readInteger? ('-' :: numeral 10 (predecessor + 1)) = _
      rw [readInteger?, readNumeral?_numeral (by decide) (by decide)]
      rfl

/-- A number of 32 bits is read back from its decimal form. -/
theorem readInt32?_signedDecimal (value : Int32) :
    readInt32? (signedDecimal value.toInt) = some value := by
  rw [readInt32?, readInteger?_signedDecimal, Option.bind_some, if_pos, Int32.ofInt_toInt]
  exact ⟨value.le_toInt, value.toInt_lt⟩

/-- A decimal form has no characters but digits and a sign. -/
theorem mem_signedDecimal {number : Int} {character : Char}
    (member : character ∈ (signedDecimal number).toList) :
    character.isDigit = true ∨ character = '-' := by
  cases number with
  | ofNat magnitude =>
      simp only [signedDecimal, decimal, String.toList_ofList] at member
      exact .inl (isDigit_of_mem_numeral member)
  | negSucc predecessor =>
      simp only [signedDecimal, decimal, String.toList_append, String.toList_ofList,
        List.mem_append] at member
      rcases member with sign | digit
      · exact .inr (by simpa using sign)
      · exact .inl (isDigit_of_mem_numeral digit)

theorem not_mem_signedDecimal (number : Int) {character : Char} (notDigit : character.isDigit = false)
    (notSign : character ≠ '-') : character ∉ (signedDecimal number).toList := by
  intro member
  rcases mem_signedDecimal member with digit | sign
  · rw [digit] at notDigit
    contradiction
  · exact notSign sign

/-- A text without separators is one piece. -/
theorem split_of_not_mem {separator : Char} {part : List Char} (absent : separator ∉ part) :
    split separator part = [part] := by
  induction part with
  | nil => rfl
  | cons character others ih =>
      obtain ⟨differs, absent⟩ := List.ne_and_not_mem_of_not_mem_cons absent
      have other : (character == separator) = false := by simpa using differs.symm
      simp [split, other, ih absent]

/-- The first piece ends at the first separator. -/
theorem split_append_cons {separator : Char} {part : List Char} (absent : separator ∉ part)
    (rest : List Char) :
    split separator (part ++ separator :: rest) = part :: split separator rest := by
  induction part with
  | nil => simp [split]
  | cons character others ih =>
      obtain ⟨differs, absent⟩ := List.ne_and_not_mem_of_not_mem_cons absent
      have other : (character == separator) = false := by simpa using differs.symm
      simp [split, other, ih absent]

/-- Parts without a separator are found again between the separators. -/
theorem split_intercalate {separator : Char} {parts : List (List Char)} (inhabited : parts ≠ [])
    (absent : ∀ part ∈ parts, separator ∉ part) :
    split separator ([separator].intercalate parts) = parts := by
  induction parts with
  | nil => exact absurd rfl inhabited
  | cons part rest ih =>
      have partAbsent := absent part List.mem_cons_self
      cases rest with
      | nil =>
          rw [List.intercalate_singleton]
          exact split_of_not_mem partAbsent
      | cons next later =>
          rw [List.intercalate_cons_cons, List.append_assoc, List.singleton_append,
            split_append_cons partAbsent]
          rw [ih (List.cons_ne_nil next later) fun other member =>
            absent other (List.mem_cons_of_mem part member)]

/-- A text is its pieces with the separators between them. -/
theorem intercalate_split (separator : Char) (text : List Char) :
    [separator].intercalate (split separator text) = text := by
  induction text with
  | nil => rfl
  | cons character rest ih =>
      obtain ⟨piece, pieces, parted⟩ := List.exists_cons_of_ne_nil (split_ne_nil separator rest)
      rw [parted] at ih
      by_cases isSeparator : character = separator
      · simp [split, isSeparator, parted, List.intercalate_cons_cons, ih]
      · have opened : split separator (character :: rest) = (character :: piece) :: pieces := by
          simp [split, isSeparator, parted]
        rw [opened, ← ih]
        cases pieces with
        | nil => simp [List.intercalate_singleton]
        | cons next later => simp [List.intercalate_cons_cons]

/-- No piece has a separator in it. -/
theorem not_mem_of_mem_split {separator : Char} {text piece : List Char}
    (member : piece ∈ split separator text) : separator ∉ piece := by
  induction text generalizing piece with
  | nil =>
      rw [List.mem_singleton.mp member]
      exact List.not_mem_nil
  | cons character rest ih =>
      obtain ⟨first, pieces, parted⟩ := List.exists_cons_of_ne_nil (split_ne_nil separator rest)
      rw [parted] at ih
      by_cases isSeparator : character = separator
      · simp only [split, isSeparator, BEq.rfl, ↓reduceIte, parted, List.mem_cons] at member
        rcases member with rfl | earlier
        · exact List.not_mem_nil
        · exact ih (List.mem_cons.mpr earlier)
      · simp only [split, beq_iff_eq, isSeparator, ↓reduceIte, parted, List.mem_cons] at member
        rcases member with rfl | later
        · simp [Ne.symm isSeparator, ih List.mem_cons_self]
        · exact ih (List.mem_cons_of_mem first later)

/-- The first line ends at the first line break. -/
theorem linesFrom_append {line rest read : List Char} (unbroken : '\n' ∉ line) :
    linesFrom read (line ++ '\n' :: rest) =
      withoutReturn (read.reverse ++ line) :: linesFrom [] rest := by
  induction line generalizing read with
  | nil => simp [linesFrom]
  | cons character others ih =>
      obtain ⟨differs, unbroken⟩ := List.ne_and_not_mem_of_not_mem_cons unbroken
      rw [List.cons_append, linesFrom]
      · rw [ih unbroken]
        simp
      · exact fun same => differs same.symm

/-- A line that a reader finds as it was written: without a break, and without a return before
the break. -/
structure IsLine (line : String) : Prop where
  unbroken : '\n' ∉ line.toList
  unreturned : line.toList.getLast? ≠ some '\r'

/-- Lines are read back from their text. -/
theorem lines_join {texts : List String} (each : ∀ line ∈ texts, IsLine line) :
    lines (String.join (texts.map fun line => line ++ "\n")) = texts := by
  induction texts with
  | nil => rfl
  | cons line rest ih =>
      have first := each line List.mem_cons_self
      have others := ih fun other member => each other (List.mem_cons_of_mem line member)
      unfold lines at others ⊢
      have kept : withoutReturn line.toList = line.toList := by
        simp [withoutReturn, first.unreturned]
      rw [List.map_cons, String.join_cons, String.toList_append, String.toList_append]
      change (linesFrom [] ((line.toList ++ '\n' :: []) ++ _)).map _ = _
      rw [List.append_assoc, List.cons_append, List.nil_append, linesFrom_append first.unbroken,
        List.map_cons, others]
      simp [kept]

/-- Entries that can all be read are read one by one. -/
theorem mapM_eq_some_map {α β : Type} {read : α → Option β} {value : α → β} {entries : List α}
    (each : ∀ entry ∈ entries, read entry = some (value entry)) :
    entries.mapM read = some (entries.map value) := by
  induction entries with
  | nil => rfl
  | cons entry rest ih =>
      have others := ih fun other member => each other (List.mem_cons_of_mem entry member)
      rw [List.mapM_cons, each entry List.mem_cons_self, others]
      rfl

/-- This reads a table with one entry a line. -/
def table? {α : Type} (read : String → Option α) (body : String) : Option (List α) :=
  (lines body).mapM read

/-- A table that is written line by line is read as it was written. -/
theorem table?_join {α β : Type} {read : String → Option β} {line : α → String} {value : α → β}
    {entries : List α} (isLine : ∀ entry ∈ entries, IsLine (line entry))
    (reads : ∀ entry ∈ entries, read (line entry) = some (value entry)) :
    table? read (String.join (entries.map fun entry => line entry ++ "\n")) =
      some (entries.map value) := by
  have cut := lines_join (List.forall_mem_map.mpr isLine)
  rw [List.map_map, Function.comp_def] at cut
  rw [table?, cut, List.mapM_map]
  exact mapM_eq_some_map reads

/-- A row with two cells, and what stands before, between and after them. -/
structure Row where
  opening : String
  separator : String
  closing : String

namespace Row

/-- A row as it is written. -/
def text (row : Row) (first second : String) : String :=
  row.opening ++ first ++ row.separator ++ second ++ row.closing

/-- The cells of a line. The first one ends at a blank, with which the separator starts. -/
def cells? (row : Row) (line : String) : Option (String × String) := do
  let opened ← line.toList.dropPrefix? row.opening.toList
  let inner ← opened.dropSuffix? row.closing.toList
  let second ← (inner.dropWhile (· != ' ')).dropPrefix? row.separator.toList
  return (String.ofList (inner.takeWhile (· != ' ')), String.ofList second)

/-- The two cells of a row, each read for itself. -/
def read? {α β : Type} (row : Row) (first : String → Option α) (second : String → Option β)
    (line : String) : Option (α × β) := do
  let cells ← row.cells? line
  return (← first cells.1, ← second cells.2)

/-- A row that stands in a line of its own, and whose first cell can be told from its rest. -/
structure Plain (row : Row) : Prop where
  opening : '\n' ∉ row.opening.toList
  separator : '\n' ∉ row.separator.toList
  closing : '\n' ∉ row.closing.toList
  separates : row.separator.toList.head? = some ' '
  closes : row.closing.toList.getLast? = some ','

variable {row : Row} {first second : String}

/-- A row is one line. -/
theorem Plain.isLine_text (plain : row.Plain) (firstUnbroken : '\n' ∉ first.toList)
    (secondUnbroken : '\n' ∉ second.toList) : IsLine (row.text first second) where
  unbroken := by
    simp [text, plain.opening, plain.separator, plain.closing, firstUnbroken, secondUnbroken]
  unreturned := by simp [text, plain.closes]

/-- The cells are read back from a row. -/
theorem Plain.cells?_text (plain : row.Plain) (blankless : ' ' ∉ first.toList) :
    row.cells? (row.text first second) = some (first, second) := by
  obtain ⟨rest, separated⟩ := List.head?_eq_some_iff.mp plain.separates
  have kept : ∀ character ∈ first.toList, (character != ' ') = true := by
    intro character member
    simpa using fun same : character = ' ' => blankless (same ▸ member)
  have before (inner : List Char) :
      (row.opening.toList ++ inner).dropPrefix? row.opening.toList = some inner :=
    List.dropPrefix?_eq_some_iff.mpr ⟨row.opening.toList, rfl, by simp⟩
  have after (inner : List Char) :
      (inner ++ row.closing.toList).dropSuffix? row.closing.toList = some inner :=
    List.dropSuffix?_eq_some_iff.mpr ⟨row.closing.toList, rfl, by simp⟩
  have between :
      (row.separator.toList ++ second.toList).dropPrefix? row.separator.toList =
        some second.toList :=
    List.dropPrefix?_eq_some_iff.mpr ⟨row.separator.toList, rfl, by simp⟩
  have cut : (row.text first second).toList = row.opening.toList ++
      ((first.toList ++ (row.separator.toList ++ second.toList)) ++ row.closing.toList) := by
    simp [text]
  have taken : (first.toList ++ (row.separator.toList ++ second.toList)).takeWhile (· != ' ') =
      first.toList := by
    rw [List.takeWhile_append_of_pos kept, separated]
    simp
  have dropped : (first.toList ++ (row.separator.toList ++ second.toList)).dropWhile (· != ' ') =
      row.separator.toList ++ second.toList := by
    rw [List.dropWhile_append_of_pos kept, separated]
    simp
  rw [cells?, cut, before]
  simp only [Option.bind_eq_bind, Option.bind_some, after, dropped, between, taken,
    String.ofList_toList]
  rfl

/-- The values of a row are read back from its text. -/
theorem Plain.read?_text {α β : Type} (plain : row.Plain) (blankless : ' ' ∉ first.toList)
    {readFirst : String → Option α} {readSecond : String → Option β} {left : α} {right : β}
    (firstReads : readFirst first = some left) (secondReads : readSecond second = some right) :
    row.read? readFirst readSecond (row.text first second) = some (left, right) := by
  rw [read?, plain.cells?_text blankless]
  simp [firstReads, secondReads]

end Row

end IdlBindings.Text
