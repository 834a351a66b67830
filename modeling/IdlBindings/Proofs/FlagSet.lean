import IdlBindings.Proofs.BindingInvariant
import IdlBindings.Proofs.LineListing
import IdlBindings.Source.Enumeration

/-
This file tells the enumerations that are flag sets from their declared values, reads the bits of a
flag set from its text, and says when two items of an enumeration have the same value.
-/

namespace IdlBindings

namespace Model

/-- As an unsigned number of thirty-two bits, the value is a power of two. -/
def IsFlag (value : Int32) : Prop :=
  ∃ position < 32, value.toInt % 2 ^ 32 = 2 ^ position

/-- A value as an unsigned number. -/
theorem toInt_emod (value : Int32) : value.toInt % 2 ^ 32 = value.toUInt32.toNat := by
  have bound : value.toUInt32.toNat < 2 ^ 32 := value.toUInt32.toNat_lt
  have same : value.toBitVec.toNat = value.toUInt32.toNat := rfl
  rw [← Int32.toInt_toBitVec, BitVec.toInt_eq_toNat_cond, same]
  split <;> omega

/-- A flag is a power of two as an unsigned number. -/
theorem isFlag_iff (value : Int32) :
    IsFlag value ↔ ∃ position < 32, value.toUInt32.toNat = 2 ^ position := by
  unfold IsFlag
  rw [toInt_emod]
  norm_cast

/-- The word below a single bit shares no bit with it, and for every other word it shares some. -/
theorem isSingleBit_iff (bits : UInt32) :
    isSingleBit bits = true ↔ ∃ position < 32, bits.toNat = 2 ^ position := by
  have bound : bits.toNat < 2 ^ 32 := bits.toNat_lt
  have words : isSingleBit bits = true ↔ bits.toNat ≠ 0 ∧ bits.toNat &&& (bits.toNat - 1) = 0 := by
    simp only [isSingleBit, Bool.and_eq_true, bne_iff_ne, beq_iff_eq]
    have zero : bits = 0 ↔ bits.toNat = 0 := UInt32.toNat_inj.symm
    rw [ne_eq, ne_eq, zero]
    apply and_congr_right
    intro nonzero
    have positive : 1 ≤ bits := UInt32.le_iff_toNat_le.mpr (Nat.one_le_iff_ne_zero.mpr nonzero)
    have exact : (bits - 1).toNat = bits.toNat - 1 := UInt32.toNat_sub_of_le bits 1 positive
    rw [← UInt32.toNat_inj, UInt32.toNat_and, exact]
    rfl
  rw [words, Nat.ne_zero_and_sub_one_eq_zero_iff_isPowerOfTwo]
  constructor
  · intro power
    obtain ⟨position, same⟩ := power
    rw [same] at bound
    exact ⟨position, (Nat.pow_lt_pow_iff_right (by decide)).mp bound, same⟩
  · intro power
    obtain ⟨position, _, same⟩ := power
    exact ⟨position, same⟩

/-- The test for single bits finds the flags. -/
theorem isSingleBit_toUInt32_iff (value : Int32) :
    isSingleBit value.toUInt32 = true ↔ IsFlag value := by
  rw [isSingleBit_iff, isFlag_iff]

/-- An enumeration is a flag set if it has two items or more and all values are flags. -/
theorem Enumeration.isBitFlag_iff (enumeration : Enumeration) :
    enumeration.isBitFlag = true ↔
      2 ≤ enumeration.items.length ∧ ∀ item ∈ enumeration.items, IsFlag item.value := by
  simp only [isBitFlag, Bool.and_eq_true, decide_eq_true_eq, List.all_eq_true,
    EnumerationItem.bits, isSingleBit_toUInt32_iff]

/-- Of the values that are not positive, only the least one is a flag. -/
theorem isFlag_iff_of_nonpositive {value : Int32} (nonpositive : value.toInt ≤ 0) :
    IsFlag value ↔ value = Int32.minValue := by
  constructor
  · intro flag
    obtain ⟨position, within, same⟩ := flag
    have least : -2 ^ 31 ≤ value.toInt := value.le_toInt
    have positive : (0 : Int) < 2 ^ position := by positivity
    have high : (2 : Int) ^ 31 ≤ 2 ^ position := by omega
    have last : position = 31 := by
      have above := (pow_le_pow_iff_right₀ (by decide : (1 : Int) < 2)).mp high
      omega
    subst last
    apply Int32.toInt_inj.mp
    change value.toInt = -2 ^ 31
    omega
  · intro least
    subst least
    exact ⟨31, by decide, by decide⟩

/-- Subtraction that is refused where it would go below zero. -/
def exactSub? (word other : UInt32) : Option UInt32 :=
  if other ≤ word then some (word - other) else none

/-- The test for a single bit, with nothing to hide a subtraction below zero. -/
def isSingleBit? (bits : UInt32) : Option Bool :=
  if bits = 0 then some false
  else (exactSub? bits 1).map fun lower => bits &&& lower == 0

/-- The test on a whole enumeration, where a subtraction may fail. -/
def Enumeration.isBitFlag? (enumeration : Enumeration) : Option Bool :=
  if 2 ≤ enumeration.items.length then
    enumeration.items.allM fun item => isSingleBit? item.bits
  else some false

/-- The subtraction in the test never fails. -/
theorem isSingleBit?_eq (bits : UInt32) : isSingleBit? bits = some (isSingleBit bits) := by
  by_cases zero : bits = 0
  · subst zero
    rfl
  · have nonzero : bits.toNat ≠ 0 := fun same => zero (UInt32.toNat_inj.mp same)
    have positive : 1 ≤ bits := UInt32.le_iff_toNat_le.mpr (Nat.one_le_iff_ne_zero.mpr nonzero)
    simp [isSingleBit?, isSingleBit, exactSub?, zero, positive]

/-- No subtraction fails on a whole enumeration. -/
theorem Enumeration.isBitFlag?_eq (enumeration : Enumeration) :
    enumeration.isBitFlag? = some enumeration.isBitFlag := by
  have all (items : List EnumerationItem) : (items.allM fun item => isSingleBit? item.bits) =
      some (items.all fun item => isSingleBit item.bits) := by
    induction items with
    | nil => rfl
    | cons item rest ih =>
        rw [List.allM, isSingleBit?_eq]
        cases single : isSingleBit item.bits <;> simp [single, ih]
  unfold isBitFlag? isBitFlag
  by_cases several : 2 ≤ enumeration.items.length <;> simp [several, all]

end Model

namespace Binding

/-- An enumeration is bound as a flag set exactly if it was declared as one. -/
theorem Enumeration.kind_eq_bitFlags_iff {declared : Model.Enumeration} {bound : Enumeration}
    (built : Enumeration.ofModel declared = .ok bound) :
    bound.kind = .bitFlags ↔ declared.isBitFlag = true := by
  obtain ⟨_, rfl⟩ := ofModel_eq_ok built
  simp [kindOf]

/-- The rules are all that can keep an enumeration from being built. -/
theorem Enumeration.exists_ofModel_iff (declared : Model.Enumeration) :
    (∃ bound, Enumeration.ofModel declared = .ok bound) ↔ declared.WellFormed := by
  constructor
  · intro built
    obtain ⟨bound, built⟩ := built
    exact (ofModel_eq_ok built).1
  · intro wellFormed
    cases result : Enumeration.ofModel declared with
    | ok bound => exact ⟨bound, rfl⟩
    | error fault =>
        have violated := (ofModel_reports declared).exists_error_iff.mp ⟨fault, result⟩
        exact absurd (declared.violations_eq_nil_iff.mpr wellFormed) violated

/-- How many items have the bit at a position as their value. -/
def Enumeration.bitCount (enumeration : Enumeration) (position : Nat) : Nat :=
  (enumeration.items.map fun item => item.value.toInt % 2 ^ 32).count (2 ^ position)

/-- The enumeration is a flag set, and some bit of it is declared more than once. -/
def Enumeration.RepeatsBit (enumeration : Enumeration) : Prop :=
  enumeration.kind = .bitFlags ∧ ∃ position < 32, 2 ≤ enumeration.bitCount position

/-- Values differ exactly if they do as unsigned numbers. -/
theorem Enumeration.nodup_values_iff (enumeration : Enumeration) :
    (enumeration.items.map EnumerationItem.value).Nodup ↔
      (enumeration.items.map fun item => item.value.toInt % 2 ^ 32).Nodup := by
  have injective : Function.Injective fun value : Int32 => value.toInt % 2 ^ 32 := by
    intro value other same
    have low := value.le_toInt
    have high := value.toInt_lt
    have otherLow := other.le_toInt
    have otherHigh := other.toInt_lt
    dsimp only at same
    apply Int32.toInt_inj.mp
    omega
  have mapped : (enumeration.items.map fun item => item.value.toInt % 2 ^ 32) =
      (enumeration.items.map EnumerationItem.value).map fun value => value.toInt % 2 ^ 32 := by
    rw [List.map_map]
    rfl
  rw [mapped, List.nodup_map_iff injective]

/-- Of an enumeration that is built, two items have the same value only if both are the same bit of
a flag set. -/
theorem Enumeration.nodup_values_iff_of_ofModel {declared : Model.Enumeration}
    {bound : Enumeration} (built : Enumeration.ofModel declared = .ok bound) :
    (bound.items.map EnumerationItem.value).Nodup ↔ ¬ bound.RepeatsBit := by
  have kind := kind_eq_bitFlags_iff built
  obtain ⟨wellFormed, same⟩ := ofModel_eq_ok built
  have values : bound.items.map EnumerationItem.value =
      declared.items.map Model.EnumerationItem.value := by
    rw [same, List.map_map]
    rfl
  constructor
  · intro distinct repeats
    obtain ⟨_, position, _, twice⟩ := repeats
    have once := List.nodup_iff_count_le_one.mp (bound.nodup_values_iff.mp distinct) (2 ^ position)
    unfold bitCount at twice
    omega
  · intro apart
    cases flags : declared.isBitFlag with
    | false =>
        rw [values]
        exact wellFormed.distinctValues flags
    | true =>
        -- every value is a bit, so that one found twice is a bit found twice
        rw [nodup_values_iff, List.nodup_iff_count_le_one]
        intro number
        by_contra above
        have member : number ∈ bound.items.map fun item => item.value.toInt % 2 ^ 32 := by
          apply List.count_pos_iff.mp
          omega
        rw [same, List.map_map] at member
        obtain ⟨item, listed, equal⟩ := List.mem_map.mp member
        obtain ⟨position, within, bit⟩ := (declared.isBitFlag_iff.mp flags).2 item listed
        have numbered : number = 2 ^ position := equal.symm.trans bit
        subst numbered
        exact apart ⟨kind.mpr flags, position, within, by unfold bitCount; omega⟩

/-- In every binding, the values of an enumeration are distinct unless it is a flag set with a bit
that is declared more than once. Nothing keeps such a bit out: a flag set is built exactly if its
names are distinct. -/
theorem item_values_distinct_iff_no_bit_repeated (external : String → Option Nat)
    (libraries : List Model.Library) :
    (∀ bound, build external libraries = .ok bound → ∀ enumeration ∈ bound.enumerations,
      (enumeration.items.map EnumerationItem.value).Nodup ↔ ¬ enumeration.RepeatsBit) ∧
    ∀ library ∈ libraries, ∀ declared ∈ library.enumerations, declared.isBitFlag = true →
      ((∃ bound, Enumeration.ofModel declared = .ok bound) ↔
        (declared.items.map Model.EnumerationItem.boundName).Nodup) := by
  constructor
  · intro bound built enumeration member
    obtain ⟨library, _, _, libraryBuilt⟩ := build_eq_ok built
    obtain ⟨_, _, _, enumerations, _⟩ := Library.ofModel_eq_ok libraryBuilt
    obtain ⟨declared, _, enumerationBuilt⟩ := exists_mem_of_forall₂ enumerations member
    exact Enumeration.nodup_values_iff_of_ofModel enumerationBuilt
  · intro library _ declared _ flags
    rw [Enumeration.exists_ofModel_iff]
    constructor
    · intro wellFormed
      exact wellFormed.distinctNames
    · intro names
      have several := (declared.isBitFlag_iff.mp flags).1
      refine ⟨?_, ?_, names⟩
      · intro empty
        simp [empty] at several
      · intro plain
        simp [flags] at plain

/-- A flag set in which one bit has two names. -/
def colors : Model.Enumeration where
  name := "Color"
  items := [⟨"RED", 1⟩, ⟨"CRIMSON", 1⟩]

/-- A library with this flag set and a plain enumeration. -/
def paintLibrary : Model.Library where
  name := "Thermo"
  uuid := ⟨List.replicate 16 40, rfl⟩
  enumerations := [colors, ⟨"Phase", [⟨"VAPOR", 0⟩, ⟨"LIQUID", 1⟩]⟩]

/-- The values of the flag set repeat, and those of the plain enumeration do not. -/
theorem item_values_distinct_iff_no_bit_repeated_paintLibrary :
    (∃ bound, build (fun _ => none) [paintLibrary] = .ok bound ∧
      (∃ enumeration ∈ bound.enumerations, enumeration.RepeatsBit) ∧
      ∀ enumeration ∈ bound.enumerations,
        (enumeration.items.map EnumerationItem.value).Nodup ↔ ¬ enumeration.RepeatsBit) ∧
    colors.isBitFlag = true ∧ ∃ bound, Enumeration.ofModel colors = .ok bound := by
  obtain ⟨distinct, accepted⟩ :=
    item_values_distinct_iff_no_bit_repeated (fun _ => none) [paintLibrary]
  have built : build (fun _ => none) [paintLibrary] = .ok _ := rfl
  have flags : colors.isBitFlag = true := rfl
  have accepts := accepted paintLibrary List.mem_cons_self colors List.mem_cons_self flags
  refine ⟨⟨_, built, ?_, distinct _ built⟩, flags, accepts.mpr (by decide)⟩
  exact ⟨_, List.mem_cons_self, rfl, 0, by decide, by decide⟩

/-- A flag set that is built although a bit is repeated. -/
theorem item_values_repeated_paintLibrary :
    ∃ bound, build (fun _ => none) [paintLibrary] = .ok bound ∧
      ∃ enumeration ∈ bound.enumerations, enumeration.kind = .bitFlags ∧
        ¬ (enumeration.items.map EnumerationItem.value).Nodup := by
  exact ⟨_, rfl, _, List.mem_cons_self, rfl, by decide⟩

end Binding

namespace Source

/-- The line declares the item, and its literal reads as the single bit of the item. -/
def ShowsFlag (item : Model.EnumerationItem) (line : String) : Prop :=
  ∃ literal bit, line = "\t\tconst " ++ item.boundName ++ " = 0x" ++ literal ++ ";" ∧
    Text.readNumeral? 16 literal.toList = some bit ∧ item.value.toInt % 2 ^ 32 = bit ∧
    ∃ position < 32, bit = 2 ^ position

namespace FlagSet

/-- The line of a flag. -/
def flagLine (flag : String × Nat) : String :=
  "\t\tconst " ++ flag.1 ++ " = 0x" ++ Text.hexadecimal flag.2 ++ ";"

/-- The lines of a flag set, without the breaks after them. -/
def lines (set : FlagSet) : List String :=
  "bitflags! \x7b" :: "\t#[derive(Clone, Copy, Debug, PartialEq, Eq, Hash)]" ::
    ("\tpub struct " ++ set.name ++ ": u32 \x7b") ::
      (set.flags.map flagLine ++ ["\t\x7d", "\x7d", ""])

/-- The text of a flag set is that of its lines. -/
theorem unlines_lines (set : FlagSet) : Text.unlines set.lines = set.text := by
  have opening :
      "bitflags! \x7b\n\t#[derive(Clone, Copy, Debug, PartialEq, Eq, Hash)]\n\tpub struct " =
      "bitflags! \x7b" ++ ("\n" ++ ("\t#[derive(Clone, Copy, Debug, PartialEq, Eq, Hash)]" ++
        ("\n" ++ "\tpub struct "))) := by decide
  have brace : ": u32 \x7b\n" = ": u32 \x7b" ++ "\n" := by decide
  have closing : Text.unlines ["\t\x7d", "\x7d", ""] = "\t\x7d\n\x7d\n\n" := by decide
  have flags : Text.unlines (set.flags.map flagLine) = String.join (set.flags.map flagText) := by
    have ending : ";" ++ "\n" = ";\n" := by decide
    have each : (fun flag => flagLine flag ++ "\n") = flagText := by
      funext flag
      simp only [flagLine, flagText, String.append_assoc, ending]
    rw [Text.unlines, List.map_map, ← each]
    rfl
  unfold lines text
  rw [opening, brace, Text.unlines_cons, Text.unlines_cons, Text.unlines_cons,
    Text.unlines_append, flags, closing]
  simp only [String.append_assoc]

/-- The lines that start like a flag are those of the flags. -/
theorem filter_lines (set : FlagSet) :
    set.lines.filter (Text.startsWith "\t\tconst ") = set.flags.map flagLine := by
  have head : Text.startsWith "\t\tconst " ("\tpub struct " ++ set.name ++ ": u32 \x7b") =
      false := by
    simp [Text.startsWith, List.isPrefixOf]
  have kept : (set.flags.map flagLine).filter (Text.startsWith "\t\tconst ") =
      set.flags.map flagLine := by
    apply Text.filter_startsWith_map
    intro flag
    simp only [flagLine, String.append_assoc, Text.startsWith_append]
  have tail : ["\t\x7d", "\x7d", ""].filter (Text.startsWith "\t\tconst ") = [] := by
    decide
  unfold lines
  rw [List.filter_cons_of_neg (by decide), List.filter_cons_of_neg (by decide),
    List.filter_cons_of_neg (by simp [head]), List.filter_append, kept, tail, List.append_nil]

theorem isUnbroken_hexadecimal (number : Nat) : Text.IsUnbroken (Text.hexadecimal number) := by
  apply Spelled.ofList
  intro character member
  obtain ⟨digit, listed, rfl⟩ := List.mem_map.mp member
  have each : ∀ digit < 16, Text.digitCharacter digit ≠ '\n' ∧
      Text.digitCharacter digit ≠ '\r' := by decide
  exact each digit (Text.lt_of_mem_digitsWithin (by decide) listed)

/-- No line of a flag set is broken, if its names are not. -/
theorem isUnbroken_lines {set : FlagSet} (name : Text.IsUnbroken set.name)
    (flags : ∀ flag ∈ set.flags, Text.IsUnbroken flag.1) :
    ∀ line ∈ set.lines, Text.IsUnbroken line := by
  unfold lines
  simp only [List.forall_mem_cons, List.forall_mem_append, List.forall_mem_map]
  refine ⟨by decide, by decide, (Text.IsUnbroken.append (by decide) name).append (by decide), ?_,
    by decide⟩
  intro flag member
  exact (((Text.IsUnbroken.append (by decide) (flags flag member)).append (by decide)).append
    (isUnbroken_hexadecimal flag.2)).append (by decide)

end FlagSet

/-- The line of a flag shows the name and the bit. -/
theorem showsFlag_flagLine {item : Model.EnumerationItem} (flag : Model.IsFlag item.value) :
    ShowsFlag item (FlagSet.flagLine (item.boundName, item.value.toUInt32.toNat)) := by
  refine ⟨Text.hexadecimal item.value.toUInt32.toNat, item.value.toUInt32.toNat, rfl, ?_,
    Model.toInt_emod item.value, (Model.isFlag_iff item.value).mp flag⟩
  rw [Text.hexadecimal, String.toList_ofList]
  exact Text.readNumeral?_numeral (by decide) (by decide) _

/-- The text of a flag set lists the items that were declared. -/
theorem lists_flags {declared : Model.Enumeration} {bound : Binding.Enumeration}
    (built : Binding.Enumeration.ofModel declared = .ok bound)
    (each : ∀ item ∈ declared.items, Model.IsFlag item.value) :
    Text.Lists "\t\tconst " ShowsFlag declared.items
      (bound.name :: bound.items.map Binding.EnumerationItem.name)
      (FlagSet.ofBinding bound).text := by
  rw [← FlagSet.unlines_lines]
  apply Text.lists_unlines
  · obtain ⟨_, rfl⟩ := Binding.Enumeration.ofModel_eq_ok built
    rw [FlagSet.filter_lines]
    simp only [FlagSet.ofBinding, List.map_map, List.forall₂_map_right_iff, List.forall₂_same]
    intro item member
    exact showsFlag_flagLine (each item member)
  · intro unbroken
    rw [List.forall_mem_cons, List.forall_mem_map] at unbroken
    apply FlagSet.isUnbroken_lines unbroken.1
    intro flag member
    obtain ⟨item, listed, rfl⟩ := List.mem_map.mp member
    exact unbroken.2 item listed

/-- An enumeration is a flag set if it has several items and all of them are single bits, of which
the least value is one and zero and the other negative values are none. To find out, nothing is
taken from zero. The text of a flag set then has one line for each item, in order, and its literal
reads as the bit of the item. -/
theorem flag_set_shows_single_bits (declared : Model.Enumeration) :
    (declared.isBitFlag = true ↔
      2 ≤ declared.items.length ∧ ∀ item ∈ declared.items, Model.IsFlag item.value) ∧
    (∀ value : Int32, value.toInt ≤ 0 → (Model.IsFlag value ↔ value = Int32.minValue)) ∧
    declared.isBitFlag? = some declared.isBitFlag ∧
    ∀ bound, Binding.Enumeration.ofModel declared = .ok bound →
      (bound.kind = .bitFlags ↔ declared.isBitFlag = true) ∧
      (bound.kind = .bitFlags → ∀ context,
        Text.Lists "\t\tconst " ShowsFlag declared.items
          (bound.name :: bound.items.map Binding.EnumerationItem.name)
          (EnumerationDefinition.ofBinding context bound).text) := by
  refine ⟨declared.isBitFlag_iff, fun _ => Model.isFlag_iff_of_nonpositive,
    declared.isBitFlag?_eq, ?_⟩
  intro bound built
  have kind := Binding.Enumeration.kind_eq_bitFlags_iff built
  refine ⟨kind, ?_⟩
  intro isFlags context
  have each := (declared.isBitFlag_iff.mp (kind.mp isFlags)).2
  simp only [EnumerationDefinition.ofBinding, isFlags, EnumerationDefinition.text]
  exact lists_flags built each

/-- A flag set with the lowest and the highest bit. -/
def accessModes : Model.Enumeration where
  name := "AccessMode"
  items := [⟨"READ", 1⟩, ⟨"SHARED_WRITE", 1024⟩, ⟨"LOCKED", -2147483648⟩]

/-- A flag set whose text shows each bit once. -/
theorem flag_set_shows_single_bits_accessModes :
    accessModes.isBitFlag = true ∧
    ∃ bound, Binding.Enumeration.ofModel accessModes = .ok bound ∧ bound.kind = .bitFlags ∧
      Text.Lists "\t\tconst " ShowsFlag accessModes.items
        (bound.name :: bound.items.map Binding.EnumerationItem.name)
        (EnumerationDefinition.ofBinding (Options.context {} "Thermo") bound).text := by
  obtain ⟨flags, least, _, shown⟩ := flag_set_shows_single_bits accessModes
  have built : Binding.Enumeration.ofModel accessModes = .ok _ := rfl
  have each : ∀ item ∈ accessModes.items, Model.IsFlag item.value := by
    simp only [accessModes, List.forall_mem_cons]
    refine ⟨⟨0, by decide, by decide⟩, ⟨10, by decide, by decide⟩, ?_, nofun⟩
    exact (least (-2147483648) (by decide)).mpr rfl
  have isFlags := flags.mpr ⟨by decide, each⟩
  obtain ⟨kind, lists⟩ := shown _ built
  exact ⟨isFlags, _, built, kind.mpr isFlags, lists (kind.mpr isFlags) _⟩

end Source

end IdlBindings
