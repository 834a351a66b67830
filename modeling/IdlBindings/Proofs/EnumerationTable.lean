import IdlBindings.Proofs.BindingInvariant
import IdlBindings.Proofs.Contains
import IdlBindings.Proofs.Spelling
import IdlBindings.Proofs.TableReading
import IdlBindings.Source.Enumeration

/-
This file reads the four tables of a plain enumeration out of its text, and compares them with the
declared items.
-/

namespace IdlBindings.Source

/-- The tables as a reader of the text finds them: the variants with their numbers, the list of all
variants with its length, and the arms of the two conversions. -/
structure Tables where
  discriminants : List (String × Int32)
  count : Nat
  values : List String
  numberArms : List (Int32 × String)
  nameArms : List (String × String)
deriving DecidableEq

namespace Tables

/-- The rows of the declaration. -/
def discriminantRow : Text.Row := ⟨"\t", " = ", ","⟩

/-- The arms of the conversion from a number. -/
def numberRow (name : String) : Text.Row := ⟨"\t\t\t", " => Some(" ++ name ++ "::", "),"⟩

/-- The arms of the conversion to a name. -/
def nameRow : Text.Row := ⟨"\t\t\tSelf::", " => \"", "\","⟩

/-- The variants in a list of paths. -/
def variants? (name list : String) : Option (List String) :=
  (Text.split ',' list.toList).mapM fun path =>
    (path.dropPrefix? (name ++ "::").toList).map String.ofList

/-- The text of an enumeration holds these tables. -/
structure ShownBy (tables : Tables) (name text : String) : Prop where
  declaration : ∃ body,
    Text.Contains text ("\npub enum " ++ name ++ " \x7b\n" ++ body ++ "\x7d\n") ∧
      Text.table? (discriminantRow.read? some Text.readInt32?) body = some tables.discriminants
  values : ∃ count list,
    Text.Contains text
      ("\n\tpub const VALUES: [" ++ name ++ "; " ++ count ++ "] = [" ++ list ++ "];\n") ∧
      Text.readNumeral? 10 count.toList = some tables.count ∧
      variants? name list = some tables.values
  ofNumber : ∃ body,
    Text.Contains text
      ("\n\tpub fn from(value: i32) -> Option<" ++ name ++ "> \x7b\n\t\tmatch value \x7b\n" ++ body ++
        "\t\t\t_ => None,\n\t\t\x7d\n\t\x7d\n") ∧
      Text.table? ((numberRow name).read? Text.readInt32? some) body = some tables.numberArms
  toName : ∃ body,
    Text.Contains text
      ("\n\tpub fn as_string(&self) -> &str \x7b\n\t\tmatch self \x7b\n" ++ body ++
        "\t\t\x7d\n\t\x7d\n") ∧
      Text.table? (nameRow.read? some some) body = some tables.nameArms

/-- The number of a variant by the table of discriminants. -/
def number? (tables : Tables) (variant : String) : Option Int32 :=
  tables.discriminants.lookup variant

/-- The first arm that matches decides. -/
def ofNumber? (tables : Tables) (number : Int32) : Option String :=
  tables.numberArms.lookup number

/-- The name of a variant by the table of names. -/
def name? (tables : Tables) (variant : String) : Option String :=
  tables.nameArms.lookup variant

/-- The tables describe the declared items and nothing else. -/
structure Implement (tables : Tables) (items : List Model.EnumerationItem) : Prop where
  declared : tables.discriminants.map Prod.fst = items.map Model.EnumerationItem.boundName
  number : ∀ item ∈ items, tables.number? item.boundName = some item.value
  ofNumber : ∀ item ∈ items, tables.ofNumber? item.value = some item.boundName
  noOther : ∀ number, (∀ item ∈ items, item.value ≠ number) → tables.ofNumber? number = none
  roundTrip : ∀ item ∈ items,
    (tables.number? item.boundName).bind tables.ofNumber? = some item.boundName
  values : tables.values = items.map Model.EnumerationItem.boundName
  distinct : tables.values.Nodup
  count : tables.count = items.length
  named : ∀ item ∈ items, (tables.name? item.boundName).isSome = true
  injective : ∀ item ∈ items, ∀ other ∈ items,
    tables.name? item.boundName = tables.name? other.boundName → item = other

/-- The tables of bound items, each item in every table. -/
def ofItems (items : List Binding.EnumerationItem) : Tables where
  discriminants := items.map fun item => (item.name, item.value)
  count := items.length
  values := items.map Binding.EnumerationItem.name
  numberArms := items.map fun item => (item.value, item.name)
  nameArms := items.map fun item => (item.name, item.name)

/-- An entry is found under its key if no other entry has the key. -/
theorem lookup_map_of_nodup {α κ β : Type} [BEq κ] [LawfulBEq κ] {key : α → κ} (value : α → β)
    {entries : List α} (nodup : (entries.map key).Nodup) {entry : α} (member : entry ∈ entries) :
    (entries.map fun other => (key other, value other)).lookup (key entry) =
      some (value entry) := by
  induction entries with
  | nil => simp at member
  | cons first rest ih =>
      rw [List.map_cons, List.nodup_cons] at nodup
      rcases List.mem_cons.mp member with rfl | later
      · simp
      · have differs : key entry ≠ key first := by
          intro same
          exact nodup.1 (same ▸ List.mem_map_of_mem later)
        rw [List.map_cons, List.lookup_cons, beq_false_of_ne differs]
        exact ih nodup.2 later

/-- Items with values and names of their own are found again in their tables. -/
theorem implement_ofItems {declared : Model.Enumeration} (wellFormed : declared.WellFormed)
    (plain : declared.isBitFlag = false) :
    (ofItems (declared.items.map Binding.EnumerationItem.ofModel)).Implement declared.items := by
  have names := wellFormed.distinctNames
  have found {α : Type} (value : Model.EnumerationItem → α) (item : Model.EnumerationItem)
      (member : item ∈ declared.items) :
      (declared.items.map fun other => (other.boundName, value other)).lookup item.boundName =
        some (value item) :=
    lookup_map_of_nodup value names member
  have ofNumber (item : Model.EnumerationItem) (member : item ∈ declared.items) :
      (declared.items.map fun other => (other.value, other.boundName)).lookup item.value =
        some item.boundName :=
    lookup_map_of_nodup _ (wellFormed.distinctValues plain) member
  -- Binding an item changes its name only, and to the name that the rules speak of.
  have tables : ofItems (declared.items.map Binding.EnumerationItem.ofModel) =
      { discriminants := declared.items.map fun item => (item.boundName, item.value)
        count := declared.items.length
        values := declared.items.map Model.EnumerationItem.boundName
        numberArms := declared.items.map fun item => (item.value, item.boundName)
        nameArms := declared.items.map fun item => (item.boundName, item.boundName) } := by
    simp only [ofItems, List.map_map, List.length_map]
    rfl
  rw [tables]
  constructor
  case declared => simp [Function.comp_def]
  case number => exact found Model.EnumerationItem.value
  case ofNumber => exact ofNumber
  case noOther =>
    intro number absent
    rw [ofNumber?, List.lookup_eq_none_iff]
    intro arm listed
    obtain ⟨item, member, rfl⟩ := List.mem_map.mp listed
    simpa using (absent item member).symm
  case roundTrip =>
    intro item member
    rw [number?, found Model.EnumerationItem.value item member, Option.bind_some]
    exact ofNumber item member
  case values => rfl
  case distinct => exact names
  case count => rfl
  case named =>
    intro item member
    rw [name?, found Model.EnumerationItem.boundName item member]
    rfl
  case injective =>
    intro item member other otherMember same
    rw [name?, name?, found Model.EnumerationItem.boundName item member,
      found Model.EnumerationItem.boundName other otherMember] at same
    exact List.inj_on_of_nodup_map names member otherMember (Option.some.inj same)

end Tables

namespace Tables

theorem plain_discriminantRow : discriminantRow.Plain := by constructor <;> decide

theorem plain_nameRow : nameRow.Plain := by constructor <;> decide

/-- The rows for numbers can be read back if the name of the enumeration is a word. -/
theorem plain_numberRow {name : String} (word : Identifier.IsWord name) :
    (numberRow name).Plain where
  opening := by simp [numberRow]
  separator := by simp [numberRow, word.not_mem (by decide : Identifier.isWordCharacter '\n' = false)]
  closing := by simp [numberRow]
  separates := by simp [numberRow]
  closes := by simp [numberRow]

end Tables

namespace PlainEnumeration

open Tables

/-- A discriminant is written as a row. -/
theorem discriminantText_eq (entry : String × Int) :
    discriminantText entry =
      discriminantRow.text entry.1 (Text.signedDecimal entry.2) ++ "\n" := by
  simp only [discriminantText, Text.Row.text, discriminantRow, String.append_assoc]
  rfl

/-- An arm from a number is written as a row. -/
theorem numberArmText_eq (enumeration : PlainEnumeration) (arm : Int × String) :
    enumeration.numberArmText arm =
      (numberRow enumeration.name).text (Text.signedDecimal arm.1) arm.2 ++ "\n" := by
  simp only [numberArmText, variant, Text.Row.text, numberRow, String.append_assoc]
  rfl

/-- An arm to a name is written as a row. -/
theorem nameArmText_eq (arm : String × String) :
    nameArmText arm = nameRow.text arm.1 arm.2 ++ "\n" := by
  simp only [nameArmText, Text.Row.text, nameRow, String.append_assoc]
  rfl

/-- The parts of the text, one for each definition in it. -/
def parts (enumeration : PlainEnumeration) : List String :=
  [enumeration.declarationText, "impl " ++ enumeration.name ++ " \x7b\n", enumeration.valuesText,
    enumeration.ofNumberText, enumeration.toNameText, enumeration.iterText,
    enumeration.iteratorText, enumeration.displayText]

/-- The text of an enumeration is that of its parts. -/
theorem join_parts (enumeration : PlainEnumeration) :
    String.join enumeration.parts = enumeration.text := by
  simp only [parts, text, String.join_cons, String.join_nil, String.append_empty,
    String.append_assoc]

theorem contains_of_part {enumeration : PlainEnumeration} {part piece : String}
    (member : part ∈ enumeration.parts) (contains : Text.Contains part piece) :
    Text.Contains enumeration.text piece := by
  rw [← join_parts]
  exact (Text.Contains.join member).trans contains

/-- The declaration of the variants stands in the text. -/
theorem contains_declaration (enumeration : PlainEnumeration) :
    Text.Contains enumeration.text
      ("\npub enum " ++ enumeration.name ++ " \x7b\n" ++
        String.join (enumeration.discriminants.map discriminantText) ++ "\x7d\n") := by
  have cut : "#[derive(Debug,PartialEq,Eq,Clone,Copy)]\npub enum " =
      "#[derive(Debug,PartialEq,Eq,Clone,Copy)]" ++ "\npub enum " := by decide
  have ended : "\x7d\n\n" = "\x7d\n" ++ "\n" := by decide
  refine contains_of_part (by simp [parts] : enumeration.declarationText ∈ enumeration.parts) ?_
  refine ⟨"///" ++ enumeration.name ++ "\n///\n///" ++ enumeration.name ++
    " enumeration\n///\n#[repr(i32)]\n" ++ "#[derive(Debug,PartialEq,Eq,Clone,Copy)]", "\n", ?_⟩
  unfold declarationText
  rw [cut, ended]
  simp only [String.append_assoc]

/-- The list of all variants stands in the text. -/
theorem contains_values (enumeration : PlainEnumeration) :
    Text.Contains enumeration.text
      ("\n\tpub const VALUES: [" ++ enumeration.name ++ "; " ++
        Text.decimal enumeration.valueCount ++ "] = [" ++
        String.intercalate "," (enumeration.values.map enumeration.variant) ++ "];\n") := by
  have cut : "\t/// All values, in declaration order\n\tpub const VALUES: [" =
      "\t/// All values, in declaration order" ++ "\n\tpub const VALUES: [" := by decide
  refine contains_of_part (by simp [parts] : enumeration.valuesText ∈ enumeration.parts) ?_
  refine ⟨"\t/// All values, in declaration order", "", ?_⟩
  unfold valuesText
  rw [cut]
  simp only [String.append_assoc, String.append_empty]

/-- The conversion from numbers stands in the text. -/
theorem contains_ofNumber (enumeration : PlainEnumeration) :
    Text.Contains enumeration.text
      ("\n\tpub fn from(value: i32) -> Option<" ++ enumeration.name ++
        "> \x7b\n\t\tmatch value \x7b\n" ++
        String.join (enumeration.numberArms.map enumeration.numberArmText) ++
        "\t\t\t_ => None,\n\t\t\x7d\n\t\x7d\n") := by
  have cut : "\t/// ```\n\tpub fn from(value: i32) -> Option<" =
      "\t/// ```" ++ "\n\tpub fn from(value: i32) -> Option<" := by decide
  refine contains_of_part (by simp [parts] : enumeration.ofNumberText ∈ enumeration.parts) ?_
  unfold ofNumberText
  rw [cut]
  simp only [String.append_assoc]
  -- The documentation stands before the conversion, and the conversion ends the text.
  iterate 15 apply Text.Contains.append_left
  exact ⟨"\t/// ```", "", String.append_empty.symm⟩

/-- The conversion to names stands in the text. -/
theorem contains_toName (enumeration : PlainEnumeration) :
    Text.Contains enumeration.text
      ("\n\tpub fn as_string(&self) -> &str \x7b\n\t\tmatch self \x7b\n" ++
        String.join (enumeration.nameArms.map nameArmText) ++ "\t\t\x7d\n\t\x7d\n") := by
  have cut : "\t/// Convert to string\n\tpub fn as_string(&self) -> &str \x7b\n\t\tmatch self \x7b\n" =
      "\t/// Convert to string" ++
        "\n\tpub fn as_string(&self) -> &str \x7b\n\t\tmatch self \x7b\n" := by decide
  refine contains_of_part (by simp [parts] : enumeration.toNameText ∈ enumeration.parts) ?_
  refine ⟨"\t/// Convert to string", "", ?_⟩
  unfold toNameText
  rw [cut]
  simp only [String.append_assoc, String.append_empty]

section Reading

variable {context : Context} {enumeration : Binding.Enumeration}
  (name : Identifier.IsWord enumeration.name)
  (items : ∀ item ∈ enumeration.items, Identifier.IsWord item.name)

include items

/-- The discriminants are read back from their text. -/
theorem table?_discriminants :
    Text.table? (discriminantRow.read? some Text.readInt32?)
        (String.join ((ofBinding context enumeration).discriminants.map discriminantText)) =
      some (Tables.ofItems enumeration.items).discriminants := by
  simp only [ofBinding, List.map_map, Function.comp_def, discriminantText_eq]
  refine Text.table?_join (fun item member => ?_) fun item member => ?_
  · exact plain_discriminantRow.isLine_text ((items item member).not_mem (by decide))
      (Text.not_mem_signedDecimal _ (by decide) (by decide))
  · exact plain_discriminantRow.read?_text ((items item member).not_mem (by decide)) rfl
      (Text.readInt32?_signedDecimal item.value)

/-- The names of the variants are read back from their text. -/
theorem table?_nameArms :
    Text.table? (nameRow.read? some some)
        (String.join ((ofBinding context enumeration).nameArms.map nameArmText)) =
      some (Tables.ofItems enumeration.items).nameArms := by
  simp only [ofBinding, List.map_map, Function.comp_def, nameArmText_eq]
  refine Text.table?_join (fun item member => ?_) fun item member => ?_
  · have unbroken := (items item member).not_mem (by decide : Identifier.isWordCharacter '\n' = false)
    exact plain_nameRow.isLine_text unbroken unbroken
  · exact plain_nameRow.read?_text ((items item member).not_mem (by decide)) rfl rfl

include name

/-- The conversion from numbers is read back from its text. -/
theorem table?_numberArms :
    Text.table? ((numberRow enumeration.name).read? Text.readInt32? some)
        (String.join ((ofBinding context enumeration).numberArms.map
          (ofBinding context enumeration).numberArmText)) =
      some (Tables.ofItems enumeration.items).numberArms := by
  simp only [ofBinding, List.map_map, Function.comp_def, numberArmText_eq]
  refine Text.table?_join (fun item member => ?_) fun item member => ?_
  · exact (plain_numberRow name).isLine_text (Text.not_mem_signedDecimal _ (by decide) (by decide))
      ((items item member).not_mem (by decide))
  · exact (plain_numberRow name).read?_text (Text.not_mem_signedDecimal _ (by decide) (by decide))
      (Text.readInt32?_signedDecimal item.value) rfl

/-- The list of all variants is read back from its text. -/
theorem variants?_values (inhabited : enumeration.items ≠ []) :
    variants? enumeration.name (String.intercalate ","
        ((ofBinding context enumeration).values.map (ofBinding context enumeration).variant)) =
      some (Tables.ofItems enumeration.items).values := by
  have unlisted (item : Binding.EnumerationItem) (member : item ∈ enumeration.items) :
      ',' ∉ ((ofBinding context enumeration).variant item.name).toList := by
    have inName := name.not_mem (by decide : Identifier.isWordCharacter ',' = false)
    have inItem := (items item member).not_mem (by decide : Identifier.isWordCharacter ',' = false)
    simp [variant, ofBinding, inName, inItem]
  have path (item : Binding.EnumerationItem) :
      ((ofBinding context enumeration).variant item.name).toList.dropPrefix?
          (enumeration.name ++ "::").toList = some item.name.toList := by
    rw [variant, String.toList_append]
    exact List.dropPrefix?_eq_some_iff.mpr ⟨_, rfl, beq_self_eq_true _⟩
  rw [variants?, String.toList_intercalate]
  change (Text.split ',' ([','].intercalate _)).mapM _ = _
  rw [Text.split_intercalate]
  · simp only [ofBinding, List.map_map, List.mapM_map]
    refine Text.mapM_eq_some_map fun item _ => ?_
    have read := path item
    simp only [ofBinding] at read
    simp only [Function.comp_apply, read, Option.map_some, String.ofList_toList]
  · simpa [ofBinding] using inhabited
  · simpa [ofBinding] using unlisted

/-- The text of a plain enumeration holds the tables of its items. -/
theorem shownBy_ofBinding (inhabited : enumeration.items ≠ []) :
    (Tables.ofItems enumeration.items).ShownBy enumeration.name
      (ofBinding context enumeration).text where
  declaration := by
    have contains := contains_declaration (ofBinding context enumeration)
    exact ⟨_, contains, table?_discriminants items⟩
  values := by
    have contains := contains_values (ofBinding context enumeration)
    have counted := Text.readNumeral?_numeral (by decide : 2 ≤ 10) (by decide)
      enumeration.items.length
    rw [← String.toList_ofList (l := Text.numeral 10 enumeration.items.length)] at counted
    exact ⟨_, _, contains, counted, variants?_values name items inhabited⟩
  ofNumber := by
    have contains := contains_ofNumber (ofBinding context enumeration)
    exact ⟨_, contains, table?_numberArms name items⟩
  toName := by
    have contains := contains_toName (ofBinding context enumeration)
    exact ⟨_, contains, table?_nameArms items⟩

end Reading

end PlainEnumeration

/-- A plain enumeration is written as such. -/
theorem EnumerationDefinition.text_of_plain {context : Context} {enumeration : Binding.Enumeration}
    (plain : enumeration.kind = .plain) :
    (ofBinding context enumeration).text = (PlainEnumeration.ofBinding context enumeration).text := by
  rw [ofBinding, plain]
  rfl

/-- Identifiers are bound to words. -/
theorem isWord_of_ofModel {declared : Model.Enumeration} {bound : Binding.Enumeration}
    (built : Binding.Enumeration.ofModel declared = .ok bound)
    (name : Identifier.isIdentifier declared.name = true)
    (items : ∀ item ∈ declared.items, Identifier.isIdentifier item.name = true) :
    Identifier.IsWord bound.name ∧ ∀ item ∈ bound.items, Identifier.IsWord item.name := by
  obtain ⟨_, rfl⟩ := Binding.Enumeration.ofModel_eq_ok built
  refine ⟨.of_isIdentifier name, List.forall_mem_map.mpr fun item member => ?_⟩
  exact (Identifier.IsWord.of_isIdentifier (items item member)).escape_camelCase

/-- A plain enumeration is written as the table that was declared: read back from the text, its
numbers and its two conversions are those of the declared items, for every number of thirty-two
bits, and the list of its values is complete and in order. -/
theorem plain_enumeration_implements_declared_table {declared : Model.Enumeration}
    {bound : Binding.Enumeration} (built : Binding.Enumeration.ofModel declared = .ok bound)
    (plain : bound.kind = .plain) (name : Identifier.isIdentifier declared.name = true)
    (items : ∀ item ∈ declared.items, Identifier.isIdentifier item.name = true)
    (context : Context) :
    ∃ tables : Tables,
      tables.ShownBy declared.name (EnumerationDefinition.ofBinding context bound).text ∧
        tables.Implement declared.items := by
  obtain ⟨wellFormed, shape⟩ := Binding.Enumeration.ofModel_eq_ok built
  have sameName : bound.name = declared.name := by rw [shape]
  have sameItems : bound.items = declared.items.map Binding.EnumerationItem.ofModel := by rw [shape]
  have notFlags : declared.isBitFlag = false := by
    by_contra flags
    simp [shape, Binding.Enumeration.kindOf, flags] at plain
  obtain ⟨word, words⟩ := isWord_of_ofModel built name items
  have inhabited : bound.items ≠ [] := by simpa [sameItems] using wellFormed.inhabited
  have shown : (Tables.ofItems bound.items).ShownBy bound.name
      (PlainEnumeration.ofBinding context bound).text :=
    PlainEnumeration.shownBy_ofBinding word words inhabited
  rw [EnumerationDefinition.text_of_plain plain, ← sameName]
  exact ⟨_, shown, sameItems ▸ Tables.implement_ofItems wellFormed notFlags⟩

/-- A negative number, a reserved word and a name in parts. -/
def sampleEnumeration : Model.Enumeration where
  name := "Status"
  items := [⟨"OK", 0⟩, ⟨"WARNING_LEVEL", 7⟩, ⟨"self", -2147483648⟩]

/-- The tables of the sample are read back from its text. -/
theorem plain_enumeration_implements_declared_table_sampleEnumeration :
    ∃ bound, Binding.Enumeration.ofModel sampleEnumeration = .ok bound ∧ bound.kind = .plain ∧
      Identifier.isIdentifier sampleEnumeration.name = true ∧
      (∀ item ∈ sampleEnumeration.items, Identifier.isIdentifier item.name = true) ∧
      ∃ tables : Tables,
        tables.ShownBy "Status"
          (EnumerationDefinition.ofBinding (({} : Options).context "Thermo") bound).text ∧
          tables.Implement sampleEnumeration.items := by
  have built : Binding.Enumeration.ofModel sampleEnumeration = .ok _ := rfl
  have items : ∀ item ∈ sampleEnumeration.items, Identifier.isIdentifier item.name = true := by
    decide
  exact ⟨_, built, rfl, rfl, items,
    plain_enumeration_implements_declared_table built rfl rfl items _⟩

end IdlBindings.Source
