import IdlBindings.Document.Encoding
import IdlBindings.Proofs.DeclaredType
import IdlBindings.Proofs.ShortenedJson
import IdlBindings.Proofs.UuidText

/-
This file decodes encoded models again. Every decoder is made of records, lists and optional
values, and each of these has one law.
-/

namespace IdlBindings

namespace Document

open Json (ElementsShortenTo MembersShortenTo)

/-- The decoder gets the result from the value in all its shorter forms, if the allowance lets it go
deep enough. -/
def Reads {Result : Type} (decoder : Decoder Json Result) (value : Json) (result : Result) : Prop :=
  ∀ allowance short, value.ShortensTo short → short.nesting ≤ allowance →
    decoder allowance short = some result

/-- The members of a record in a shorter form, within the allowance that is left for them. -/
structure Fields (members : List (String × Json)) (allowance : Nat)
    (shorter : List (String × Json)) : Prop where
  distinct : (members.map Prod.fst).Nodup
  shortens : MembersShortenTo members shorter
  fits : Json.nestingOfMembers shorter ≤ allowance

variable {Result : Type} {decoder : Decoder Json Result} {value : Json} {result : Result}

namespace Fields

variable {members shorter : List (String × Json)} {allowance : Nat}

/-- A member that never holds a default is always there. -/
theorem required (fields : Fields members allowance shorter) (name : String)
    (found : members.lookup name = some value) (given : value.isDefault = false)
    (reads : Reads decoder value result) :
    required name shorter (decoder allowance) = some result := by
  rcases fields.shortens.lookup fields.distinct found with
    ⟨short, present, shortens⟩ | ⟨_, default⟩
  · rw [Document.required, present]
    exact reads allowance short shortens
      (Nat.le_trans (Json.nesting_le_of_lookup present) fields.fits)
  · rw [given] at default
    cases default

/-- A field that may be left out is read, or has its default. -/
theorem defaulted (fields : Fields members allowance shorter) (name : String) {default : Result}
    (found : members.lookup name = some value)
    (same : value.isDefault = true → default = result) (reads : Reads decoder value result) :
    defaulted name shorter default (decoder allowance) = some result := by
  rcases fields.shortens.lookup fields.distinct found with
    ⟨short, present, shortens⟩ | ⟨absent, isDefault⟩
  · rw [Document.defaulted, present]
    exact reads allowance short shortens
      (Nat.le_trans (Json.nesting_le_of_lookup present) fields.fits)
  · rw [Document.defaulted, absent, same isDefault]

end Fields

namespace Reads

/-- A value without parts is read if the decoder takes it as it is. -/
theorem of_leaf (plain : value.isContainer = false)
    (reads : ∀ allowance, decoder allowance value = some result) : Reads decoder value result := by
  intro allowance short shortens _
  rw [shortens.eq_of_leaf plain]
  exact reads allowance

/-- A record is read if its fields are, from whatever was left of it. -/
theorem record {names : List String} {decode : Nat → List (String × Json) → Option Result}
    {members : List (String × Json)} (keys : members.map Prod.fst = names) (distinct : names.Nodup)
    (given : ("value", .null) ∉ members)
    (decodes : ∀ allowance shorter, Fields members allowance shorter →
      decode allowance shorter = some result) :
    Reads (Json.format.record names decode) (.object members) result := by
  intro allowance short shortens fits
  obtain ⟨shorter, rfl, each⟩ := shortens.exists_object given
  have within : (shorter.map Prod.fst).Sublist names := keys ▸ each.sublist_keys
  have known : shorter.filter (fun member => names.contains member.1) = shorter := by
    rw [List.filter_eq_self]
    intro member listed
    simpa using within.subset (List.mem_map_of_mem listed)
  have found : Json.format.members? names (.object shorter) = some shorter := by
    simp only [Json.format, Json.members?, known, if_pos (within.nodup distinct)]
  rw [Json.nesting] at fits
  obtain ⟨inner, rfl⟩ : ∃ inner, allowance = inner + 1 := ⟨allowance - 1, by omega⟩
  have inside : Json.format.inside? (inner + 1) (.object shorter) = some inner := rfl
  rw [Format.record, inside, found]
  exact decodes inner shorter ⟨keys ▸ distinct, each, by omega⟩

section Entries

variable {α : Type} {element : Decoder Json α} {toJson : α → Json} {entries : List α}

/-- Elements are read one by one. -/
theorem mapM (each : ∀ entry ∈ entries, Reads element (toJson entry) entry) {allowance : Nat}
    {shorter : List Json} (shortens : ElementsShortenTo (entries.map toJson) shorter)
    (fits : Json.nestingOfElements shorter ≤ allowance) :
    shorter.mapM (element allowance) = some entries := by
  induction entries generalizing shorter with
  | nil =>
      cases shortens
      rfl
  | cons entry rest ih =>
      cases shortens with
      | @cons _ first _ others shortensFirst shortensRest =>
          rw [Json.nestingOfElements] at fits
          have head := each entry List.mem_cons_self allowance first shortensFirst (by omega)
          have tail := ih (fun other member => each other (List.mem_cons_of_mem entry member))
            shortensRest (by omega)
          rw [List.mapM_cons, head, tail]
          rfl

/-- A list is read if its entries are. -/
theorem list (each : ∀ entry ∈ entries, Reads element (toJson entry) entry) :
    Reads (Json.format.list element) (.array (entries.map toJson)) entries := by
  intro allowance short shortens fits
  obtain ⟨shorter, rfl, shortensEach⟩ := shortens.exists_array
  rw [Json.nesting] at fits
  obtain ⟨inner, rfl⟩ : ∃ inner, allowance = inner + 1 := ⟨allowance - 1, by omega⟩
  exact mapM each shortensEach (by omega)

end Entries

/-- An optional value is read if the value is. -/
theorem optional {toJson : Result → Json} {option : Option Result}
    (given : ∀ result, (toJson result).isAbsent = false)
    (reads : ∀ result, Reads decoder (toJson result) result) :
    Reads (Json.format.optional decoder) (option.elim .null toJson) option := by
  cases option with
  | none => exact of_leaf rfl fun _ => rfl
  | some result =>
      intro allowance short shortens fits
      have present : Json.format.isAbsent short = false := shortens.isAbsent_eq.trans (given result)
      rw [Format.optional, present, reads result allowance short shortens fits]
      rfl

theorem text (text : String) : Reads Json.format.text (.string text) text :=
  of_leaf rfl fun _ => rfl

/-- A UUID is read from its text. -/
theorem uuid (uuid : Uuid) : Reads Json.format.uuid (.string uuid.text) uuid := by
  refine of_leaf rfl fun allowance => ?_
  have parsed : (Json.format.text? (.string uuid.text)).map Uuid.parse = some (.ok uuid) :=
    congrArg some uuid.parse_text
  rw [Format.uuid, parsed]

theorem kind (kind : Model.Kind) : Reads Json.format.kind (.string kind.word) kind :=
  of_leaf rfl fun _ => kind.ofWord?_word

/-- The value of an item is read from its number. -/
theorem itemValue (value : Int32) : Reads Json.format.itemValue (.integer value.toInt) value := by
  refine of_leaf rfl fun allowance => ?_
  have held : -Int.pow 2 31 ≤ value.toInt ∧ value.toInt < Int.pow 2 31 :=
    ⟨value.le_toInt, value.toInt_lt⟩
  change (if _ then some (Int32.ofInt value.toInt) else none) = _
  rw [if_pos held, Int32.ofInt_toInt]

/-- An index is read from its number. -/
theorem index (index : UInt64) : Reads Json.format.index (.integer index.toNat) index := by
  refine of_leaf rfl fun allowance => ?_
  change (if index.toNat < Nat.pow 2 64 then some (UInt64.ofNat index.toNat) else none) = _
  rw [if_pos index.toNat_lt, UInt64.ofNat_toNat]

end Reads

/-- The three ways in which an attribute is written. -/
theorem shortensTo_attribute {name : String} {held : Option String} {short : Json}
    (shortens : (Model.Attribute.toJson ⟨name, held⟩).ShortensTo short) :
    short = Model.Attribute.toJson ⟨name, held⟩ ∨
      held = none ∧ (short = .object [("name", .string name)] ∨ short = .string name) := by
  have named {short : Json} (shorter : (Json.string name).ShortensTo short) :
      short = .string name := shorter.eq_of_leaf rfl
  cases held with
  | none =>
      change (Json.object [("name", .string name), ("value", .null)]).ShortensTo short at shortens
      cases shortens with
      | leaf plain => cases plain
      | bareName _ => exact .inr ⟨rfl, .inr rfl⟩
      | object each =>
          cases each with
          | leave default _ => cases default
          | keep first rest =>
              obtain rfl := named first
              cases rest with
              | leave _ others =>
                  cases others
                  exact .inr ⟨rfl, .inl rfl⟩
              | keep second others =>
                  obtain rfl := second.eq_of_leaf rfl
                  cases others
                  exact .inl rfl
  | some text =>
      change (Json.object [("name", .string name), ("value", .string text)]).ShortensTo short
        at shortens
      obtain ⟨shorter, rfl, each⟩ := shortens.exists_object (by simp)
      cases each with
      | leave default _ => cases default
      | keep first rest =>
          obtain rfl := named first
          cases rest with
          | leave default _ => cases default
          | keep second others =>
              obtain rfl := second.eq_of_leaf rfl
              cases others
              exact .inl rfl

/-- An attribute is read from its encoding. -/
theorem Reads.attribute (entry : Model.Attribute) :
    Reads Json.format.attribute entry.toJson entry := by
  intro allowance short shortens fits
  obtain ⟨name, held⟩ := entry
  rcases shortensTo_attribute shortens with rfl | ⟨rfl, rfl | rfl⟩
  · obtain ⟨inner, rfl⟩ : ∃ inner, allowance = inner + 1 :=
      ⟨allowance - 1, by rw [Model.Attribute.toJson, Json.nesting] at fits; omega⟩
    cases held <;> rfl
  · obtain ⟨inner, rfl⟩ : ∃ inner, allowance = inner + 1 :=
      ⟨allowance - 1, by rw [Json.nesting] at fits; omega⟩
    rfl
  · rfl

section Fuel

variable {allowance : Nat}

/-- A record is decoded with less than the allowance it is given. -/
theorem record_congr {names : List String}
    {first second : Nat → List (String × Json) → Option Result}
    (same : ∀ inner members, inner < allowance → first inner members = second inner members)
    (node : Json) :
    Json.format.record names first allowance node =
      Json.format.record names second allowance node := by
  cases node with
  | array elements | object members =>
      cases allowance with
      | zero => rfl
      | succ inner =>
          have below : first inner = second inner :=
            funext fun members => same inner members (Nat.lt_succ_self inner)
          change Option.bind _ (first inner) = Option.bind _ (second inner)
          rw [below]
  | _ => rfl

/-- Lists are decoded alike by decoders that agree on what is nested in them. -/
theorem list_congr {first second : Decoder Json Result}
    (same : ∀ inner node, inner < allowance → first inner node = second inner node)
    (node : Json) :
    Json.format.list first allowance node = Json.format.list second allowance node := by
  cases node with
  | array elements =>
      cases allowance with
      | zero => rfl
      | succ inner =>
          have below : first inner = second inner :=
            funext fun node => same inner node (Nat.lt_succ_self inner)
          change elements.mapM (first inner) = elements.mapM (second inner)
          rw [below]
  | object members => cases allowance <;> rfl
  | _ => rfl

/-- Fuel beyond the allowance makes no difference. -/
theorem dataTypeWithin_eq {fuel other : Nat} (enough : allowance < fuel)
    (otherEnough : allowance < other) (node : Json) :
    Json.format.dataTypeWithin fuel allowance node =
      Json.format.dataTypeWithin other allowance node := by
  induction fuel generalizing other allowance node with
  | zero => omega
  | succ fuel ih =>
      obtain ⟨rest, rfl⟩ : ∃ rest, other = rest + 1 := ⟨other - 1, by omega⟩
      rw [Format.dataTypeWithin, Format.dataTypeWithin]
      refine record_congr (fun inner members below => ?_) node
      have types : Json.format.list (Json.format.dataTypeWithin fuel) inner =
          Json.format.list (Json.format.dataTypeWithin rest) inner :=
        funext (list_congr fun innermost node deeper => ih (by omega) (by omega) node)
      rw [types]

/-- The types that fill a type are decoded as the type itself is. -/
theorem dataType_eq (allowance : Nat) (node : Json) :
    Json.format.dataType allowance node =
      Json.format.record ["kind", "name", "template-index", "template-types"]
        (fun inner members => do
          let kind ← required "kind" members (Json.format.kind inner)
          let name ← defaulted "name" members none (Json.format.optional Json.format.text inner)
          let templateIndex ←
            defaulted "template-index" members none
              (Json.format.optional Json.format.index inner)
          let templateTypes ←
            defaulted "template-types" members [] (Json.format.list Json.format.dataType inner)
          return { kind, name, templateIndex, templateTypes }) allowance node := by
  rw [Format.dataType, Format.dataTypeWithin]
  refine record_congr (fun inner members below => ?_) node
  have types : Json.format.list (Json.format.dataTypeWithin allowance) inner =
      Json.format.list Json.format.dataType inner :=
    funext (list_congr fun innermost node deeper =>
      dataTypeWithin_eq (by omega) (Nat.lt_succ_self innermost) node)
  rw [types]

end Fuel

namespace Fields

variable {members shorter : List (String × Json)} {allowance : Nat}

/-- A list that may be left out is read if its entries are. -/
theorem list (fields : Fields members allowance shorter) (name : String) {toJson : Result → Json}
    {entries : List Result} (found : members.lookup name = some (.array (entries.map toJson)))
    (each : ∀ entry ∈ entries, Reads decoder (toJson entry) entry) :
    Document.defaulted name shorter [] (Json.format.list decoder allowance) = some entries := by
  refine fields.defaulted name found ?_ (.list each)
  intro isDefault
  cases entries with
  | nil => rfl
  | cons entry rest => cases isDefault

/-- An optional value that may be left out is read if the value is. -/
theorem optional (fields : Fields members allowance shorter) (name : String)
    {toJson : Result → Json} {option : Option Result}
    (found : members.lookup name = some (option.elim .null toJson))
    (given : ∀ result, (toJson result).isDefault = false)
    (reads : ∀ result, Reads decoder (toJson result) result) :
    Document.defaulted name shorter none (Json.format.optional decoder allowance) =
      some option := by
  have present (result : Result) := Json.isAbsent_eq_false (given result)
  refine fields.defaulted name found ?_ (.optional present reads)
  intro isDefault
  cases option with
  | none => rfl
  | some result =>
      rw [Option.elim_some, given result] at isDefault
      cases isDefault

end Fields

end Document

namespace Model

theorem optionalText_eq_elim (text : Option String) :
    optionalText text = text.elim .null Json.string := by
  cases text <;> rfl

/-- Types are written one by one. -/
theorem DataType.listToJson_eq_map (types : List DataType) :
    listToJson types = types.map toJson := by
  induction types with
  | nil => rfl
  | cons type rest ih => rw [listToJson, ih, List.map_cons]

theorem DataType.toJson_eq (type : DataType) :
    type.toJson = .object [("kind", .string type.kind.word),
      ("name", type.name.elim .null Json.string),
      ("template-index", type.templateIndex.elim .null fun index => .integer index.toNat),
      ("template-types", .array (type.templateTypes.map toJson))] := by
  obtain ⟨kind, name, index, types⟩ := type
  cases index <;> rw [toJson, listToJson_eq_map, optionalText_eq_elim] <;> rfl

/-- A type is never left out. -/
theorem DataType.isDefault_toJson (type : DataType) : type.toJson.isDefault = false := by
  rw [toJson_eq]
  rfl

theorem Method.toJson_eq (method : Method) :
    method.toJson = .object [("name", .string method.name),
      ("attributes", .array (method.attributes.map Attribute.toJson)),
      ("return-type", method.returnType.elim .null DataType.toJson),
      ("arguments", .array (method.arguments.map Argument.toJson))] := by
  obtain ⟨name, attributes, returnType, arguments⟩ := method
  cases returnType <;> rfl

end Model

namespace Document.Reads

/-- A data type is read from its encoding, at any depth. -/
theorem dataType (type : Model.DataType) : Reads Json.format.dataType type.toJson type := by
  induction type using Model.DataType.induction with
  | step type ih =>
      have unfolded := funext fun allowance => funext (dataType_eq allowance)
      rw [unfolded, type.toJson_eq]
      obtain ⟨kind, name, index, types⟩ := type
      refine .record rfl (by decide) (by simp) fun allowance shorter fields => ?_
      have kindField := fields.required "kind" rfl rfl (.kind kind)
      have nameField := fields.optional "name" rfl (fun _ => rfl) .text
      have indexField := fields.optional "template-index" rfl (fun _ => rfl) .index
      have typesField := fields.list "template-types" rfl ih
      simp [kindField, nameField, indexField, typesField]

/-- An argument is read from its encoding. -/
theorem argument (argument : Model.Argument) :
    Reads Json.format.argument argument.toJson argument := by
  refine .record rfl (by decide) (by simp) fun allowance shorter fields => ?_
  have name := fields.required "name" rfl rfl (.text argument.name)
  have attributes := fields.list "attributes" rfl fun entry _ => .attribute entry
  have dataType := fields.required "data-type" rfl (Model.DataType.isDefault_toJson _)
    (.dataType argument.dataType)
  simp [name, attributes, dataType]

/-- A method is read from its encoding. -/
theorem method (method : Model.Method) : Reads Json.format.method method.toJson method := by
  rw [method.toJson_eq]
  refine .record rfl (by decide) (by simp) fun allowance shorter fields => ?_
  have name := fields.required "name" rfl rfl (.text method.name)
  have attributes := fields.list "attributes" rfl fun entry _ => .attribute entry
  have returnType := fields.optional "return-type" rfl Model.DataType.isDefault_toJson .dataType
  have arguments := fields.list "arguments" rfl fun argument _ => .argument argument
  simp [name, attributes, returnType, arguments]

/-- An interface is read from its encoding. -/
theorem interface (interface : Model.Interface) :
    Reads Json.format.interface interface.toJson interface := by
  refine .record rfl (by decide) (by simp) fun allowance shorter fields => ?_
  have name := fields.required "name" rfl rfl (.text interface.name)
  have uuid := fields.required "uuid" rfl rfl (.uuid interface.uuid)
  have templateArguments := fields.list "template-args" rfl fun argument _ => .text argument
  have methods := fields.list "methods" rfl fun method _ => .method method
  simp [name, uuid, templateArguments, methods]

/-- An item is read from its encoding. -/
theorem enumerationItem (item : Model.EnumerationItem) :
    Reads Json.format.enumerationItem item.toJson item := by
  refine .record rfl (by decide) (by simp) fun allowance shorter fields => ?_
  have name := fields.required "name" rfl rfl (.text item.name)
  have value := fields.required "value" rfl rfl (.itemValue item.value)
  simp [name, value]

/-- An enumeration is read from its encoding. -/
theorem enumeration (enumeration : Model.Enumeration) :
    Reads Json.format.enumeration enumeration.toJson enumeration := by
  refine .record rfl (by decide) (by simp) fun allowance shorter fields => ?_
  have name := fields.required "name" rfl rfl (.text enumeration.name)
  have items := fields.list "items" rfl fun item _ => .enumerationItem item
  simp [name, items]

/-- A category is read from its encoding. -/
theorem category (category : Model.Category) :
    Reads Json.format.category category.toJson category := by
  refine .record rfl (by decide) (by simp) fun allowance shorter fields => ?_
  have name := fields.required "name" rfl rfl (.text category.name)
  have uuid := fields.required "uuid" rfl rfl (.uuid category.uuid)
  simp [name, uuid]

/-- A library is read from its encoding. -/
theorem library (library : Model.Library) :
    Reads Json.format.library library.toJson library := by
  refine .record rfl (by decide) (by simp) fun allowance shorter fields => ?_
  have name := fields.required "name" rfl rfl (.text library.name)
  have uuid := fields.required "uuid" rfl rfl (.uuid library.uuid)
  have categories := fields.list "category-ids" rfl fun category _ => .category category
  have enumerations := fields.list "enumerations" rfl fun enumeration _ => .enumeration enumeration
  have interfaces := fields.list "interfaces" rfl fun interface _ => .interface interface
  simp [name, uuid, categories, enumerations, interfaces]

/-- A document is read from its encoding. -/
theorem document (document : Model.Document) :
    Reads Json.format.document document.toJson document := by
  refine .record rfl (by decide) (by simp) fun allowance shorter fields => ?_
  have libraries := fields.list "libraries" rfl fun library _ => .library library
  simp [libraries]

end Document.Reads

namespace Model

/-- A document is what its encoding decodes to. So it is if members that hold their default are left
out of the encoding, and if attributes without a value are written as bare names. The decoder needs
no more allowance than the value goes deep. -/
theorem document_decodes_from_shortened_encoding (document : Document) :
    Document.ofJson? document.toJson = some document ∧
      ∀ value, document.toJson.ShortensTo value →
        Document.ofJson? value = some document ∧
          ∀ allowance, value.nesting ≤ allowance →
            Json.format.document allowance value = some document := by
  have reads := Document.Reads.document document
  refine ⟨reads _ _ (.refl _) (Nat.le_refl _), fun value shortens => ?_⟩
  exact ⟨reads _ value shortens (Nat.le_refl _), fun allowance => reads allowance value shortens⟩

/-- A document with defaults at every level. -/
def sampleDocument : Document where
  libraries := [{
    name := "Thermo"
    uuid := ⟨List.replicate 16 30, rfl⟩
    interfaces := [{
      name := "IThing"
      uuid := ⟨List.replicate 16 31, rfl⟩
      methods := [{
        name := "Name"
        attributes := [⟨"property_get", none⟩]
        returnType := some { kind := .result } }] }] }]

/-- The document with nothing written that can be left out. -/
def sampleValue : Json :=
  .object [("libraries", .array [.object [
    ("name", .string "Thermo"), ("uuid", .string "1e1e1e1e-1e1e-1e1e-1e1e-1e1e1e1e1e1e"),
    ("interfaces", .array [.object [
      ("name", .string "IThing"), ("uuid", .string "1f1f1f1f-1f1f-1f1f-1f1f-1f1f1f1f1f1f"),
      ("methods", .array [.object [
        ("name", .string "Name"), ("attributes", .array [.string "property_get"]),
        ("return-type", .object [("kind", .string "result")])]])]])]])]

theorem sampleDocument_shortensTo : sampleDocument.toJson.ShortensTo sampleValue := by
  refine .object (.keep (.array (.cons (.object ?_) .nil)) .nil)
  refine .keep (.leaf rfl) (.keep (.leaf rfl) (.leave rfl (.leave rfl (.keep (.array
    (.cons (.object ?_) .nil)) .nil))))
  refine .keep (.leaf rfl) (.keep (.leaf rfl) (.leave rfl (.keep (.array
    (.cons (.object ?_) .nil)) .nil)))
  refine .keep (.leaf rfl) (.keep (.array (.cons (.bareName _) .nil)) (.keep (.object ?_)
    (.leave rfl .nil)))
  exact .keep (.leaf rfl) (.leave rfl (.leave rfl (.leave rfl .nil)))

/-- A document with defaults left out at several depths is read as the whole one. -/
theorem document_decodes_from_shortened_encoding_sampleDocument :
    sampleDocument.toJson.ShortensTo sampleValue ∧
      Document.ofJson? sampleDocument.toJson = some sampleDocument ∧
      Document.ofJson? sampleValue = some sampleDocument ∧
      Json.format.document Json.textAllowance sampleValue = some sampleDocument := by
  obtain ⟨whole, shorter⟩ := document_decodes_from_shortened_encoding sampleDocument
  obtain ⟨decoded, within⟩ := shorter sampleValue sampleDocument_shortensTo
  exact ⟨sampleDocument_shortensTo, whole, decoded, within _ (by decide)⟩

end Model

end IdlBindings
