import IdlBindings.Binding.Encoding
import IdlBindings.Proofs.BindingInvariant
import IdlBindings.Proofs.UuidText

/-
This file shows that the encoding of a binding loses nothing: two bindings whose encodings are the
same JSON value are the same binding.
-/

namespace IdlBindings

namespace Json

/-- Two JSON values are alike if they differ at most in the order of members: an object is known by
what it gives for each key. -/
inductive Alike : Json → Json → Prop
  | refl (value : Json) : Alike value value
  | array {elements others : List Json} (each : List.Forall₂ Alike elements others) :
      Alike (array elements) (array others)
  | object {members others : List (String × Json)}
      (each : ∀ key : String, Option.Rel Alike (members.lookup key) (others.lookup key)) :
      Alike (object members) (object others)

/-- A constructor without content is its bare name. -/
def variant (tag : String) : Option Json → Json
  | none => string tag
  | some content => tagged tag content

namespace Alike

theorem string_eq {left right : String} (alike : Alike (string left) (string right)) :
    left = right := by
  cases alike
  rfl

theorem integer_eq {left right : Int} (alike : Alike (integer left) (integer right)) :
    left = right := by
  cases alike
  rfl

theorem boolean_eq {left right : Bool} (alike : Alike (boolean left) (boolean right)) :
    left = right := by
  cases alike
  rfl

/-- Arrays that are alike have elements that are alike. -/
theorem elements {left right : List Json} (alike : Alike (.array left) (.array right)) :
    List.Forall₂ Alike left right := by
  cases alike with
  | refl => exact List.forall₂_same.mpr fun value _ => refl value
  | array each => exact each

/-- Objects that are alike have members that are alike under every key. -/
theorem members {left right : List (String × Json)} (alike : Alike (.object left) (.object right))
    (key : String) : Option.Rel Alike (left.lookup key) (right.lookup key) := by
  cases alike with
  | refl =>
      cases left.lookup key with
      | none => exact .none
      | some value => exact .some (refl value)
  | object each => exact each key

/-- What two objects give for a key is alike. -/
theorem member {left right : List (String × Json)} (alike : Alike (.object left) (.object right))
    (key : String) {value other : Json} (leftMember : left.lookup key = some value)
    (rightMember : right.lookup key = some other) : Alike value other := by
  have related := alike.members key
  rw [leftMember, rightMember] at related
  cases related with
  | some inner => exact inner

/-- Lists are encoded element by element. -/
theorem list_eq {α : Type} {encode : α → Json} {left right : List α}
    (alike : Alike (.array (left.map encode)) (.array (right.map encode)))
    (each : ∀ value ∈ left, ∀ other, Alike (encode value) (encode other) → value = other) :
    left = right := by
  have related := alike.elements
  rw [List.forall₂_map_left_iff, List.forall₂_map_right_iff] at related
  have equal : List.Forall₂ (fun value other => value = other) left right :=
    forall₂_of_mem related fun value other member same => each value member other same
  rwa [List.forall₂_eq_eq_eq] at equal

/-- Lists of texts that are alike are equal. -/
theorem texts_eq {left right : List String} (alike : Alike (texts left) (texts right)) :
    left = right := alike.list_eq fun _ _ _ same => same.string_eq

/-- Tagged values that are alike have one tag, and contents that are alike. -/
theorem tagged_eq {tag other : String} {left right : Json}
    (alike : Alike (tagged tag left) (tagged other right)) : tag = other ∧ Alike left right := by
  have related := alike.members tag
  by_cases same : tag = other
  · subst same
    simp only [List.lookup_cons_self] at related
    cases related with
    | some inner => exact ⟨rfl, inner⟩
  · have different : (tag == other) = false := by simpa using same
    simp only [List.lookup_cons_self, List.lookup_cons, different, List.lookup_nil] at related
    nomatch related

/-- Variants that are alike have one tag, and contents that are alike, if any. -/
theorem variant_eq {tag other : String} {left right : Option Json}
    (alike : Alike (variant tag left) (variant other right)) :
    tag = other ∧ Option.Rel Alike left right := by
  cases left with
  | none =>
      cases right with
      | none => exact ⟨alike.string_eq, .none⟩
      | some content => nomatch alike
  | some value =>
      cases right with
      | none => nomatch alike
      | some content =>
          obtain ⟨sameTag, inner⟩ := alike.tagged_eq
          exact ⟨sameTag, .some inner⟩

/-- Optional values are equal if their encodings are alike and tell values apart. -/
theorem option_eq {α : Type} {encode : α → Json} {left right : Option α}
    (alike : Option.Rel Alike (left.map encode) (right.map encode))
    (each : ∀ value other, Alike (encode value) (encode other) → value = other) :
    left = right := by
  cases left with
  | none =>
      cases right with
      | none => rfl
      | some _ => nomatch alike
  | some value =>
      cases right with
      | none => nomatch alike
      | some other =>
          cases alike with
          | some inner => rw [each value other inner]

end Alike

end Json

open Json (Alike)

attribute [ext] ScopedName ObjectType Model.Category Binding.EnumerationItem Binding.Enumeration
  Binding.Argument Binding.Method Binding.Interface Binding.Library

/-- The text of a UUID tells UUIDs apart. -/
theorem Uuid.text_injective : Function.Injective Uuid.text := by
  intro left right same
  have parsed := left.parse_text
  rw [same, right.parse_text] at parsed
  exact (Except.ok.inj parsed).symm

/-- Every kind has a word of its own. -/
theorem Model.Kind.word_injective : Function.Injective Model.Kind.word := by
  intro left right same
  have read := ofWord?_word left
  rw [same, ofWord?_word right] at read
  exact (Option.some.inj read).symm

/-- An origin is determined by its encoding. -/
theorem Origin.eq_of_alike {left right : Origin} (alike : Alike left.toJson right.toJson) :
    left = right := by
  cases left with
  | own =>
      cases right with
      | own => rfl
      | wellKnown _ _ | foreign _ => nomatch alike
  | wellKnown space aliasName =>
      cases right with
      | own => nomatch alike
      | foreign _ => exact absurd alike.tagged_eq.1 (by decide)
      | wellKnown otherSpace otherAlias =>
          have content := alike.tagged_eq.2
          have spaces := (content.member "namespace" rfl rfl).string_eq
          have aliases := (content.member "alias" rfl rfl).string_eq
          rw [spaces, aliases]
  | foreign space =>
      cases right with
      | own => nomatch alike
      | wellKnown _ _ => exact absurd alike.tagged_eq.1 (by decide)
      | foreign otherSpace =>
          have content := alike.tagged_eq.2
          have spaces := (content.member "namespace" rfl rfl).string_eq
          rw [spaces]

/-- A scoped name is determined by its encoding. -/
theorem ScopedName.eq_of_alike {left right : ScopedName}
    (alike : Alike left.toJson right.toJson) : left = right := by
  apply ScopedName.ext
  · exact Origin.eq_of_alike (alike.member "origin" rfl rfl)
  · exact (alike.member "name" rfl rfl).string_eq

/-- A reference to an enumeration is determined by its encoding. -/
theorem EnumerationReference.eq_of_alike {left right : EnumerationReference}
    (alike : Alike left.toJson right.toJson) : left = right := by
  cases left with
  | generic =>
      cases right with
      | generic => rfl
      | named _ => nomatch alike
  | named name =>
      cases right with
      | generic => nomatch alike
      | named other => rw [ScopedName.eq_of_alike alike.tagged_eq.2]

/-- A kind of type and what it refers to are encoded together. -/
theorem EnumerationReference.kind_eq_of_alike {left right : Model.Kind}
    {reference other : Option EnumerationReference}
    (alike : Alike (Json.variant left.word (reference.map toJson))
      (Json.variant right.word (other.map toJson))) : left = right ∧ reference = other := by
  obtain ⟨words, contents⟩ := alike.variant_eq
  exact ⟨Model.Kind.word_injective words, Json.Alike.option_eq contents fun _ _ => eq_of_alike⟩

namespace ScalarType

/-- The enumeration that a scalar is of, if it is of one. -/
def reference? : ScalarType → Option EnumerationReference
  | enumeration reference => some reference
  | _ => none

/-- A scalar is written as the word of its kind with its enumeration. -/
theorem toJson_eq_variant (type : ScalarType) : type.toJson =
    Json.variant type.kind.word (type.reference?.map EnumerationReference.toJson) := by
  cases type <;> rfl

/-- A scalar is determined by its kind and its enumeration. -/
theorem eq_of_kind_eq {left right : ScalarType} (kinds : left.kind = right.kind)
    (references : left.reference? = right.reference?) : left = right := by
  cases left <;> cases right <;> simp_all [kind, reference?]

theorem eq_of_alike {left right : ScalarType} (alike : Alike left.toJson right.toJson) :
    left = right := by
  rw [toJson_eq_variant, toJson_eq_variant] at alike
  obtain ⟨kinds, references⟩ := EnumerationReference.kind_eq_of_alike alike
  exact eq_of_kind_eq kinds references

end ScalarType

namespace CarriedType

/-- The enumeration that the elements are of, if they are of one. -/
def element? : CarriedType → Option EnumerationReference
  | arrayEnumeration element => some element
  | _ => none

/-- A carried type is written as the word of its kind with the enumeration of its elements. -/
theorem toJson_eq_variant (type : CarriedType) : type.toJson =
    Json.variant type.kind.word (type.element?.map EnumerationReference.toJson) := by
  cases type <;> rfl

/-- A carried type is determined by its kind and the enumeration of its elements. -/
theorem eq_of_kind_eq {left right : CarriedType} (kinds : left.kind = right.kind)
    (elements : left.element? = right.element?) : left = right := by
  cases left <;> cases right <;> simp_all [kind, element?]

theorem eq_of_alike {left right : CarriedType} (alike : Alike left.toJson right.toJson) :
    left = right := by
  rw [toJson_eq_variant, toJson_eq_variant] at alike
  obtain ⟨kinds, elements⟩ := EnumerationReference.kind_eq_of_alike alike
  exact eq_of_kind_eq kinds elements

end CarriedType

/-- An interface of an object is determined by its encoding. -/
theorem ObjectInterface.eq_of_alike {left right : ObjectInterface}
    (alike : Alike left.toJson right.toJson) : left = right := by
  cases left with
  | base =>
      cases right with
      | base => rfl
      | named _ => nomatch alike
  | named name =>
      cases right with
      | base => nomatch alike
      | named other => rw [ScopedName.eq_of_alike alike.tagged_eq.2]

namespace TemplateArgument

/-- Template arguments are written one by one. -/
theorem listToJson_eq_map (arguments : List TemplateArgument) :
    listToJson arguments = arguments.map toJson := by
  induction arguments with
  | nil => rw [listToJson, List.map_nil]
  | cons argument rest ih => rw [listToJson, List.map_cons, ih]

theorem toJson_parameter (name : String) :
    (parameter name).toJson = .tagged "parameter" (.string name) := by
  rw [toJson]

/-- An object is encoded the same way, wherever it stands. -/
theorem toJson_object (interface : ObjectInterface) (arguments : List TemplateArgument) :
    (object interface arguments).toJson =
      .tagged "object" (ObjectType.toJson ⟨interface, arguments⟩) := by
  rw [toJson, ObjectType.toJson]

end TemplateArgument

/-- The arguments of two objects are the same if that is known of each. -/
theorem ObjectType.eq_of_alike_of_each {left right : ObjectType}
    (alike : Alike left.toJson right.toJson)
    (each : ∀ argument ∈ left.arguments, ∀ other : TemplateArgument,
      Alike argument.toJson other.toJson → argument = other) : left = right := by
  apply ObjectType.ext
  · exact ObjectInterface.eq_of_alike (alike.member "interface" rfl rfl)
  · have contents := alike.member "template_args" rfl rfl
    rw [TemplateArgument.listToJson_eq_map, TemplateArgument.listToJson_eq_map] at contents
    exact contents.list_eq each

/-- A template argument is determined by its encoding, at any depth. -/
theorem TemplateArgument.eq_of_alike {left right : TemplateArgument}
    (alike : Alike left.toJson right.toJson) : left = right := by
  induction left using TemplateArgument.induction generalizing right with
  | parameterCase name =>
      cases right with
      | parameter other =>
          rw [toJson_parameter, toJson_parameter] at alike
          rw [alike.tagged_eq.2.string_eq]
      | object _ _ =>
          rw [toJson_parameter, toJson_object] at alike
          exact absurd alike.tagged_eq.1 (by decide)
  | objectCase interface arguments ih =>
      cases right with
      | parameter _ =>
          rw [toJson_object, toJson_parameter] at alike
          exact absurd alike.tagged_eq.1 (by decide)
      | object otherInterface otherArguments =>
          rw [toJson_object, toJson_object] at alike
          have same := ObjectType.eq_of_alike_of_each alike.tagged_eq.2
            fun argument member other => @ih argument member other
          cases same
          rfl

/-- An object type is determined by its encoding. -/
theorem ObjectType.eq_of_alike {left right : ObjectType}
    (alike : Alike left.toJson right.toJson) : left = right :=
  eq_of_alike_of_each alike fun _ _ _ => TemplateArgument.eq_of_alike

/-- The type of an argument is determined by its encoding. -/
theorem ArgumentType.eq_of_alike {left right : ArgumentType}
    (alike : Alike left.toJson right.toJson) : left = right := by
  cases left with
  | scalar type =>
      cases right with
      | scalar other => rw [ScalarType.eq_of_alike alike.tagged_eq.2]
      | carried _ | object _ | parameter _ _ => exact absurd alike.tagged_eq.1 (by decide)
  | carried type =>
      cases right with
      | carried other => rw [CarriedType.eq_of_alike alike.tagged_eq.2]
      | scalar _ | object _ | parameter _ _ => exact absurd alike.tagged_eq.1 (by decide)
  | object type =>
      cases right with
      | object other => rw [ObjectType.eq_of_alike alike.tagged_eq.2]
      | scalar _ | carried _ | parameter _ _ => exact absurd alike.tagged_eq.1 (by decide)
  | parameter index name =>
      cases right with
      | parameter otherIndex otherName =>
          have content := alike.tagged_eq.2
          have indices := (content.member "index" rfl rfl).integer_eq
          have names := (content.member "name" rfl rfl).string_eq
          rw [Int.ofNat.inj indices, names]
      | scalar _ | carried _ | object _ => exact absurd alike.tagged_eq.1 (by decide)

/-- Every direction has a word of its own. -/
theorem Direction.word_injective : Function.Injective Direction.word := by
  intro left right same
  cases left <;> cases right <;> simp [word] at same ⊢

namespace Binding

/-- Every kind of enumeration has a word of its own. -/
theorem EnumerationKind.word_injective : Function.Injective EnumerationKind.word := by
  intro left right same
  cases left <;> cases right <;> simp [word] at same ⊢

theorem EnumerationItem.eq_of_alike {left right : EnumerationItem}
    (alike : Alike left.toJson right.toJson) : left = right := by
  apply EnumerationItem.ext
  · exact (alike.member "idl_name" rfl rfl).string_eq
  · exact (alike.member "name" rfl rfl).string_eq
  · exact Int32.toInt_inj.mp (alike.member "value" rfl rfl).integer_eq

/-- An enumeration is determined by its encoding. -/
theorem Enumeration.eq_of_alike {left right : Enumeration}
    (alike : Alike left.toJson right.toJson) : left = right := by
  apply Enumeration.ext
  · exact (alike.member "name" rfl rfl).string_eq
  · exact EnumerationKind.word_injective (alike.member "kind" rfl rfl).string_eq
  · exact (alike.member "items" rfl rfl).list_eq fun _ _ _ => EnumerationItem.eq_of_alike

/-- An argument is determined by its encoding. -/
theorem Argument.eq_of_alike {left right : Argument} (alike : Alike left.toJson right.toJson) :
    left = right := by
  apply Argument.ext
  · exact (alike.member "idl_name" rfl rfl).string_eq
  · exact (alike.member "name" rfl rfl).string_eq
  · exact Direction.word_injective (alike.member "direction" rfl rfl).string_eq
  · exact (alike.member "retval" rfl rfl).boolean_eq
  · exact ArgumentType.eq_of_alike (alike.member "descriptor" rfl rfl)

/-- A method is determined by its encoding. -/
theorem Method.eq_of_alike {left right : Method} (alike : Alike left.toJson right.toJson) :
    left = right := by
  apply Method.ext
  · exact (alike.member "idl_name" rfl rfl).string_eq
  · exact (alike.member "adjusted_name" rfl rfl).string_eq
  · exact (alike.member "rust_name" rfl rfl).string_eq
  · exact (alike.member "raw_slot" rfl rfl).string_eq
  · exact (alike.member "native_symbol" rfl rfl).string_eq
  · exact (alike.member "arguments" rfl rfl).list_eq fun _ _ _ => Argument.eq_of_alike

/-- An interface is determined by its encoding. -/
theorem Interface.eq_of_alike {left right : Interface} (alike : Alike left.toJson right.toJson) :
    left = right := by
  apply Interface.ext
  · exact (alike.member "name" rfl rfl).string_eq
  · exact Uuid.text_injective (alike.member "uuid" rfl rfl).string_eq
  · exact (alike.member "smart_name" rfl rfl).string_eq
  · exact (alike.member "template_args" rfl rfl).texts_eq
  · exact (alike.member "methods" rfl rfl).list_eq fun _ _ _ => Method.eq_of_alike

/-- A category is determined by its encoding. -/
theorem Library.category_eq_of_alike {left right : Model.Category}
    (alike : Alike (categoryToJson left) (categoryToJson right)) : left = right := by
  apply Model.Category.ext
  · exact (alike.member "name" rfl rfl).string_eq
  · exact Uuid.text_injective (alike.member "uuid" rfl rfl).string_eq

/-- Two bindings are the same if their encodings differ at most in the order of members. -/
theorem binding_determined_by_encoding {left right : Library}
    (alike : Alike left.toJson right.toJson) : left = right := by
  apply Library.ext
  · exact (alike.member "name" rfl rfl).string_eq
  · exact Uuid.text_injective (alike.member "uuid" rfl rfl).string_eq
  · exact (alike.member "categories" rfl rfl).list_eq fun _ _ _ => Library.category_eq_of_alike
  · exact (alike.member "enumerations" rfl rfl).list_eq fun _ _ _ => Enumeration.eq_of_alike
  · exact (alike.member "interfaces" rfl rfl).list_eq fun _ _ _ => Interface.eq_of_alike
  · exact (alike.member "foreign_namespaces" rfl rfl).texts_eq

/-- One library built with two different lookups gives one binding, as the encodings show. -/
theorem binding_determined_by_encoding_sampleLibrary :
    ∃ left right, build (fun _ => none) [sampleLibrary] = .ok left ∧
      build (fun _ => some 0) [sampleLibrary] = .ok right ∧
      Alike left.toJson right.toJson ∧ left = right :=
  ⟨_, _, rfl, rfl, .refl _, binding_determined_by_encoding (.refl _)⟩

end Binding

end IdlBindings
