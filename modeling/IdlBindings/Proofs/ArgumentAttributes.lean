import IdlBindings.Proofs.FirstFault

/-
This file shows that the attributes of an argument count as a set of words. Their order, their
repetition and their values have no part in what becomes of the argument.
-/

namespace IdlBindings

/-- The fault lies in the attributes of an argument, and not in its type. -/
def TypeFault.isOfAttributes : TypeFault → Bool
  | .unknownAttribute _ | .direction | .returnWithoutOut => true
  | _ => false

namespace Model.Argument

/-- Every attribute of the argument has one of the known words. -/
def KnownAttributes (argument : Argument) : Prop :=
  ∀ entry ∈ argument.attributes, entry.name ∈ flagWords

/-- Exactly one direction is given, and only an output is returned. -/
structure Directed (argument : Argument) : Prop where
  single : argument.has "in" ≠ argument.has "out"
  returned : argument.has "retval" = true → argument.has "out" = true

/-- The two arguments have the same attributes, but for the one that says nothing. -/
def SameWords (argument other : Argument) : Prop :=
  ∀ word, word ≠ "orphan" → argument.has word = other.has word

/-- A word is an attribute if some entry has it as its name. -/
theorem has_iff {argument : Argument} {word : String} :
    argument.has word = true ↔ ∃ entry ∈ argument.attributes, entry.name = word := by
  simp [has]

/-- Whether the attributes are known depends on their words only. -/
theorem KnownAttributes.of_sameWords {argument other : Argument}
    (known : argument.KnownAttributes) (same : SameWords argument other) :
    other.KnownAttributes := by
  intro entry member
  by_cases orphan : entry.name = "orphan"
  · rw [orphan]
    decide
  · have present : argument.has entry.name = true := by
      rw [same entry.name orphan]
      exact has_iff.mpr ⟨entry, member, rfl⟩
    obtain ⟨source, listed, named⟩ := has_iff.mp present
    rw [← named]
    exact known source listed

/-- No attribute is unknown if all names are known words. -/
theorem filter_unknown_eq_nil_iff {attributes : List Attribute} :
    (attributes.filter fun entry => !flagWords.contains entry.name) = [] ↔
      ∀ entry ∈ attributes, entry.name ∈ flagWords := by
  simp [List.filter_eq_nil_iff]

/-- An argument with an unknown attribute has a first one. -/
theorem exists_first_unknown {argument : Argument} (unknown : ¬ argument.KnownAttributes) :
    ∃ before entry after, argument.attributes = before ++ entry :: after ∧
      (∀ earlier ∈ before, earlier.name ∈ flagWords) ∧ entry.name ∉ flagWords := by
  cases found : argument.attributes.find? fun entry => !flagWords.contains entry.name with
  | none =>
      rw [List.find?_eq_none] at found
      exact absurd (fun entry member => by simpa using found entry member) unknown
  | some entry =>
      obtain ⟨strange, before, after, split, earlier⟩ := List.find?_eq_some_iff_append.mp found
      exact ⟨before, entry, after, split, by simpa using earlier, by simpa using strange⟩

end Model.Argument

namespace Scope

variable (scope : Scope) (owner : Model.Interface)

/-- The faults of a reference do not come from attributes. -/
theorem isOfAttributes_referenceViolations (declared : String) (found : Nat) :
    ∀ fault ∈ scope.referenceViolations declared found, fault.isOfAttributes = false := by
  unfold referenceViolations
  split
  · simp [TypeFault.isOfAttributes]
  · split <;> simp [TypeFault.isOfAttributes]

theorem isOfAttributes_parameterViolations (type : Model.DataType) :
    ∀ fault ∈ parameterViolations owner type, fault.isOfAttributes = false := by
  unfold parameterViolations
  rw [List.forall_mem_append]
  constructor
  · split <;> simp [TypeFault.isOfAttributes]
  · split
    · simp [TypeFault.isOfAttributes]
    · split <;> simp [TypeFault.isOfAttributes]

/-- The faults of a place do not come from attributes, at any depth. -/
theorem isOfAttributes_placeViolations (type : Model.DataType) :
    ∀ fault ∈ scope.placeViolations owner type, fault.isOfAttributes = false := by
  induction type using Model.DataType.induction with
  | step type ih =>
      by_cases isParameter : type.kind = .templateArgument
      · rw [scope.placeViolations_of_templateArgument owner isParameter]
        exact isOfAttributes_parameterViolations owner type
      by_cases isInterface : type.kind = .interface
      · rw [scope.placeViolations_of_interface owner isInterface, List.forall_mem_append]
        refine ⟨scope.isOfAttributes_referenceViolations _ _, ?_⟩
        intro fault member
        obtain ⟨inner, listed, within⟩ := List.mem_flatMap.mp member
        exact ih inner listed fault within
      · rw [scope.placeViolations_of_other owner isParameter isInterface]
        simp [TypeFault.isOfAttributes]

/-- The faults of elements do not come from attributes. -/
theorem isOfAttributes_elementViolations (types : List Model.DataType) :
    ∀ fault ∈ elementViolations types, fault.isOfAttributes = false := by
  unfold elementViolations
  split
  · split <;> simp [TypeFault.isOfAttributes]
  · simp [TypeFault.isOfAttributes]

/-- What is wrong with a type has nothing to do with the attributes. -/
theorem isOfAttributes_typeViolations (direction : Direction) (type : Model.DataType) :
    ∀ fault ∈ scope.typeViolations owner direction type, fault.isOfAttributes = false := by
  unfold typeViolations
  cases type.kind with
  | windowId => cases direction <;> simp [TypeFault.isOfAttributes]
  | arrayEnumeration => exact isOfAttributes_elementViolations type.templateTypes
  | interface => exact scope.isOfAttributes_placeViolations owner type
  | templateArgument => exact scope.isOfAttributes_placeViolations owner type
  | invalid => simp [TypeFault.isOfAttributes]
  | _ => simp

end Scope

namespace Binding.Argument

variable (scope : Scope) (owner : Model.Interface)

/-- The argument is not refused for its attributes. -/
def PassesAttributes (argument : Model.Argument) : Prop :=
  ∀ fault, ofModel scope owner argument = .error fault → fault.isOfAttributes = false

/-- Known attributes set the flags of their words, and no others. -/
theorem addAll_of_known {argument : Model.Argument} (known : argument.KnownAttributes) :
    ArgumentFlags.addAll {} argument.attributes =
      .ok ⟨argument.has "in", argument.has "out", argument.has "retval"⟩ := by
  have reports := ArgumentFlags.addAll_reports {} argument.attributes
  cases result : ArgumentFlags.addAll {} argument.attributes with
  | ok flags => rw [ArgumentFlags.addAll_argument result]
  | error fault =>
      have first := (reports.eq_error_iff fault).mp result
      rw [Model.Argument.filter_unknown_eq_nil_iff.mpr known] at first
      cases first

/-- Two arguments with the same attributes, up to order, repetition and values, end alike. -/
theorem ofModel_eq_of_sameWords {argument other : Model.Argument} (name : argument.name = other.name)
    (dataType : argument.dataType = other.dataType) (known : argument.KnownAttributes)
    (same : argument.SameWords other) : ofModel scope owner argument = ofModel scope owner other := by
  have knownOther := known.of_sameWords same
  unfold ofModel
  rw [addAll_of_known known, addAll_of_known knownOther, same "in" (by decide),
    same "out" (by decide), same "retval" (by decide), name, dataType]

/-- With known attributes, an argument passes exactly if it has a direction. -/
theorem passesAttributes_iff_directed {argument : Model.Argument}
    (known : argument.KnownAttributes) :
    PassesAttributes scope owner argument ↔ argument.Directed := by
  have reports := ofModel_reports scope owner argument
  unfold Scope.argumentViolations at reports
  rw [Model.Argument.filter_unknown_eq_nil_iff.mpr known, List.map_nil, List.nil_append] at reports
  constructor
  · intro passes
    have single : argument.has "in" ≠ argument.has "out" := by
      intro same
      have refused : ofModel scope owner argument = .error .direction := by
        rw [reports.eq_error_iff, if_pos same]
        rfl
      cases passes _ refused
    refine ⟨single, fun returned => ?_⟩
    by_contra notOut
    have refused : ofModel scope owner argument = .error .returnWithoutOut := by
      rw [reports.eq_error_iff, if_neg single, if_pos ⟨returned, notOut⟩]
      rfl
    cases passes _ refused
  · intro directed fault refused
    have first := (reports.eq_error_iff fault).mp refused
    have returned : ¬ (argument.has "retval" = true ∧ ¬ argument.has "out" = true) :=
      fun ⟨isReturned, notOut⟩ => notOut (directed.returned isReturned)
    rw [if_neg directed.single, if_neg returned] at first
    exact scope.isOfAttributes_typeViolations owner _ _ fault (List.mem_of_head? first)

/-- The first unknown attribute is the one that is reported. -/
theorem ofModel_of_first_unknown {argument : Model.Argument} {before after : List Model.Attribute}
    {entry : Model.Attribute} (split : argument.attributes = before ++ entry :: after)
    (earlier : ∀ other ∈ before, other.name ∈ Model.flagWords)
    (unknown : entry.name ∉ Model.flagWords) :
    ofModel scope owner argument = .error (.unknownAttribute entry.name) := by
  have none := Model.Argument.filter_unknown_eq_nil_iff.mpr earlier
  rw [(ofModel_reports scope owner argument).eq_error_iff]
  unfold Scope.argumentViolations
  rw [split, List.filter_append, none, List.filter_cons_of_pos (by simpa using unknown)]
  rfl

/-- What becomes of an argument depends on which words are among its attributes, and on nothing
else about them. It is not refused for them exactly if one direction is given and only an output
is returned; a first unknown word is reported whatever else is wrong. -/
theorem argument_decided_by_attribute_words :
    (∀ argument other : Model.Argument, argument.name = other.name →
      argument.dataType = other.dataType → argument.KnownAttributes → argument.SameWords other →
      ofModel scope owner argument = ofModel scope owner other) ∧
    (∀ argument : Model.Argument, argument.KnownAttributes →
      (PassesAttributes scope owner argument ↔ argument.Directed)) ∧
    ∀ argument : Model.Argument, ¬ argument.KnownAttributes →
      ∃ before entry after, argument.attributes = before ++ entry :: after ∧
        (∀ earlier ∈ before, earlier.name ∈ Model.flagWords) ∧ entry.name ∉ Model.flagWords ∧
        ofModel scope owner argument = .error (.unknownAttribute entry.name) := by
  refine ⟨?_, ?_, ?_⟩
  · intro argument other name dataType known same
    exact ofModel_eq_of_sameWords scope owner name dataType known same
  · intro argument known
    exact passesAttributes_iff_directed scope owner known
  · intro argument strange
    obtain ⟨before, entry, after, split, earlier, unknown⟩ :=
      Model.Argument.exists_first_unknown strange
    exact ⟨before, entry, after, split, earlier, unknown,
      ofModel_of_first_unknown scope owner split earlier unknown⟩

/-- An output that is returned, with its attributes in two orders, once repeated and valued. -/
def countArguments : Model.Argument × Model.Argument :=
  (⟨"Count", [⟨"out", none⟩, ⟨"retval", none⟩, ⟨"orphan", none⟩], { kind := .integer }⟩,
    ⟨"Count", [⟨"retval", some "yes"⟩, ⟨"out", none⟩, ⟨"out", some "no"⟩], { kind := .integer }⟩)

/-- Attributes in another order, once repeated and valued, change nothing. -/
theorem argument_decided_by_attribute_words_countArguments :
    countArguments.1.KnownAttributes ∧ countArguments.1.SameWords countArguments.2 ∧
      countArguments.1.Directed ∧
      ∀ scope owner, ofModel scope owner countArguments.1 = ofModel scope owner countArguments.2 ∧
        PassesAttributes scope owner countArguments.1 := by
  have known : countArguments.1.KnownAttributes := by
    simp [countArguments, Model.Argument.KnownAttributes, Model.flagWords]
  have same : countArguments.1.SameWords countArguments.2 := by
    intro word notOrphan
    have silent : ("orphan" == word) = false := beq_eq_false_iff_ne.mpr notOrphan.symm
    simp [countArguments, Model.Argument.has, silent, Bool.or_comm]
  have directed : countArguments.1.Directed := ⟨by decide, by decide⟩
  refine ⟨known, same, directed, fun scope owner => ?_⟩
  obtain ⟨alike, passes, _⟩ := argument_decided_by_attribute_words scope owner
  exact ⟨alike _ _ rfl rfl known same, (passes _ known).mpr directed⟩

end Binding.Argument

end IdlBindings
