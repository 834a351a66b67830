import IdlBindings.Proofs.WellFormed

/-
This file shows that a build fails exactly if some rule is violated, and then with the first
violation in the order of the declarations.
-/

namespace IdlBindings.Binding

/-- The search for a repeated key remembers the keys before it, in whatever order. -/
theorem firstRepeat?_eq_head? {α β : Type} [DecidableEq β] (key : α → β) (seen : List β)
    (earlier entries : List α) (sameKeys : ∀ value, value ∈ seen ↔ value ∈ earlier.map key) :
    firstRepeat? key seen entries =
      (((precededFrom earlier entries).filter fun placed =>
        key placed.2 ∈ placed.1.map key).map Prod.snd).head? := by
  induction entries generalizing seen earlier with
  | nil => rfl
  | cons entry rest ih =>
      rw [firstRepeat?, precededFrom, List.filter_cons]
      by_cases repeats : key entry ∈ seen
      · have listed := (sameKeys (key entry)).mp repeats
        simp [repeats, listed]
      · have unlisted : key entry ∉ earlier.map key := fun listed =>
          repeats ((sameKeys (key entry)).mpr listed)
        have extended : ∀ value, value ∈ key entry :: seen ↔
            value ∈ (earlier ++ [entry]).map key := by
          intro value
          rw [List.mem_cons, sameKeys value, List.map_append, List.mem_append, List.map_singleton,
            List.mem_singleton, or_comm]
        rw [if_neg repeats, ih _ _ extended]
        simp only [unlisted, decide_false, Bool.false_eq_true, if_false]

theorem firstRepeat?_nil {α β : Type} [DecidableEq β] (key : α → β) (entries : List α) :
    firstRepeat? key [] entries = (repeated key entries).head? :=
  firstRepeat?_eq_head? key [] [] entries (by simp)

/-- The first repeat is found in mapped entries where it is found in the entries. -/
theorem firstRepeat?_map {α β γ : Type} [DecidableEq γ] (transform : α → β) (key : β → γ)
    (seen : List γ) (entries : List α) :
    firstRepeat? key seen (entries.map transform) =
      (firstRepeat? (fun entry => key (transform entry)) seen entries).map transform := by
  induction entries generalizing seen with
  | nil => rfl
  | cons entry rest ih =>
      rw [List.map_cons, firstRepeat?, firstRepeat?, ih]
      split <;> rfl

/-- A repeated value counts unless the enumeration is a flag set. -/
theorem repeatedValue?_eq_head? (enumeration : Model.Enumeration) :
    Enumeration.repeatedValue? enumeration =
      (if enumeration.isBitFlag then []
        else repeated Model.EnumerationItem.value enumeration.items).head? := by
  unfold Enumeration.repeatedValue? Enumeration.kindOf
  cases enumeration.isBitFlag with
  | true => rfl
  | false => exact firstRepeat?_nil Model.EnumerationItem.value enumeration.items

/-- Building an enumeration reports its violations. -/
theorem Enumeration.ofModel_reports (enumeration : Model.Enumeration) :
    Reports enumeration.violations (Enumeration.ofModel enumeration) := by
  have values : (if enumeration.isBitFlag then []
        else (repeated Model.EnumerationItem.value enumeration.items).map fun item =>
          BuildFault.repeatedValue enumeration.name item.value) =
      (if enumeration.isBitFlag then []
        else repeated Model.EnumerationItem.value enumeration.items).map fun item =>
          BuildFault.repeatedValue enumeration.name item.value := by
    split <;> rfl
  have names : firstRepeat? EnumerationItem.name []
        (enumeration.items.map EnumerationItem.ofModel) =
      (repeated Model.EnumerationItem.boundName enumeration.items).head?.map
        EnumerationItem.ofModel := by
    rw [firstRepeat?_map]
    exact congrArg _ (firstRepeat?_nil Model.EnumerationItem.boundName enumeration.items)
  unfold Enumeration.ofModel Model.Enumeration.violations
  rw [values, repeatedValue?_eq_head?, List.append_assoc]
  simp only [names, List.isEmpty_iff]
  refine .check fun _ => ?_
  generalize (if enumeration.isBitFlag then []
    else repeated Model.EnumerationItem.value enumeration.items) = sameValues
  cases sameValues with
  | cons item rest => exact .error _ _
  | nil =>
      cases repeated Model.EnumerationItem.boundName enumeration.items with
      | cons item rest => exact .error _ _
      | nil => exact .ok _

/-- An attribute names a method on its own exactly when it violates no rule on its own. -/
theorem MethodNames.ofAttribute_reports (interface : String) (method : Model.Method)
    (naming : Model.Attribute) :
    Reports (method.attributeViolations interface [] naming)
      (MethodNames.ofAttribute interface method naming) := by
  unfold Model.Method.attributeViolations MethodNames.ofAttribute
  by_cases isGet : naming.name = "property_get"
  · simp [isGet, Model.Attribute.isNaming, Model.namingWords, Reports]
  by_cases isSet : naming.name = "property_set"
  · simp [isSet, Model.Attribute.isNaming, Model.namingWords, Reports]
  by_cases isLong : naming.name = "long_name"
  · cases naming.value <;>
      simp [isLong, Model.Attribute.isNaming, Model.namingWords, Reports]
  · simp [isGet, isSet, isLong, Model.Attribute.isNaming, Model.namingWords, Reports]

/-- The names are chosen by one attribute after the other. -/
theorem MethodNames.ofAttributes_cons (interface : String) (method : Model.Method)
    (chosen : Option MethodNames) (naming : Model.Attribute) (rest : List Model.Attribute) :
    MethodNames.ofAttributes interface method chosen (naming :: rest) =
      (MethodNames.ofAttribute interface method naming >>= fun names =>
        if chosen.isSome then .error (.conflictingNames interface method.name)
        else MethodNames.ofAttributes interface method (some names) rest) := by
  rw [ofAttributes]
  cases MethodNames.ofAttribute interface method naming <;> rfl

/-- An attribute conflicts with the earlier ones only if it names the method itself. -/
theorem attributeViolations_append (interface : String) (method : Model.Method)
    (earlier : List Model.Attribute) (naming : Model.Attribute) :
    method.attributeViolations interface earlier naming =
      method.attributeViolations interface [] naming ++
        if naming.isNaming ∧ earlier.any Model.Attribute.isNaming then
          [.conflictingNames interface method.name] else [] := by
  simp [Model.Method.attributeViolations]

/-- A name has been chosen exactly if some earlier attribute names the method. -/
theorem MethodNames.ofAttributes_reports (interface : String) (method : Model.Method)
    (chosen : Option MethodNames) (earlier attributes : List Model.Attribute)
    (tracked : chosen.isSome = earlier.any Model.Attribute.isNaming) :
    Reports ((precededFrom earlier attributes).flatMap fun placed =>
        method.attributeViolations interface placed.1 placed.2)
      (MethodNames.ofAttributes interface method chosen attributes) := by
  induction attributes generalizing chosen earlier with
  | nil => exact .ok _
  | cons naming rest ih =>
      rw [precededFrom, List.flatMap_cons, ofAttributes_cons, attributeViolations_append,
        List.append_assoc]
      refine (ofAttribute_reports interface method naming).bind fun names named => ?_
      have nothing : method.attributeViolations interface [] naming = [] :=
        (ofAttribute_reports interface method naming).eq_nil_of_ok named
      have isNaming : naming.isNaming = true := by
        by_contra other
        simp [Model.Method.attributeViolations, other] at nothing
      rw [tracked]
      simp only [isNaming, true_and]
      refine .check fun _ => ih (some names) (earlier ++ [naming]) ?_
      simp [isNaming]

/-- Naming a method reports its violations. -/
theorem MethodNames.ofMethod_reports (interface : String) (method : Model.Method) :
    Reports (method.namingViolations interface) (MethodNames.ofMethod interface method) :=
  ofAttributes_reports interface method none [] method.attributes rfl

/-- A naming attribute decides how the name is adjusted. -/
theorem MethodNames.ofAttribute_adjusted {interface : String} {method : Model.Method}
    {naming : Model.Attribute} {names : MethodNames}
    (named : MethodNames.ofAttribute interface method naming = .ok names) :
    names.adjusted =
      if naming.name = "property_get" then "Get" ++ method.name
      else if naming.name = "property_set" then "Set" ++ method.name
      else naming.value.getD method.name := by
  unfold ofAttribute at named
  simp only [beq_iff_eq] at named
  by_cases isGet : naming.name = "property_get"
  · rw [if_pos isGet] at named ⊢
    cases named
    rfl
  rw [if_neg isGet] at named ⊢
  by_cases isSet : naming.name = "property_set"
  · rw [if_pos isSet] at named ⊢
    cases named
    rfl
  rw [if_neg isSet] at named ⊢
  by_cases isLong : naming.name = "long_name"
  · rw [if_pos isLong] at named
    cases value : naming.value with
    | none =>
        rw [value] at named
        cases named
    | some longName =>
        rw [value] at named
        cases named
        rfl
  · rw [if_neg isLong] at named
    cases named

/-- The chosen name is the one its single attribute gives, or the declared name. -/
theorem MethodNames.ofMethod_adjusted {interface : String} {method : Model.Method}
    {names : MethodNames} (named : MethodNames.ofMethod interface method = .ok names) :
    names.adjusted = method.adjustedName := by
  have wellNamed : method.WellNamed := by
    rw [← method.namingViolations_eq_nil_iff interface]
    exact (ofMethod_reports interface method).eq_nil_of_ok named
  obtain ⟨name, attributes, returnType, arguments⟩ := method
  match attributes with
  | [] =>
      cases named
      rfl
  | [naming] =>
      have word : naming.isNaming = true := by
        simpa [Model.Attribute.isNaming] using wellNamed.naming naming List.mem_cons_self
      simp only [ofMethod, ofAttributes_cons] at named
      obtain ⟨chosen, given, same⟩ := bind_eq_ok_iff.mp named
      cases same
      simp only [Model.Method.adjustedName, List.find?_cons, word]
      exact ofAttribute_adjusted given
  | first :: second :: rest =>
      have short := wellNamed.single
      simp at short

/-- A known word raises its own flag; any other is refused. -/
theorem ArgumentFlags.add_eq (flags : ArgumentFlags) (word : String) :
    flags.add word =
      if Model.flagWords.contains word then
        .ok ⟨flags.input || word == "in", flags.output || word == "out",
          flags.returned || word == "retval"⟩
      else .error (.unknownAttribute word) := by
  unfold add
  by_cases isIn : word = "in"
  · simp [isIn, Model.flagWords]
  by_cases isOut : word = "out"
  · simp [isOut, Model.flagWords]
  by_cases isReturned : word = "retval"
  · simp [isReturned, Model.flagWords]
  by_cases isOrphan : word = "orphan"
  · simp [isOrphan, Model.flagWords]
  · simp [isIn, isOut, isReturned, isOrphan, Model.flagWords]

/-- The unknown attributes of an argument are found in their order. -/
theorem ArgumentFlags.addAll_reports (flags : ArgumentFlags) (attributes : List Model.Attribute) :
    Reports ((attributes.filter fun entry => !Model.flagWords.contains entry.name).map
        fun entry => TypeFault.unknownAttribute entry.name)
      (flags.addAll attributes) := by
  induction attributes generalizing flags with
  | nil => exact .ok _
  | cons entry rest ih =>
      rw [addAll, add_eq, List.filter_cons]
      cases Model.flagWords.contains entry.name with
      | true => exact ih _
      | false => exact .error _ _

/-- A flag is up in the end if it was up before or its word is among the attributes. -/
theorem ArgumentFlags.addAll_eq_ok {flags result : ArgumentFlags}
    {attributes : List Model.Attribute} (added : flags.addAll attributes = .ok result) :
    result = ⟨flags.input || attributes.any fun entry => entry.name == "in",
      flags.output || attributes.any fun entry => entry.name == "out",
      flags.returned || attributes.any fun entry => entry.name == "retval"⟩ := by
  induction attributes generalizing flags with
  | nil =>
      cases added
      simp
  | cons entry rest ih =>
      rw [addAll, add_eq] at added
      cases known : Model.flagWords.contains entry.name with
      | true =>
          rw [known] at added
          simpa [List.any_cons, Bool.or_assoc] using ih added
      | false =>
          rw [known] at added
          cases added

/-- The flags of an argument are its attributes. -/
theorem ArgumentFlags.addAll_argument {argument : Model.Argument} {flags : ArgumentFlags}
    (added : ArgumentFlags.addAll {} argument.attributes = .ok flags) :
    flags = ⟨argument.has "in", argument.has "out", argument.has "retval"⟩ := by
  simpa [Model.Argument.has] using addAll_eq_ok added

/-- The direction is reported unless there is exactly one, as is a return that is no output. -/
theorem ArgumentFlags.direction_reports (flags : ArgumentFlags) :
    Reports ((if flags.input = flags.output then [TypeFault.direction] else []) ++
        if flags.returned ∧ ¬ flags.output then [.returnWithoutOut] else [])
      flags.direction := by
  unfold direction
  refine .check fun _ => ?_
  cases flags.returned <;> cases flags.output <;> simp [Reports]

/-- The direction that the flags give. -/
theorem ArgumentFlags.direction_eq_ok {flags : ArgumentFlags} {direction : Direction}
    (directed : flags.direction = .ok direction) :
    direction = (if flags.output then .output else .input) ∧
      (flags.returned = true → direction = .output) := by
  unfold ArgumentFlags.direction at directed
  repeat' split at directed
  all_goals cases directed
  all_goals simp_all

/-- Once a direction is found, it is that of the argument. -/
theorem ArgumentFlags.direction_argument {argument : Model.Argument} {flags : ArgumentFlags}
    {direction : Direction} (added : ArgumentFlags.addAll {} argument.attributes = .ok flags)
    (directed : flags.direction = .ok direction) : direction = argument.direction := by
  rw [(direction_eq_ok directed).1, addAll_argument added]
  rfl

/-- Finding a parameter reports its violations. -/
theorem parameter_reports (owner : Model.Interface) (type : Model.DataType) :
    Reports (Scope.parameterViolations owner type) (Scope.parameter owner type) := by
  obtain ⟨kind, name, index, types⟩ := type
  cases types with
  | cons first rest => exact .error _ _
  | nil =>
      cases index with
      | none => exact .error _ _
      | some index =>
          by_cases inRange : index.toNat < owner.templateArguments.length
          · simp [Scope.parameterViolations, Scope.parameter, inRange, Reports]
          · simp [Scope.parameterViolations, Scope.parameter, inRange, Reports]

/-- Finding an interface reports its violations. -/
theorem filledInterface_reports (scope : Scope) (declared : String) (found : Nat) :
    Reports (scope.referenceViolations declared found) (scope.filledInterface declared found) := by
  rw [Scope.referenceViolations, Scope.filledInterface, Scope.interface_eq]
  cases scope.arityOf? (scope.referred declared) with
  | none => exact .error _ _
  | some expected =>
      by_cases same : expected = found <;> simp [same, Reports]

/-- The resolution of a type meets the violations in pre-order. -/
theorem templateArgument_reports (scope : Scope) (owner : Model.Interface)
    (type : Model.DataType) :
    Reports (scope.placeViolations owner type) (scope.templateArgument owner type) := by
  induction type using Model.DataType.induction with
  | step type ih =>
      by_cases isParameter : type.kind = .templateArgument
      · rw [scope.placeViolations_of_templateArgument owner isParameter,
          scope.templateArgument_of_templateArgument owner isParameter]
        exact (Reports.bind_ok_iff _).mpr (parameter_reports owner type)
      by_cases isInterface : type.kind = .interface
      · rw [scope.placeViolations_of_interface owner isInterface,
          scope.templateArgument_of_interface owner isInterface]
        refine (filledInterface_reports scope _ _).bind fun _ _ => ?_
        exact (Reports.bind_ok_iff _).mpr (Reports.mapM ih)
      · rw [scope.placeViolations_of_other owner isParameter isInterface,
          scope.templateArgument_of_other owner isParameter isInterface]
        exact .error _ _

/-- Resolving elements reports their violations. -/
theorem element_reports (scope : Scope) (types : List Model.DataType) :
    Reports (Scope.elementViolations types) (scope.element types) := by
  match types with
  | [] => exact .error _ _
  | [element] =>
      by_cases isEnumeration : element.kind = .enumeration <;>
        simp [Scope.elementViolations, Scope.element, isEnumeration, Reports]
  | first :: second :: rest => exact .error _ _

/-- Resolving a type reports its violations. -/
theorem argumentType_reports (scope : Scope) (owner : Model.Interface) (direction : Direction)
    (type : Model.DataType) :
    Reports (scope.typeViolations owner direction type)
      (scope.argumentType owner direction type) := by
  unfold Scope.typeViolations Scope.argumentType
  cases kind : type.kind with
  | windowId => cases direction <;> exact rfl
  | arrayEnumeration => exact (Reports.bind_ok_iff _).mpr (element_reports scope _)
  | interface =>
      have inside := templateArgument_reports scope owner type
      rw [scope.templateArgument_eq_object owner kind, Reports.bind_ok_iff] at inside
      exact (Reports.bind_ok_iff _).mpr inside
  | templateArgument =>
      have inside := parameter_reports owner type
      rw [← scope.placeViolations_of_templateArgument owner kind] at inside
      exact (Reports.bind_ok_iff _).mpr inside
  | invalid => exact .error _ _
  | _ => exact .ok _

/-- Building an argument reports its violations. -/
theorem Argument.ofModel_reports (scope : Scope) (owner : Model.Interface)
    (argument : Model.Argument) :
    Reports (scope.argumentViolations owner argument)
      (Argument.ofModel scope owner argument) := by
  unfold Scope.argumentViolations Argument.ofModel
  rw [List.append_assoc, List.append_assoc]
  refine (ArgumentFlags.addAll_reports _ _).bind fun flags added => ?_
  have directed := flags.direction_reports
  rw [ArgumentFlags.addAll_argument added] at directed
  rw [← List.append_assoc, ArgumentFlags.addAll_argument added]
  refine directed.bind fun direction found => ?_
  rw [← ArgumentFlags.addAll_argument added] at found
  rw [ArgumentFlags.direction_argument added found]
  exact (Reports.bind_ok_iff _).mpr (argumentType_reports scope owner _ _)

/-- Building an argument of a method reports its violations with the place of the argument. -/
theorem Method.argumentOfModel_reports (scope : Scope) (owner : Model.Interface)
    (adjustedName : String) (argument : Model.Argument) :
    Reports ((scope.argumentViolations owner argument).map
        (.argument scope.library owner.name adjustedName argument.name))
      (Method.argumentOfModel scope owner adjustedName argument) := by
  have inside := Argument.ofModel_reports scope owner argument
  unfold Method.argumentOfModel
  cases result : Argument.ofModel scope owner argument with
  | ok bound =>
      rw [inside.eq_nil_of_ok result]
      exact .ok _
  | error cause =>
      have listed := (inside.eq_error_iff cause).mp result
      change (List.map _ _).head? = some _
      rw [List.head?_map, listed]
      rfl

/-- Building a method reports its violations. -/
theorem Method.ofModel_reports (scope : Scope) (owner : Model.Interface)
    (method : Model.Method) :
    Reports (scope.methodViolations owner method) (Method.ofModel scope owner method) := by
  unfold Scope.methodViolations Method.ofModel
  rw [List.append_assoc]
  refine (MethodNames.ofMethod_reports owner.name method).bind fun names named => ?_
  rw [← MethodNames.ofMethod_adjusted named]
  have status : Method.returnsStatus method = true ↔
      method.returnType.map Model.DataType.kind = some .result := by
    unfold Method.returnsStatus
    cases method.returnType <;> simp
  by_cases returns : Method.returnsStatus method = true
  · rw [if_pos returns, if_pos (status.mp returns), List.nil_append]
    exact (Reports.bind_ok_iff _).mpr
      (Reports.mapM fun argument _ => argumentOfModel_reports scope owner names.adjusted argument)
  · rw [if_neg returns, if_neg (mt status.mpr returns)]
    exact .error _ _

/-- Building a library reports its violations. -/
theorem Library.ofModel_reports (external : String → Option Nat) (library : Model.Library) :
    Reports (library.violations external) (Library.ofModel external library) := by
  unfold Model.Library.violations Library.ofModel
  refine (Reports.mapM fun enumeration _ => Enumeration.ofModel_reports enumeration).bind
    fun enumerations _ => ?_
  refine (Reports.bind_ok_iff _).mpr (Reports.mapM fun interface _ => ?_)
  exact (Reports.bind_ok_iff _).mpr
    (Reports.mapM fun method _ => Method.ofModel_reports _ interface method)

/-- The build reports the violations of the first library. -/
theorem build_reports (external : String → Option Nat) (libraries : List Model.Library) :
    Reports (violations external libraries) (build external libraries) := by
  cases libraries with
  | nil => exact .error _ _
  | cons library rest => exact Library.ofModel_reports external library

/-- A build fails exactly if there is no library or the first one breaks a rule, and its fault
is the first violation in the order of the declarations. -/
theorem build_fails_with_first_violation (external : String → Option Nat)
    (libraries : List Model.Library) :
    ((∃ fault, build external libraries = .error fault) ↔
      libraries = [] ∨
        ∃ library rest, libraries = library :: rest ∧ ¬ library.WellFormed external) ∧
    ∀ fault, build external libraries = .error fault ↔
      (violations external libraries).head? = some fault := by
  refine ⟨?_, (build_reports external libraries).eq_error_iff⟩
  rw [(build_reports external libraries).exists_error_iff]
  cases libraries with
  | nil => simp [violations]
  | cons library rest =>
      rw [violations, ne_eq, library.violations_eq_nil_iff external]
      constructor
      · intro broken
        exact .inr ⟨library, rest, rfl, broken⟩
      · rintro (none | ⟨_, _, same, broken⟩)
        · cases none
        · cases same
          exact broken

end IdlBindings.Binding
