import IdlBindings.Proofs.FunctionText

/-
This file cuts the text of a trampoline into its lines, and says which of them a call executes.
-/

namespace IdlBindings.Source

/-- A line of a trampoline, or a few of them that belong together, told by the names in it. -/
inductive Line where
  | signature (declared : Signature)
  | guard (names : List String)
  | entry
  | inputView (name view : String)
  | outputView (name view raw : String)
  | handle (name type : String)
  | parameter (name type object label : String)
  | storage (name raw initial : String)
  | enumeration (name type label : String)
  | call (operation : String) (passed : List String)
  | nothingToStore
  | bindings (pattern : String)
  | store (name conversion : String)
  | stored
  | failure (label : String)
deriving DecidableEq

namespace Line

/-- The refusal of null pointers; there is none if nothing is guarded. -/
def guardText (names : List String) : String :=
  if names.isEmpty then ""
  else "\t\tif " ++ String.intercalate "||" (names.map fun name => name ++ ".is_null()") ++
    " \x7b\n\t\t\treturn COBIAERR_NULLPOINTER;\n\t\t\x7d\n"

/-- The line that calls the operation. -/
def callText (operation : String) (passed : List String) : String :=
  "\t\tmatch myself." ++ operation ++ "(" ++ String.intercalate "," passed ++ ") \x7b\n"

/-- The line as it is written. -/
def text : Line → String
  | signature declared => declared.text
  | guard names => guardText names
  | entry => "\t\tlet p = me as *mut Self::T;\n\t\tlet myself=unsafe \x7b &mut *p \x7d;\n"
  | inputView name view => "\t\tlet " ++ name ++ "=" ++ view ++ "::new(&" ++ name ++ ");\n"
  | outputView name view raw =>
      "\t\tlet mut " ++ name ++ "=unsafe\x7b*((&" ++ name ++ " as *const *mut " ++ raw ++
        ") as *mut *mut " ++ raw ++ ")\x7d;\n\t\tlet mut " ++ name ++ "=" ++ view ++
        "::new(&mut " ++ name ++ ");\n"
  | handle name type =>
      "\t\tlet " ++ name ++ "=" ++ type ++ "::from_interface_pointer(" ++ name ++ ");\n"
  | parameter name type object label =>
      "\t\tlet " ++ name ++ "=match " ++ type ++ "::from_object(&" ++ object ++
        "::from_interface_pointer(" ++ name ++ ")) \x7b\n\t\t\tOk(_" ++ name ++ ") => _" ++ name ++
        ",\n\t\t\tErr(e) => \x7breturn myself.set_last_error(e,\"" ++ label ++
        "\");\x7d\n\t\t\x7d;\n"
  | storage name raw initial =>
      "\t\tlet mut _" ++ name ++ ":" ++ raw ++ "=" ++ initial ++ ";\n"
  | enumeration name type label =>
      "\t\tlet " ++ name ++ "=match " ++ type ++ "::from(" ++ name ++ ") \x7b\n\t\t\tSome(_" ++
        name ++ ") => _" ++ name ++
        ",\n\t\t\tNone => \x7breturn myself.set_last_error(COBIAError::Message(\"" ++
        "Invalid enumeration value" ++ "\".to_string()),\"" ++ label ++ "\");\x7d\n\t\t\x7d;\n"
  | call operation passed => callText operation passed
  | nothingToStore => "\t\t\tOk(_) => COBIAERR_NOERROR,\n"
  | bindings pattern => "\t\t\tOk(" ++ pattern ++ ") => \x7b\n"
  | store name conversion =>
      "\t\t\t\tunsafe\x7b*" ++ name ++ "=_" ++ name ++ conversion ++ ";\x7d\n"
  | stored => "\t\t\t\tCOBIAERR_NOERROR\n\t\t\t\x7d,\n"
  | failure label =>
      "\t\t\tErr(e) => myself.set_last_error(e,\"" ++ label ++ "\")\n\t\t\x7d\n\t\x7d\n\n"

/-- The line that a preparation is written as. -/
def ofPreparation (label : String) : Preparation → Line
  | .inputView name view => inputView name view
  | .outputView name view raw => outputView name view raw
  | .handle name type => handle name type
  | .parameter name type object => parameter name type object label
  | .storage name raw initial => storage name raw initial
  | .enumeration name type => enumeration name type label

/-- A preparation is written as its line. -/
theorem text_ofPreparation (label : String) (step : Preparation) :
    (ofPreparation label step).text = step.text label := by
  cases step <;> rfl

/-- The guard is written as its line. -/
theorem text_guard (names : List String) :
    (guard names).text = Trampoline.guardText "\t\t" names := by
  have opened : "\t\tif " = "\t\t" ++ "if " := by decide
  have ended : " \x7b\n\t\t\treturn COBIAERR_NULLPOINTER;\n\t\t\x7d\n" =
      " \x7b\n" ++ "\t\t" ++ "\treturn " ++ nullPointer ++ ";\n" ++ "\t\t" ++ "\x7d\n" := by decide
  unfold text guardText Trampoline.guardText
  rewrite [opened, ended]
  simp only [String.append_assoc]

/-- The use of a pointer: its name, and the code that reads or writes through it, or makes a handle
of it. -/
structure Use where
  name : String
  code : String

/-- The pointers that a line uses. -/
def uses : Line → List Use
  | outputView name _ raw =>
      [⟨name, "unsafe\x7b*((&" ++ name ++ " as *const *mut " ++ raw ++ ") as *mut *mut " ++ raw ++
        ")\x7d;"⟩]
  | handle name type => [⟨name, type ++ "::from_interface_pointer(" ++ name ++ ")"⟩]
  | parameter name _ object _ => [⟨name, object ++ "::from_interface_pointer(" ++ name ++ ")"⟩]
  | store name conversion => [⟨name, "unsafe\x7b*" ++ name ++ "=_" ++ name ++ conversion ++ ";\x7d"⟩]
  | _ => []

/-- The names of the pointers that a line uses. -/
def touched (line : Line) : List String := line.uses.map Use.name

/-- Whatever a line does with a pointer stands in its text. -/
theorem contains_use {line : Line} {use : Use} (member : use ∈ line.uses) :
    Text.Contains line.text use.code := by
  unfold uses at member
  split at member
  case h_1 name view raw =>
    obtain rfl := List.mem_singleton.mp member
    have cut : ")\x7d;\n\t\tlet mut " = ")\x7d;" ++ "\n\t\tlet mut " := by decide
    have opened : "=unsafe\x7b*((&" = "=" ++ "unsafe\x7b*((&" := by decide
    unfold text
    rewrite [cut, opened]
    exact ⟨"\t\tlet mut " ++ name ++ "=", _, by simp only [String.append_assoc]; rfl⟩
  case h_2 name type =>
    obtain rfl := List.mem_singleton.mp member
    have cut : ");\n" = ")" ++ ";\n" := by decide
    unfold text
    rewrite [cut]
    exact ⟨"\t\tlet " ++ name ++ "=", ";\n", by simp only [String.append_assoc]⟩
  case h_3 name type object label =>
    obtain rfl := List.mem_singleton.mp member
    have cut : ")) \x7b\n\t\t\tOk(_" = ")" ++ ") \x7b\n\t\t\tOk(_" := by decide
    unfold text
    rewrite [cut]
    exact ⟨"\t\tlet " ++ name ++ "=match " ++ type ++ "::from_object(&", _,
      by simp only [String.append_assoc]; rfl⟩
  case h_4 name conversion =>
    obtain rfl := List.mem_singleton.mp member
    have opened : "\t\t\t\tunsafe\x7b*" = "\t\t\t\t" ++ "unsafe\x7b*" := by decide
    have cut : ";\x7d\n" = ";\x7d" ++ "\n" := by decide
    unfold text
    rewrite [opened, cut]
    exact ⟨"\t\t\t\t", "\n", by simp only [String.append_assoc]⟩
  case h_5 => cases member

/-- A guard asks of each of its names whether it is null. -/
theorem contains_isNull {names : List String} {name : String} (member : name ∈ names) :
    Text.Contains (guard names).text (name ++ ".is_null()") := by
  have listed : Text.Contains
      (String.intercalate "||" (names.map fun name => name ++ ".is_null()")) (name ++ ".is_null()") :=
    Text.Contains.intercalate (List.mem_map_of_mem member)
  show Text.Contains (guardText names) _
  unfold guardText
  rw [if_neg (by simpa using List.ne_nil_of_mem member)]
  exact (listed.append_left _).append_right _

/-- A guard lets a call pass if none of its pointers is null. -/
def Passes (null : String → Prop) : Line → Prop
  | guard names => ∀ name ∈ names, ¬ null name
  | _ => True

/-- The name of the pointer that a line stores through. -/
def storedName? : Line → Option String
  | store name _ => some name
  | _ => none

end Line

namespace Trampoline

/-- The lines before the call is made, and the call itself. -/
def opening (trampoline : Trampoline) : List Line :=
  .signature trampoline.signature :: .guard trampoline.guarded :: .entry ::
    (trampoline.preparations.map (.ofPreparation trampoline.label) ++
      [.call trampoline.operation (trampoline.arguments.map CallArgument.text)])

/-- The lines for a call that succeeds. -/
def success (trampoline : Trampoline) : List Line :=
  if trampoline.stores.isEmpty then [.nothingToStore]
  else
    .bindings (tuplePattern trampoline.bindings) ::
      ((trampoline.stores.map fun write => .store write.name write.conversion) ++ [.stored])

/-- The line for a call that fails. -/
def failure (trampoline : Trampoline) : List Line := [.failure trampoline.label]

/-- All lines of a trampoline. -/
def lines (trampoline : Trampoline) : List Line :=
  trampoline.opening ++ trampoline.success ++ trampoline.failure

/-- The success arm is written by its lines. -/
theorem join_success (trampoline : Trampoline) :
    String.join (trampoline.success.map Line.text) = trampoline.successText := by
  have done : "\t\t\tOk(_) => COBIAERR_NOERROR,\n" = "\t\t\tOk(_) => " ++ noError ++ ",\n" := by decide
  have ended : "\t\t\t\tCOBIAERR_NOERROR\n\t\t\t\x7d,\n" =
      "\t\t\t\t" ++ noError ++ "\n\t\t\t\x7d,\n" := by decide
  have written : (trampoline.stores.map fun write => (Line.store write.name write.conversion).text) =
      trampoline.stores.map Store.text := rfl
  unfold success successText
  cases trampoline.stores.isEmpty with
  | true =>
      simp only [if_true, List.map_cons, List.map_nil, String.join_cons, String.join_nil,
        String.append_empty]
      exact done
  | false =>
      simp only [Bool.false_eq_true, if_false, List.map_cons, List.map_append, List.map_map,
        Function.comp_def, List.map_nil, String.join_cons, String.join_append, String.join_nil,
        written]
      unfold Line.text
      dsimp only
      rewrite [ended]
      simp only [String.append_assoc, String.append_empty]

theorem join_preparations (trampoline : Trampoline) :
    String.join (trampoline.preparations.map fun step =>
        (Line.ofPreparation trampoline.label step).text) =
      String.join (trampoline.preparations.map (Preparation.text trampoline.label)) := by
  simp only [Line.text_ofPreparation]

/-- The signature is written as the first line. -/
theorem text_signature (trampoline : Trampoline) :
    trampoline.signature.text = "\textern \"C\" fn " ++ trampoline.symbol ++
      "(me: *mut std::ffi::c_void" ++ String.join (trampoline.parameters.map RawParameter.text) ++
      ") -> " ++ trampoline.status ++ " \x7b\n" := by
  unfold Signature.text signature
  rw [parameterList_raw]

/-- The text of a trampoline is that of its lines, one after the other. -/
theorem join_lines (trampoline : Trampoline) :
    String.join (trampoline.lines.map Line.text) = trampoline.text := by
  unfold lines
  rw [List.map_append, List.map_append, String.join_append, String.join_append, join_success]
  unfold opening failure
  simp only [List.map_cons, List.map_append, List.map_map, List.map_nil, String.join_cons,
    String.join_append, String.join_nil, Function.comp_def, join_preparations, Line.text_guard]
  unfold Line.text Line.callText Trampoline.text
  dsimp only
  rw [text_signature]
  simp only [String.append_assoc, String.append_empty]

/-- Every line of the opening. -/
theorem mem_opening {trampoline : Trampoline} {line : Line} :
    line ∈ trampoline.opening ↔
      line = .signature trampoline.signature ∨
      line = .guard trampoline.guarded ∨ line = .entry ∨
      (∃ step ∈ trampoline.preparations, line = .ofPreparation trampoline.label step) ∨
      line = .call trampoline.operation (trampoline.arguments.map CallArgument.text) := by
  simp [opening, eq_comm]

/-- A preparation stores nothing. -/
theorem storedName?_ofPreparation (label : String) (step : Preparation) :
    (Line.ofPreparation label step).storedName? = none := by
  cases step <;> rfl

/-- Nothing is stored before the call. -/
theorem stored_opening (trampoline : Trampoline) :
    trampoline.opening.filterMap Line.storedName? = [] := by
  rw [List.filterMap_eq_nil_iff]
  intro line member
  rcases mem_opening.mp member with rfl | rfl | rfl | ⟨step, _, rfl⟩ | rfl
  · rfl
  · rfl
  · rfl
  · exact storedName?_ofPreparation _ step
  · rfl

/-- The success arm stores the results in order. -/
theorem stored_success (trampoline : Trampoline) :
    trampoline.success.filterMap Line.storedName? = trampoline.stores.map Store.name := by
  have stored (stores : List Store) :
      (stores.map fun write => Line.store write.name write.conversion).filterMap
        Line.storedName? = stores.map Store.name := by
    rw [List.filterMap_map]
    exact congrFun List.filterMap_eq_map stores
  unfold success
  cases trampoline.stores with
  | nil => rfl
  | cons write rest =>
      rw [if_neg (by simp), List.filterMap_cons_none rfl, List.filterMap_append, stored]
      exact List.append_nil _

/-- The lines that a call has executed when it ends. Up to the call, every line but the last has
let it pass; after the call it goes into one of the two arms. -/
inductive Path (trampoline : Trampoline) (null : String → Prop) : Bool → List Line → Prop
  | early {executed rest : List Line} (split : trampoline.opening = executed ++ rest)
      (passed : ∀ line ∈ executed.dropLast, line.Passes null) : Path trampoline null false executed
  | failed (passed : ∀ line ∈ trampoline.opening, line.Passes null) :
      Path trampoline null false (trampoline.opening ++ trampoline.failure)
  | succeeded (passed : ∀ line ∈ trampoline.opening, line.Passes null) :
      Path trampoline null true (trampoline.opening ++ trampoline.success)

end Trampoline

end IdlBindings.Source
