import IdlBindings.Proofs.Contains
import IdlBindings.Source.Adapter
import IdlBindings.Source.Contract
import IdlBindings.Source.Handle

/-
This file writes out the texts of the generated functions and of the dispatch table. Every text is
told by the names and types in it, with all that stands between them spelled out.
-/

namespace IdlBindings.Source

/-- A name that a function declares, with the type that stands behind it. -/
structure TypedName where
  name : String
  type : String
deriving DecidableEq

/-- The parameters that follow the object a function is called on. -/
def parameterList (parameters : List TypedName) : String :=
  String.join (parameters.map fun parameter => "," ++ parameter.name ++ ":" ++ parameter.type)

/-- The head of a trampoline. -/
structure Signature where
  symbol : String
  parameters : List TypedName
  status : String
deriving DecidableEq

/-- A signature as it is written. -/
def Signature.text (signature : Signature) : String :=
  "\textern \"C\" fn " ++ signature.symbol ++ "(me: *mut std::ffi::c_void" ++
    parameterList signature.parameters ++ ") -> " ++ signature.status ++ " \x7b\n"

/-- The head of the trampoline, told by texts alone. -/
def Trampoline.signature (trampoline : Trampoline) : Signature where
  symbol := trampoline.symbol
  parameters := trampoline.parameters.map fun parameter => ⟨parameter.name, parameter.type.text⟩
  status := trampoline.status

/-- The raw parameters are written with a comma before each. -/
theorem parameterList_raw (parameters : List RawParameter) :
    parameterList (parameters.map fun parameter => ⟨parameter.name, parameter.type.text⟩) =
      String.join (parameters.map RawParameter.text) := by
  rw [parameterList, List.map_map]
  rfl

/-- A local that a call writes a result to. -/
structure Receiver where
  name : String
  type : String
  initial : String
deriving DecidableEq

/-- The declaration of a local that receives a result. -/
def Receiver.text (receiver : Receiver) : String :=
  "\t\tlet mut " ++ receiver.name ++ ":" ++ receiver.type ++ "=" ++ receiver.initial ++ ";\n"

/-- The pointer to an object is told with a blank before its type. -/
def Receiver.ofLocal : ResultLocal → Receiver
  | .scalar name raw initial => ⟨name, raw, initial⟩
  | .object name raw => ⟨name, " *mut " ++ raw, "std::ptr::null_mut()"⟩

/-- An accessor: its head, the locals for the results, the call through a field of the dispatch
table, and the arm for a call that succeeds. -/
structure CallSite where
  operation : String
  typeParameters : List TypedName
  parameters : List TypedName
  payload : String
  receivers : List Receiver
  field : String
  passed : List String
  arm : String

namespace CallSite

/-- The type parameters stand in angle brackets if there are any. -/
def typeParameterText (parameters : List TypedName) : String :=
  if parameters.isEmpty then ""
  else "<" ++ String.intercalate ","
    (parameters.map fun parameter => parameter.name ++ ":" ++ parameter.type) ++ ">"

/-- The line that an accessor starts with. -/
def headText (site : CallSite) : String :=
  "\tpub fn " ++ site.operation ++ typeParameterText site.typeParameters ++ "(&self" ++
    parameterList site.parameters ++ ") -> Result<" ++ site.payload ++ ",COBIAError> \x7b\n"

/-- The statement that calls through a field of the dispatch table. -/
def dispatchText (site : CallSite) : String :=
  "\t\tlet result_code = unsafe \x7b\n\t\t\t((*(*self.interface).vTbl)." ++ site.field ++
    ".unwrap())((*self.interface).me" ++ String.join (site.passed.map fun passed => "," ++ passed) ++
    ")\n\t\t\x7d;\n\t\tmatch result_code \x7b\n"

/-- A call site as it is written. -/
def text (site : CallSite) : String :=
  site.headText ++ String.join (site.receivers.map Receiver.text) ++ site.dispatchText ++
    site.arm ++ "\t\t\t_ => Err(COBIAError::from_object(result_code,self))\n\t\t\x7d\n\t\x7d\n\n"

end CallSite

/-- The accessor, told by texts alone. -/
def Accessor.site (accessor : Accessor) : CallSite where
  operation := accessor.name
  typeParameters := accessor.typeParameters.map fun parameter => ⟨parameter.name, parameter.bound⟩
  parameters := accessor.parameters.map fun parameter => ⟨parameter.name, parameter.type.text⟩
  payload := tuple accessor.resultTypes
  receivers := accessor.locals.map Receiver.ofLocal
  field := accessor.slot
  passed := accessor.arguments.map RawArgument.text
  arm := accessor.successText

/-- A dispatch table. After the functions that every object has come the given rows, of a field and
a function each. -/
def dispatchTable (table base : String) (rows : List (String × String)) : String :=
  "\tconst VTABLE: " ++ table ++ "_VTable =\n\t\t" ++ table ++ "_VTable \x7b\n\t\t\tbase: " ++
    base ++ " \x7b\n" ++
    "\t\t\t\taddReference: Some(Self::T::raw_add_reference),\n" ++
    "\t\t\t\trelease: Some(Self::T::raw_release),\n" ++
    "\t\t\t\tqueryInterface: Some(Self::T::raw_query_interface),\n" ++
    "\t\t\t\tgetLastError: Some(Self::T::raw_get_last_error),\n" ++ "\t\t\t\x7d,\n" ++
    String.join (rows.map fun row => "\t\t\t" ++ row.1 ++ ": Some(Self::T::" ++ row.2 ++ "),\n") ++
    "\t\t\x7d;\n"

/-- The rows of the base interface. -/
theorem join_baseSlots :
    String.join (baseSlots.map fun slot => "\t\t\t\t" ++ slot.text) =
      "\t\t\t\taddReference: Some(Self::T::raw_add_reference),\n" ++
        "\t\t\t\trelease: Some(Self::T::raw_release),\n" ++
        "\t\t\t\tqueryInterface: Some(Self::T::raw_query_interface),\n" ++
        "\t\t\t\tgetLastError: Some(Self::T::raw_get_last_error),\n" := by
  decide +kernel

/-- The table of an adapter binds the field of each slot to its symbol. -/
theorem Adapter.tableText_eq (adapter : Adapter) :
    adapter.tableText = dispatchTable adapter.native adapter.rawTable
      (adapter.slots.map fun slot => (slot.field, slot.symbol)) := by
  unfold tableText dispatchTable
  rw [join_baseSlots, List.map_map]
  simp only [Function.comp_def, Slot.text, String.append_assoc]

/-- The table stands in the text of the adapter. -/
theorem Adapter.contains_table (adapter : Adapter) :
    Text.Contains adapter.text (dispatchTable adapter.native adapter.rawTable
      (adapter.slots.map fun slot => (slot.field, slot.symbol))) := by
  rw [← tableText_eq]
  exact ⟨_, "\x7d\n\n", rfl⟩

/-- Each trampoline stands in the text of its adapter. -/
theorem Adapter.contains_trampoline {adapter : Adapter} {trampoline : Trampoline}
    (member : trampoline ∈ adapter.trampolines) :
    Text.Contains adapter.text trampoline.text := by
  have joined := Text.Contains.join (List.mem_map_of_mem (f := Trampoline.text) member)
  unfold Adapter.text
  exact ((joined.append_left _).append_right _).append_right _

/-- Each accessor stands in the text of its handle. -/
theorem Handle.contains_accessor {handle : Handle} {accessor : Accessor}
    (member : accessor ∈ handle.accessors) : Text.Contains handle.text accessor.text := by
  have joined := Text.Contains.join (List.mem_map_of_mem (f := Accessor.text) member)
  unfold Handle.text
  exact (joined.append_left _).append_right _

/-- Each operation stands in the text of its contract. -/
theorem Contract.contains_operation {contract : Contract} {operation : Operation}
    (member : operation ∈ contract.operations) :
    Text.Contains contract.text operation.text := by
  have joined := Text.Contains.join (List.mem_map_of_mem (f := Operation.text) member)
  unfold Contract.text
  exact (joined.append_left _).append_right _

end IdlBindings.Source
