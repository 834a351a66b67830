import IdlBindings.Source.Trampoline

/-
This file writes the provider's side of an interface: its registration, its trampolines and the
table through which they are dispatched.
-/

namespace IdlBindings.Source

/-- A field of the dispatch table and the function it holds. -/
structure Slot where
  field : String
  symbol : String
deriving DecidableEq

/-- The fields that every dispatch table starts with. -/
def baseSlots : List Slot :=
  [⟨"addReference", "raw_add_reference"⟩, ⟨"release", "raw_release"⟩,
    ⟨"queryInterface", "raw_query_interface"⟩, ⟨"getLastError", "raw_get_last_error"⟩]

def Slot.text (slot : Slot) : String :=
  slot.field ++ ": Some(Self::T::" ++ slot.symbol ++ "),\n"

structure Adapter where
  interface : String
  genericParameters : String
  genericArguments : String
  native : String
  nativeName : String
  rawInterface : String
  rawTable : String
  trampolines : List Trampoline
  slots : List Slot

namespace Adapter

def ofInterface (context : Context) (interface : Binding.Interface) : Adapter where
  interface := interface.name
  genericParameters := interface.genericParameters
  genericArguments := interface.genericArguments
  native := context.nativePath interface.name
  nativeName := context.nativeNamespace ++ "_" ++ interface.name
  rawInterface := context.supportRaw "ICapeInterface"
  rawTable := context.supportRaw "ICapeInterface_VTable"
  trampolines := interface.methods.map (Trampoline.ofMethod context interface)
  slots := interface.methods.map fun method => ⟨method.slot, method.symbol⟩

def name (adapter : Adapter) : String := adapter.interface ++ "Impl"

def headText (adapter : Adapter) : String :=
  "pub trait " ++ adapter.name ++ adapter.genericParameters ++ " : " ++ adapter.interface ++
    adapter.genericArguments ++ " \x7b\n\ttype T: ICapeInterfaceImpl+" ++ adapter.name ++
    adapter.genericArguments ++ ";\n\n\tfn as_interface_pointer(&mut self) -> *mut " ++
    adapter.rawInterface ++ ";\n\n"

def prepareText (adapter : Adapter) : String :=
  "\t///prepare " ++ adapter.nativeName ++
    " interface and return as generic ICapeInterface pointer\n\tfn init_interface() -> " ++
    adapter.rawInterface ++ " \x7b\n\t\t" ++ adapter.rawInterface ++
    " \x7b\n\t\t\tme: std::ptr::null_mut(),\n\t\t\tvTbl: (&Self::T::VTABLE as *const " ++
    adapter.native ++ "_VTable).cast_mut()\n\t\t\t\tas *mut " ++ adapter.rawTable ++
    ",\n\t\t\x7d\n\t\x7d\n\t\n"

def registerText (adapter : Adapter) : String :=
  "\tfn init<Timpl: " ++ adapter.name ++ adapter.genericArguments ++
    "+ICapeInterfaceImpl>(u: &mut Timpl) \x7b\n\t\tlet iface: *mut " ++ adapter.native ++
    " =\n\t\t\tu.as_interface_pointer() as *mut " ++ adapter.native ++
    ";\n\t\tunsafe \x7b (*iface).me = u.get_self() as *const Timpl as " ++
    "*mut std::ffi::c_void \x7d;\n" ++
    "\t\tu.add_interface(\n\t\t\tstd::ptr::addr_of!(" ++ adapter.native ++
    "_UUID),\n\t\t\tiface as *mut " ++ adapter.rawInterface ++ ",\n\t\t);\n\t\x7d\n\t\n"

def tableText (adapter : Adapter) : String :=
  "\tconst VTABLE: " ++ adapter.native ++ "_VTable =\n\t\t" ++ adapter.native ++
    "_VTable \x7b\n\t\t\tbase: " ++ adapter.rawTable ++ " \x7b\n" ++
    String.join (baseSlots.map fun slot => "\t\t\t\t" ++ slot.text) ++ "\t\t\t\x7d,\n" ++
    String.join (adapter.slots.map fun slot => "\t\t\t" ++ slot.text) ++ "\t\t\x7d;\n"

def text (adapter : Adapter) : String :=
  adapter.headText ++ adapter.prepareText ++ adapter.registerText ++
    String.join (adapter.trampolines.map Trampoline.text) ++ adapter.tableText ++ "\x7d\n\n"

end Adapter

end IdlBindings.Source
