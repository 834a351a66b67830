import IdlBindings.Source.Accessor

/-
This file writes the consumer's side of an interface: a counted handle with one accessor for each
method.
-/

namespace IdlBindings.Source

structure Handle where
  name : String
  uuidConstant : String
  genericParameters : String
  genericArguments : String
  visibility : String
  native : String
  templateArguments : List String
  accessors : List Accessor

namespace Handle

def ofInterface (context : Context) (interface : Binding.Interface) : Handle where
  name := interface.handle
  uuidConstant := interface.uuidConstant
  genericParameters := interface.genericParameters
  genericArguments := interface.genericArguments
  visibility := context.fieldVisibility
  native := context.nativePath interface.name
  templateArguments := interface.templateArguments
  accessors := interface.methods.map (Accessor.ofMethod context)

/-- A field that only mentions a template argument. -/
def phantomText (argument : String) : String :=
  "\tphantom_" ++ Identifier.snakeCase argument ++ " : PhantomData<" ++ argument ++ ">,\n"

def text (handle : Handle) : String :=
  "#[cape_smart_pointer(" ++ handle.uuidConstant ++ ")]\npub struct " ++ handle.name ++
    handle.genericParameters ++ " \x7b\n\t" ++ handle.visibility ++ " interface: *mut " ++
    handle.native ++ ",\n" ++ String.join (handle.templateArguments.map phantomText) ++
    "\x7d\n\nimpl" ++ handle.genericParameters ++ " " ++ handle.name ++ handle.genericArguments ++
    " \x7b\n\n" ++ String.join (handle.accessors.map Accessor.text) ++ "\x7d\n\n"

end Handle

end IdlBindings.Source
