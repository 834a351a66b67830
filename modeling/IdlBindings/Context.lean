import IdlBindings.Identifier

/-
This file holds the names that generated code refers to and that the user may choose.
-/

namespace IdlBindings

/-- The module of the support library unless another is chosen. -/
def defaultSupport : String := "cobia"

/-- The module of the raw declarations unless another is chosen. -/
def defaultNative : String := "C"

structure Options where
  supportModule : String := defaultSupport
  exampleModule : Option String := none
  nativeModule : String := defaultNative
  nativeNamespace : Option String := none

/-- The choices once the library is known. -/
structure Context where
  library : String
  support : String
  exampleModule : String
  nativeModule : String
  nativeNamespace : String
deriving DecidableEq

def Options.context (options : Options) (library : String) : Context where
  library := library
  support := options.supportModule
  exampleModule := options.exampleModule.getD (Identifier.exampleModule library)
  nativeModule := options.nativeModule
  nativeNamespace := options.nativeNamespace.getD library

namespace Context

/-- A raw declaration of the support library. -/
def supportRaw (context : Context) (name : String) : String :=
  context.support ++ "::C::" ++ name

def supportPath (context : Context) (name : String) : String :=
  context.support ++ "::" ++ name

/-- A raw declaration of the library itself. -/
def nativePath (context : Context) (name : String) : String :=
  context.nativeModule ++ "::" ++ context.nativeNamespace ++ "_" ++ name

/-- Only the support library itself keeps the pointer of a handle to itself. -/
def fieldVisibility (context : Context) : String :=
  if context.support == "crate" then "pub(crate)" else "pub"

end Context

end IdlBindings
