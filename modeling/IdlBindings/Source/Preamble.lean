import IdlBindings.Source.Shape

/-
This file writes the head of the generated source: its imports and the constants that hold the
identifiers of the library, its categories and its interfaces.
-/

namespace IdlBindings

/-- The expression that rebuilds an identifier from its bytes. -/
def Uuid.literal (uuid : Uuid) : String :=
  "CapeUUID::from_slice(&[" ++
    String.intercalate "," (uuid.bytes.map fun byte =>
      "0x" ++ String.ofList (Text.hexByte byte) ++ "u8") ++ "])"

namespace Source

structure UuidConstant where
  name : String
  uuid : Uuid
deriving DecidableEq

def UuidConstant.text (constant : UuidConstant) : String :=
  "pub const " ++ constant.name ++ ":CapeUUID=" ++ constant.uuid.literal ++ ";\n"

structure Preamble where
  imports : List String
  foreignSpaces : List String
  library : UuidConstant
  categories : List UuidConstant
  interfaces : List UuidConstant

namespace Preamble

def interfaceImports (context : Context) (library : Binding.Library) : List String :=
  if library.interfaces.isEmpty then [context.support ++ "::CapeUUID"]
  else [context.support ++ "::*", context.support ++ "::cape_smart_pointer::CapeSmartPointer"] ++
    if library.hasGenericInterfaces then ["std::marker::PhantomData"] else []

def enumerationImports (library : Binding.Library) : List String :=
  if library.enumerations.isEmpty then []
  else ["std::fmt"] ++ if library.hasBitFlags then ["bitflags::bitflags"] else []

def ofLibrary (context : Context) (library : Binding.Library) : Preamble where
  imports := interfaceImports context library ++ enumerationImports library
  foreignSpaces := library.foreignSpaces
  library := ⟨"LIBRARY_ID", library.uuid⟩
  categories := library.categories.map fun category =>
    ⟨"CATEGORYID_" ++ Identifier.upperCase category.name, category.uuid⟩
  interfaces := library.interfaces.map fun interface => ⟨interface.uuidConstant, interface.uuid⟩

/-- A title and the lines under it, or nothing at all when there are no lines. -/
def titled (title : String) (lines : List String) : String :=
  if lines.isEmpty then "" else "\n//" ++ title ++ "\n" ++ String.join lines

def text (preamble : Preamble) : String :=
  "// This file was generated by cidl2rs\n" ++
    String.join (preamble.imports.map fun path => "use " ++ path ++ ";\n") ++
    titled "Foreign namespaces, must be imported by the including module:"
      (preamble.foreignSpaces.map fun space => "//  " ++ space ++ "\n") ++
    titled "library ID" [preamble.library.text] ++
    titled "Category IDs" (preamble.categories.map UuidConstant.text) ++
    titled "Interface IDs" (preamble.interfaces.map UuidConstant.text)

end Preamble

end Source

end IdlBindings
