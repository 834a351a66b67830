import IdlBindings.Binding.Progress
import IdlBindings.Source.Adapter
import IdlBindings.Source.Contract
import IdlBindings.Source.Enumeration
import IdlBindings.Source.Handle
import IdlBindings.Source.Preamble

/-
This file puts the generated source together and generates it from the loaded libraries.
-/

namespace IdlBindings.Source

structure InterfaceDefinition where
  contract : Contract
  adapter : Adapter
  handle : Handle

namespace InterfaceDefinition

def ofInterface (context : Context) (interface : Binding.Interface) : InterfaceDefinition where
  contract := Contract.ofInterface context interface
  adapter := Adapter.ofInterface context interface
  handle := Handle.ofInterface context interface

def text (definition : InterfaceDefinition) : String :=
  definition.contract.text ++ definition.adapter.text ++ definition.handle.text

end InterfaceDefinition

structure File where
  preamble : Preamble
  enumerations : List EnumerationDefinition
  interfaces : List InterfaceDefinition

namespace File

def ofLibrary (context : Context) (library : Binding.Library) : File where
  preamble := Preamble.ofLibrary context library
  enumerations := library.enumerations.map (EnumerationDefinition.ofBinding context)
  interfaces := library.interfaces.map (InterfaceDefinition.ofInterface context)

def text (file : File) : String :=
  file.preamble.text ++
    (if file.enumerations.isEmpty then ""
      else
        "\n//Enumerations\n\n" ++
          String.join (file.enumerations.map EnumerationDefinition.text)) ++
    (if file.interfaces.isEmpty then ""
      else "\n//Interfaces\n\n" ++ String.join (file.interfaces.map InterfaceDefinition.text))

/-- The events of writing a library. -/
def events (library : Binding.Library) : List Event :=
  (library.enumerations.map fun enumeration => .enumerationWritten enumeration.name) ++
    library.interfaces.map fun interface => .interfaceWritten interface.name

end File

/-- The source of the first library, or the first fault in it. -/
def generate (options : Options) (external : String → Option Nat)
    (libraries : List Model.Library) : Except BuildFault String := do
  let library ← Binding.build external libraries
  return (File.ofLibrary (options.context library.name) library).text

def generateEvents (external : String → Option Nat) (libraries : List Model.Library) :
    List Event :=
  Binding.buildEvents external libraries ++
    match Binding.build external libraries with
    | .ok library =>
        File.events library ++
          [.sourceGenerated library.enumerations.length library.interfaces.length library.name]
    | .error _ => []

end IdlBindings.Source
