import IdlBindings.Binding.Basic
import IdlBindings.Text.Numeral

/-
This file holds the events that a run reports as it goes.
-/

namespace IdlBindings

inductive Level where
  | debug
  | info
  | warn
deriving DecidableEq

def Level.word : Level → String
  | debug => "DEBUG"
  | info => "INFO"
  | warn => "WARN"

inductive Event where
  | enumerationBuilt (name : String) (kind : Binding.EnumerationKind) (items : Nat)
  | argumentResolved (interface method argument category : String)
  | interfaceBuilt (name : String) (methods : Nat)
  | foreignSpace (space : String)
  | enumerationWritten (name : String)
  | interfaceWritten (name : String)
  | sourceGenerated (enumerations interfaces : Nat) (library : String)
  | libraryFound (name path : String)
  | documentSkipped (path : String)
  | documentLoaded (libraries : Nat) (path : String)
  | librariesLoaded (libraries : Nat)
  | outputWritten (bytes : Nat) (path : String)
deriving DecidableEq

namespace Event

def level : Event → Level
  | foreignSpace _ => .warn
  | sourceGenerated .. | documentLoaded .. | outputWritten .. => .info
  | _ => .debug

def kindWord : Binding.EnumerationKind → String
  | .plain => "Plain"
  | .bitFlags => "BitFlags"

def message : Event → String
  | enumerationBuilt name kind items =>
      "enumeration " ++ name ++ ": " ++ kindWord kind ++ " with " ++ Text.decimal items ++
        " item(s)"
  | argumentResolved interface method argument category =>
      interface ++ "::" ++ method ++ " argument " ++ argument ++ " is " ++ category
  | interfaceBuilt name methods =>
      "interface " ++ name ++ ": " ++ Text.decimal methods ++ " method(s)"
  | foreignSpace space =>
      "types from namespace '" ++ space ++ "' are referenced but not imported"
  | enumerationWritten name => "emitting enumeration " ++ name
  | interfaceWritten name => "emitting interface " ++ name
  | sourceGenerated enumerations interfaces library =>
      "generated " ++ Text.decimal enumerations ++ " enumeration(s) and " ++
        Text.decimal interfaces ++ " interface(s) for library " ++ library
  | libraryFound name path => "library '" ++ name ++ "' found at " ++ path
  | documentSkipped path => "skipping already loaded file: " ++ path
  | documentLoaded libraries path =>
      "loaded " ++ Text.decimal libraries ++ " library(ies) from " ++ path
  | librariesLoaded libraries => Text.decimal libraries ++ " library(ies) loaded"
  | outputWritten bytes path => "wrote " ++ Text.decimal bytes ++ " bytes to " ++ path

def line (event : Event) : String := event.level.word ++ " " ++ event.message

end Event

end IdlBindings
