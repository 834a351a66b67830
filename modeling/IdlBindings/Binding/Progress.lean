import IdlBindings.Binding.OfModel

/-
This file lists the events of a build: those of every declaration up to the first fault.
-/

namespace IdlBindings.Binding

/-- The events of the entries up to the first that fails, what it reports itself included. -/
def eventsThrough {α β ε : Type} (run : α → Except ε β) (events : α → List Event) :
    List α → List Event
  | [] => []
  | entry :: rest =>
      events entry ++
        match run entry with
        | .ok _ => eventsThrough run events rest
        | .error _ => []

def Enumeration.events (enumeration : Model.Enumeration) : List Event :=
  match Enumeration.ofModel enumeration with
  | .ok built => [.enumerationBuilt built.name built.kind built.items.length]
  | .error _ => []

def Method.events (scope : Scope) (owner : Model.Interface) (method : Model.Method) :
    List Event :=
  match Method.ofModel scope owner method with
  | .ok built => built.arguments.map fun argument =>
      .argumentResolved owner.name built.adjustedName argument.name argument.type.category
  | .error _ => []

def Interface.events (scope : Scope) (interface : Model.Interface) : List Event :=
  eventsThrough (Method.ofModel scope interface) (Method.events scope interface)
    interface.methods ++
    match Interface.ofModel scope interface with
    | .ok built => [.interfaceBuilt built.name built.methods.length]
    | .error _ => []

def Library.events (external : String → Option Nat) (library : Model.Library) : List Event :=
  let scope := Scope.ofLibrary library external
  eventsThrough Enumeration.ofModel Enumeration.events library.enumerations ++
    match library.enumerations.mapM Enumeration.ofModel with
    | .error _ => []
    | .ok _ =>
        eventsThrough (Interface.ofModel scope) (Interface.events scope) library.interfaces ++
          match Library.ofModel external library with
          | .ok built => built.foreignSpaces.map .foreignSpace
          | .error _ => []

def buildEvents (external : String → Option Nat) (libraries : List Model.Library) : List Event :=
  match libraries with
  | [] => []
  | library :: _ => Library.events external library

end IdlBindings.Binding
