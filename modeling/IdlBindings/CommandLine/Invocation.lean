import IdlBindings.Context

/-
This file reads a command line from left to right. What comes first decides: a request for help or
for the version, or a word that is refused.
-/

namespace IdlBindings.CommandLine

/-- What a run is asked to do. -/
structure Invocation where
  inputs : List String := []
  output : Option String := none
  supportModule : Option String := none
  exampleModule : Option String := none
  nativeModule : Option String := none
  nativeNamespace : Option String := none
  verbose : Bool := false
  printsBinding : Bool := false
deriving DecidableEq

def Invocation.options (invocation : Invocation) : Options where
  supportModule := invocation.supportModule.getD defaultSupport
  exampleModule := invocation.exampleModule
  nativeModule := invocation.nativeModule.getD defaultNative
  nativeNamespace := invocation.nativeNamespace

/-- An option that takes a value. -/
inductive Setting where
  | output
  | supportModule
  | exampleModule
  | nativeModule
  | nativeNamespace
deriving DecidableEq

def Setting.ofLetter? : Char → Option Setting
  | 'o' => some .output
  | 'c' => some .supportModule
  | 'm' => some .exampleModule
  | 'n' => some .nativeModule
  | 's' => some .nativeNamespace
  | _ => none

/-- An option without a value. -/
inductive Switch where
  | verbose
  | printBinding
  | help
  | version
deriving DecidableEq

def Switch.ofLetter? : Char → Option Switch
  | 'v' => some .verbose
  | 'h' => some .help
  | 'V' => some .version
  | _ => none

def Switch.ofName? : String → Option Switch
  | "verbose" => some .verbose
  | "print-ir" => some .printBinding
  | "help" => some .help
  | "version" => some .version
  | _ => none

/-- What a command line comes to. -/
inductive Reading where
  | invocation (invocation : Invocation)
  | help
  | version
  | refused
deriving DecidableEq

namespace Invocation

def value? (invocation : Invocation) : Setting → Option String
  | .output => invocation.output
  | .supportModule => invocation.supportModule
  | .exampleModule => invocation.exampleModule
  | .nativeModule => invocation.nativeModule
  | .nativeNamespace => invocation.nativeNamespace

def withValue (invocation : Invocation) (value : String) : Setting → Invocation
  | .output => { invocation with output := some value }
  | .supportModule => { invocation with supportModule := some value }
  | .exampleModule => { invocation with exampleModule := some value }
  | .nativeModule => { invocation with nativeModule := some value }
  | .nativeNamespace => { invocation with nativeNamespace := some value }

/-- An option is given at most once, and a file to write has a name. -/
def set? (invocation : Invocation) (setting : Setting) (value : String) : Option Invocation :=
  if (invocation.value? setting).isSome || (setting == .output && value.isEmpty) then none
  else some (invocation.withValue value setting)

def addInputs (invocation : Invocation) (inputs : List String) : Invocation :=
  { invocation with inputs := invocation.inputs ++ inputs }

/-- A run needs at least one input. -/
def finish (invocation : Invocation) : Reading :=
  if invocation.inputs.isEmpty then .refused else .invocation invocation

end Invocation

/-- How far one word leads. -/
inductive Progress where
  | taken (invocation : Invocation)
  | awaiting (setting : Setting) (invocation : Invocation)
  | decided (reading : Reading)

namespace Progress

def ofOption : Option Invocation → Progress
  | some invocation => taken invocation
  | none => decided .refused

def switch (invocation : Invocation) : Switch → Progress
  | .verbose =>
      if invocation.verbose then decided .refused else taken { invocation with verbose := true }
  | .printBinding =>
      if invocation.printsBinding then decided .refused
      else taken { invocation with printsBinding := true }
  | .help => decided .help
  | .version => decided .version

/-- A value may follow its letter at once, or after an equals sign. -/
def attachedValue : List Char → String
  | '=' :: value => String.ofList value
  | value => String.ofList value

/-- The letters of one word. The first that takes a value takes all the letters after it. -/
def letters (invocation : Invocation) : List Char → Progress
  | [] => taken invocation
  | letter :: rest =>
      match Setting.ofLetter? letter with
      | some setting =>
          if rest.isEmpty then awaiting setting invocation
          else ofOption (invocation.set? setting (attachedValue rest))
      | none =>
          match Switch.ofLetter? letter with
          | none => decided .refused
          | some named =>
              match switch invocation named with
              | taken next => letters next rest
              | other => other

def name (invocation : Invocation) (text : String) : Progress :=
  match Switch.ofName? text with
  | some named => switch invocation named
  | none => decided .refused

/-- A lone dash and a word without a dash are inputs. -/
def word (invocation : Invocation) (text : String) : Progress :=
  match text.toList with
  | '-' :: '-' :: long => name invocation (String.ofList long)
  | '-' :: letter :: rest => letters invocation (letter :: rest)
  | _ => taken (invocation.addInputs [text])

end Progress

/-- A value that stands alone may not look like an option. -/
def isValue (text : String) : Bool :=
  match text.toList with
  | '-' :: _ :: _ => false
  | _ => true

/-- After a double dash there are only inputs. -/
def readFrom (invocation : Invocation) : List String → Reading
  | [] => invocation.finish
  | text :: rest =>
      if text == "--" then (invocation.addInputs rest).finish
      else
        match Progress.word invocation text with
        | .taken next => readFrom next rest
        | .decided reading => reading
        | .awaiting setting next =>
            match rest with
            | [] => .refused
            | value :: more =>
                if isValue value then
                  match next.set? setting value with
                  | some complete => readFrom complete more
                  | none => .refused
                else .refused

def read (arguments : List String) : Reading := readFrom {} arguments

end IdlBindings.CommandLine
