import IdlBindings.ArityIndex
import IdlBindings.Binding.Encoding
import IdlBindings.Catalog
import IdlBindings.CommandLine.Invocation
import IdlBindings.FileTree
import IdlBindings.Json.Printer
import IdlBindings.Source.File

/-
This file runs a command line. The whole text is there before anything is written, so a run that
fails leaves nothing behind.
-/

namespace IdlBindings.CommandLine

def programName : String := "cidl2rs"

def programVersion : String := "0.1.0"

/-- The variable that lists the directories to search. -/
def searchVariable : String := "CIDL_PATH"

/-- A variable that is not set lists nothing. -/
def searchPath : Option String → List String
  | none => []
  | some listed => (Text.split ':' listed.toList).map String.ofList

/-- The text that an invocation makes of the libraries. -/
def render (invocation : Invocation) (libraries : List Model.Library) : Except BuildFault String :=
  let external := (ArityIndex.ofLibraries libraries).get?
  if invocation.printsBinding then do
    let library ← Binding.build external libraries
    return library.toJson.pretty ++ "\n"
  else Source.generate invocation.options external libraries

/-- A run fails with a diagnostic, or is broken off without one. -/
inductive Failure where
  | diagnosed (diagnostic : String)
  | aborted
deriving DecidableEq

def Failure.ofLoading (fault : LoadFault) : Failure :=
  if fault.endsRun then .aborted else .diagnosed fault.chain

/-- The text of a run, or its failure. -/
def compile (disk : Disk) (listed : Option String) (invocation : Invocation) :
    Except Failure String :=
  match Catalog.loadAll disk { searchPath := searchPath listed } invocation.inputs with
  | .error fault => .error (.ofLoading fault)
  | .ok catalog =>
      match render invocation catalog.libraries with
      | .error fault => .error (.diagnosed fault.chain)
      | .ok text => .ok text

/-- What a run does. -/
inductive Action where
  | showHelp
  | showVersion
  | refuse
  | abort
  | fail (diagnostic : String)
  | print (text : String)
  | write (path text : String)
deriving DecidableEq

/-- This decides what to do by what the disk shows, and changes nothing. -/
def plan (disk : Disk) (listed : Option String) (reading : Reading) : Action :=
  match reading with
  | .help => .showHelp
  | .version => .showVersion
  | .refused => .refuse
  | .invocation invocation =>
      match compile disk listed invocation with
      | .error .aborted => .abort
      | .error (.diagnosed diagnostic) => .fail diagnostic
      | .ok text =>
          match invocation.output with
          | some path => .write path text
          | none => .print text

def helpPage : String :=
  "Generate Rust bindings from CAPE-OPEN interface definition libraries\n\n" ++
    "Usage: cidl2rs [OPTIONS] <FILE_OR_LIBRARY>...\n\nArguments:\n" ++
    "  <FILE_OR_LIBRARY>...  Model documents, or library names searched for in CIDL_PATH\n\n" ++
    "Options:\n" ++
    "  -o <FILE>       Output file (standard output when omitted)\n" ++
    "  -c <MODULE>     Alias of the runtime support library in generated references\n" ++
    "  -m <MODULE>     Module name used in generated documentation examples\n" ++
    "  -n <MODULE>     Alias of the module holding the raw ABI declarations\n" ++
    "  -s <NAMESPACE>  Prefix of the raw ABI declarations (library name when omitted)\n" ++
    "  -v, --verbose   Enable debug logging on stderr\n" ++
    "      --print-ir  Write the resolved declaration list as JSON instead of Rust source\n" ++
    "  -h, --help      Print help\n  -V, --version   Print version\n"

def versionLine : String := programName ++ " " ++ programVersion ++ "\n"

def writeDiagnostic (path : String) (fault : DiskFault) : String :=
  "failed to write " ++ path ++ ": " ++ fault.message

def printDiagnostic (fault : DiskFault) : String :=
  "failed to write to standard output: " ++ fault.message

/-- How a run ends. Help and version may stay unshown, but a run does not fail for that. -/
inductive Outcome where
  | helped
  | versionShown
  | unshown
  | refused
  | aborted
  | failed (diagnostic : String)
  | printed (text : String)
  | written
deriving DecidableEq

namespace Outcome

def exitCode : Outcome → UInt32
  | helped | versionShown | unshown | printed _ | written => 0
  | refused | failed _ => 1
  | aborted => 101

def standardOutput : Outcome → String
  | helped => helpPage
  | versionShown => versionLine
  | printed text => text
  | unshown | refused | aborted | failed _ | written => ""

/-- The line that says why a run failed. A refused command line gets a usage note instead. -/
def diagnostic? : Outcome → Option String
  | failed diagnostic => some ("Error: " ++ diagnostic)
  | _ => none

end Outcome

/-- What a run finds around it: the files with what reads the documents among them, the variable
that lists the search path, and what a sink says to a text. A sink that refuses a text is left as it
was. -/
structure Surroundings where
  tree : FileTree
  listed : Option String
  parsers : Document.Parsers := {}
  refusal? : FileTree.Sink → String → Option DiskFault := fun _ _ => none

namespace Surroundings

def disk (surroundings : Surroundings) : Disk :=
  { surroundings.tree.disk with parsers := surroundings.parsers }

/-- A page goes to the standard output if it takes it. -/
def present (surroundings : Surroundings) (page : String) (shown : Outcome) : FileTree × Outcome :=
  match surroundings.refusal? .console page with
  | none => (surroundings.tree, shown)
  | some _ => (surroundings.tree, .unshown)

/-- A text goes to a sink as a whole, or not at all. -/
def deliver (surroundings : Surroundings) (sink : FileTree.Sink) (text : String)
    (diagnostic : DiskFault → String) : FileTree × Outcome :=
  match surroundings.refusal? sink text with
  | some fault => (surroundings.tree, .failed (diagnostic fault))
  | none =>
      match sink with
      | .console => (surroundings.tree, .printed text)
      | .place location => (surroundings.tree.put location text.toUTF8, .written)

/-- What a run does, with the tree after it and how it ends. -/
def respond (surroundings : Surroundings) (reading : Reading) : FileTree × Outcome :=
  match plan surroundings.disk surroundings.listed reading with
  | .showHelp => surroundings.present helpPage .helped
  | .showVersion => surroundings.present versionLine .versionShown
  | .refuse => (surroundings.tree, .refused)
  | .abort => (surroundings.tree, .aborted)
  | .fail diagnostic => (surroundings.tree, .failed diagnostic)
  | .print text => surroundings.deliver .console text printDiagnostic
  | .write path text =>
      match surroundings.tree.sink path with
      | .error fault => (surroundings.tree, .failed (writeDiagnostic path fault))
      | .ok sink => surroundings.deliver sink text (writeDiagnostic path)

end Surroundings

/-- A run in a tree of files whose sinks take every text. -/
def run (tree : FileTree) (listed : Option String) (arguments : List String) :
    FileTree × Outcome :=
  Surroundings.respond { tree, listed } (read arguments)

/-- The paths that a run may look at. -/
def consulted (listed : Option String) (reading : Reading) : List String :=
  match reading with
  | .invocation invocation =>
      let catalog : Catalog := { searchPath := searchPath listed }
      invocation.inputs.flatMap fun token => token :: catalog.candidates token
  | _ => []

/-- The events of loading, up to the first fault. -/
def loadEvents (disk : Disk) (catalog : Catalog) : List String → List Event
  | [] => [.librariesLoaded catalog.libraries.length]
  | token :: rest =>
      let step := catalog.load disk token
      step.events ++
        match step.fault? with
        | some _ => []
        | none => loadEvents disk step.catalog rest

/-- Without the verbose switch only warnings are told. -/
def Invocation.tells (invocation : Invocation) (event : Event) : Bool :=
  invocation.verbose || event.level == .warn

/-- The events of a run up to its writing. -/
def events (disk : Disk) (listed : Option String) (reading : Reading) : List Event :=
  match reading with
  | .invocation invocation =>
      let catalog : Catalog := { searchPath := searchPath listed }
      let building :=
        match Catalog.loadAll disk catalog invocation.inputs with
        | .error _ => []
        | .ok complete =>
            let external := (ArityIndex.ofLibraries complete.libraries).get?
            if invocation.printsBinding then Binding.buildEvents external complete.libraries
            else Source.generateEvents external complete.libraries
      (loadEvents disk catalog invocation.inputs ++ building).filter invocation.tells
  | _ => []

/-- The events after the writing. -/
def finalEvents (reading : Reading) (action : Action) (outcome : Outcome) : List Event :=
  match reading, action, outcome with
  | .invocation invocation, .write path text, .written =>
      [Event.outputWritten text.utf8ByteSize path].filter invocation.tells
  | _, _, _ => []

end IdlBindings.CommandLine
