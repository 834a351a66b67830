import IdlBindings.CommandLine.Run

/-
This file is the command line: it looks at the disk, lets the plan decide, and carries it out.
-/

namespace IdlBindings.CommandLine

/-- The number of an error, which some operations give with a minus sign. -/
def errorNumber (code : UInt32) : Nat :=
  if code.toNat < Nat.pow 2 31 then code.toNat else Nat.pow 2 32 - code.toNat

/-- The error of the system; those without a name here keep its own words. -/
def describe (code : UInt32) (details : String) : DiskFault :=
  match errorNumber code with
  | 2 => .missing
  | 20 => .notDirectory
  | 21 => .isDirectory
  | 36 => .nameTooLong
  | 40 => .tooManyLinks
  | number => .other (details ++ " (os error " ++ Text.decimal number ++ ")")

def diskFault : IO.Error → DiskFault
  | .noFileOrDirectory _ _ _ => .missing
  | .inappropriateType _ code details | .alreadyExists _ code details
  | .invalidArgument _ code details | .permissionDenied _ code details
  | .resourceExhausted _ code details
  | .noSuchThing _ code details | .interrupted _ code details => describe code details
  | .otherError code details | .resourceBusy code details | .resourceVanished code details
  | .unsupportedOperation code details | .hardwareFault code details
  | .unsatisfiedConstraints code details | .illegalOperation code details
  | .protocolError code details | .timeExpired code details => describe code details
  | .unexpectedEof => .other "unexpected end of file"
  | .userError details => .other details

def attemptIt {α : Type} (action : IO α) : BaseIO (Except DiskFault α) := do
  match ← action.toBaseIO with
  | .ok result => return .ok result
  | .error failure => return .error (diskFault failure)

/-- What was seen under one path. -/
structure Sight where
  path : String
  location : Except DiskFault Location
  content : Except DiskFault ByteArray

def look (path : String) : BaseIO Sight := do
  let location ← attemptIt do return [(← IO.FS.realPath path).toString]
  let content ← attemptIt (IO.FS.readBinFile path)
  return { path, location, content }

/-- A place that is there and is no directory counts as a file, also if it may not be read. -/
def Sight.isFile (sight : Sight) : Bool :=
  match sight.content with
  | .ok _ => true
  | .error (.other _) => sight.location.isOk
  | .error _ => false

def diskOf (sights : List Sight) : Disk :=
  let find (path : String) : Option Sight := sights.find? fun sight => sight.path == path
  { isFile := fun path => ((find path).map Sight.isFile).getD false
    location := fun path => ((find path).map Sight.location).getD (.error .missing)
    read := fun path => ((find path).map Sight.content).getD (.error .missing) }

/-- This writes a text to the standard output and leaves nothing of it in a buffer. -/
def printOut (text : String) : IO Unit := do
  let output ← IO.getStdout
  output.putStr text
  output.flush

def present (page : String) (shown : Outcome) : BaseIO Outcome := do
  match ← attemptIt (printOut page) with
  | .ok _ => return shown
  | .error _ => return .unshown

def carryOut : Action → BaseIO Outcome
  | .showHelp => present helpPage .helped
  | .showVersion => present versionLine .versionShown
  | .refuse => return .refused
  | .abort => return .aborted
  | .fail diagnostic => return .failed diagnostic
  | .print text => do
      match ← attemptIt (printOut text) with
      | .ok _ => return .printed text
      | .error fault => return .failed (printDiagnostic fault)
  | .write path text => do
      match ← attemptIt (IO.FS.writeBinFile path text.toUTF8) with
      | .ok _ => return .written
      | .error fault => return .failed (writeDiagnostic path fault)

def execute (arguments : List String) : IO UInt32 := do
  let listed ← IO.getEnv searchVariable
  let reading := read arguments
  let disk := diskOf (← (consulted listed reading).mapM fun path => look path)
  for event in events disk listed reading do
    IO.eprintln event.line
  let action := plan disk listed reading
  let outcome ← carryOut action
  for event in finalEvents reading action outcome do
    IO.eprintln event.line
  match outcome with
  | .refused => IO.eprint helpPage
  | .aborted => IO.eprintln "aborted"
  | .failed _ => IO.eprintln (outcome.diagnostic?.getD "")
  | _ => pure ()
  return outcome.exitCode

end IdlBindings.CommandLine

def main (arguments : List String) : IO UInt32 := IdlBindings.CommandLine.execute arguments
