import IdlBindings.Json.Format
import IdlBindings.Yaml.Format

/-
This file says what a program sees of the files on a disk, and of the documents in them.
-/

namespace IdlBindings

/-- A reason for which a file cannot be read or written. -/
inductive DiskFault where
  | missing
  | notDirectory
  | isDirectory
  | nameTooLong
  | tooManyLinks
  | notText
  | other (description : String)
deriving DecidableEq

def DiskFault.message : DiskFault → String
  | .missing => "No such file or directory (os error 2)"
  | .notDirectory => "Not a directory (os error 20)"
  | .isDirectory => "Is a directory (os error 21)"
  | .nameTooLong => "File name too long (os error 36)"
  | .tooManyLinks => "Too many levels of symbolic links (os error 40)"
  | .notText => "stream did not contain valid UTF-8"
  | .other description => description

/-- A reason for which a document is not loaded. -/
inductive LoadFault where
  | notFound (token : String)
  | unreadable (path : String) (cause : DiskFault)
  | unparsable (path : String)
  | overrun (path : String)
deriving DecidableEq

namespace LoadFault

def message : LoadFault → String
  | notFound token => "'" ++ token ++ "' is neither a file nor a library found in the search path"
  | unreadable path cause => "failed to read '" ++ path ++ "': " ++ cause.message
  | unparsable path => "failed to parse '" ++ path ++ "'"
  | overrun path => "a gap in a scalar of '" ++ path ++ "' overran its buffer"

/-- The message followed by that of its cause, as a diagnostic shows them. -/
def chain (fault : LoadFault) : String :=
  match fault with
  | unreadable _ cause => fault.message ++ ": " ++ cause.message
  | _ => fault.message

/-- Whether nothing more is done after the fault. -/
def endsRun : LoadFault → Bool
  | overrun _ => true
  | _ => false

end LoadFault

namespace Document

/-- The part of a file name after its last point, unless the point is its first character. -/
def extension? (path : String) : Option (List Char) :=
  let name := (path.toList.reverse.takeWhile (· != '/')).reverse
  let after := name.reverse.takeWhile (· != '.')
  if name.length ≤ after.length + 1 || name == ['.', '.'] then none else some after.reverse

def isJson (path : String) : Bool :=
  match extension? path with
  | some word => word.map Char.toLower == ['j', 's', 'o', 'n']
  | none => false

/-- What reads the texts of documents. The reader of YAML that is here leaves parts of the language
out, so a disk may come with another one. -/
structure Parsers where
  json : String → Option Model.Document := Model.Document.ofJsonText?
  yaml : String → Except Yaml.Fault Model.Document := Model.Document.ofYamlText

/-- The extension of a path tells the format; without a known one it is YAML. -/
def parse (parsers : Parsers) (path text : String) : Except LoadFault Model.Document :=
  if isJson path then
    match parsers.json text with
    | some document => .ok document
    | none => .error (.unparsable path)
  else
    match parsers.yaml text with
    | .ok document => .ok document
    | .error .malformed => .error (.unparsable path)
    | .error .overrun => .error (.overrun path)

end Document

/-- The names on the way from the root to a place. -/
abbrev Location := List String

/-- A view of the disk by paths. Two paths with one location lead to the same place. What reads the
documents is part of the view. -/
structure Disk where
  isFile : String → Bool
  location : String → Except DiskFault Location
  read : String → Except DiskFault ByteArray
  parsers : Document.Parsers := {}

/-- The text of a file. -/
def Disk.readText (disk : Disk) (path : String) : Except DiskFault String :=
  match disk.read path with
  | .error fault => .error fault
  | .ok content =>
      match String.fromUTF8? content with
      | some text => .ok text
      | none => .error .notText

end IdlBindings
