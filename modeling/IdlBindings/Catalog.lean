import IdlBindings.Disk
import IdlBindings.Event

/-
This file finds documents and gathers their libraries. A document counts once, under whatever path.
-/

namespace IdlBindings

namespace Document

/-- The extensions of documents in the order in which they are tried. -/
def extensions : List String := ["yaml", "yml", "json"]

end Document

structure Catalog where
  searchPath : List String
  attempted : List Location := []
  libraries : List Model.Library := []

namespace Catalog

/-- The path of a name in a directory. A name that starts at the root stays as it is. -/
def joinPath (directory name : String) : String :=
  if name.toList.head? == some '/' then name
  else if directory.isEmpty || directory.toList.getLast? == some '/' then directory ++ name
  else directory ++ "/" ++ name

/-- The paths under which a library may be found, the preferred ones first. -/
def candidates (catalog : Catalog) (token : String) : List String :=
  catalog.searchPath.flatMap fun directory =>
    Document.extensions.map fun word => joinPath directory (token ++ "." ++ word)

/-- A token is a path, or else a library of the search path. -/
def locate (disk : Disk) (catalog : Catalog) (token : String) : Except LoadFault String :=
  if disk.isFile token then .ok token
  else
    match (catalog.candidates token).find? disk.isFile with
    | some path => .ok path
    | none => .error (.notFound token)

def locateEvents (disk : Disk) (catalog : Catalog) (token : String) : List Event :=
  if disk.isFile token then []
  else
    match (catalog.candidates token).find? disk.isFile with
    | some path => [.libraryFound token path]
    | none => []

/-- What comes of loading a path. -/
inductive Attempt where
  | unreachable (cause : DiskFault)
  | repeated
  | failed (location : Location) (fault : LoadFault)
  | loaded (location : Location) (libraries : List Model.Library)

def readDocument (disk : Disk) (path : String) : Except LoadFault Model.Document :=
  match disk.readText path with
  | .error cause => .error (.unreadable path cause)
  | .ok text => Document.parse disk.parsers path text

def attempt (disk : Disk) (catalog : Catalog) (path : String) : Attempt :=
  match disk.location path with
  | .error cause => .unreachable cause
  | .ok location =>
      if location ∈ catalog.attempted then .repeated
      else
        match readDocument disk path with
        | .error fault => .failed location fault
        | .ok document => .loaded location document.libraries

namespace Attempt

/-- A place counts as attempted also if its document turns out bad. -/
def catalog (before : Catalog) : Attempt → Catalog
  | unreachable _ => before
  | repeated => before
  | failed location _ => { before with attempted := location :: before.attempted }
  | loaded location libraries =>
      { before with
        attempted := location :: before.attempted
        libraries := before.libraries ++ libraries }

def fault? (path : String) : Attempt → Option LoadFault
  | unreachable cause => some (.unreadable path cause)
  | failed _ fault => some fault
  | repeated | loaded _ _ => none

def events (path : String) : Attempt → List Event
  | repeated => [.documentSkipped path]
  | loaded _ libraries => [.documentLoaded libraries.length path]
  | unreachable _ | failed _ _ => []

end Attempt

/-- The catalog after a step, with the fault and the events of the step. -/
structure Step where
  catalog : Catalog
  fault? : Option LoadFault := none
  events : List Event := []

def loadFile (disk : Disk) (catalog : Catalog) (path : String) : Step :=
  let outcome := catalog.attempt disk path
  { catalog := outcome.catalog catalog
    fault? := outcome.fault? path
    events := outcome.events path }

/-- This loads the document that a token stands for. -/
def load (disk : Disk) (catalog : Catalog) (token : String) : Step :=
  match catalog.locate disk token with
  | .error fault => { catalog, fault? := some fault }
  | .ok path =>
      let step := catalog.loadFile disk path
      { step with events := catalog.locateEvents disk token ++ step.events }

/-- This loads tokens in order up to the first fault. -/
def loadAll (disk : Disk) (catalog : Catalog) : List String → Except LoadFault Catalog
  | [] => .ok catalog
  | token :: rest =>
      let step := catalog.load disk token
      match step.fault? with
      | some fault => .error fault
      | none => loadAll disk step.catalog rest

end Catalog

end IdlBindings
