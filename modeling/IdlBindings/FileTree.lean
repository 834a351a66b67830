import IdlBindings.Disk
import IdlBindings.Text.Bytes
import IdlBindings.Text.Split

/-
This file holds a tree of files, with the paths that lead through it. Paths follow the links they
come by, up to a limit.
-/

namespace IdlBindings

/-- What stands at a place. A device keeps what it receives to itself, and the standard output of a
run can be reached by a path, too. -/
inductive FileEntry where
  | file (content : ByteArray)
  | directory
  | link (target : String)
  | device (received : ByteArray)
  | standardOutput

/-- The entry after a content was written to it. A device takes it after all it has received. -/
def FileEntry.written (content : ByteArray) : Option FileEntry → FileEntry
  | some (.device received) => .device (received ++ content)
  | _ => .file content

/-- The entries by location, the newest first. The root is there without an entry. -/
structure FileTree where
  entries : List (Location × FileEntry)
  workingDirectory : Location

namespace FileTree

/-- A tree with an empty working directory, and with the standard output at its usual places. -/
def empty : FileTree where
  entries := [
    (["work"], .directory),
    (["proc"], .directory),
    (["proc", "self"], .directory),
    (["proc", "self", "fd"], .directory),
    (["proc", "self", "fd", "1"], .standardOutput),
    (["dev"], .directory),
    (["dev", "stdout"], .link "/proc/self/fd/1")]
  workingDirectory := ["work"]

def entryAt? (tree : FileTree) (location : Location) : Option FileEntry :=
  if location.isEmpty then some .directory else tree.entries.lookup location

/-- This sets the entry at a location. -/
def set (tree : FileTree) (location : Location) (entry : FileEntry) : FileTree :=
  { tree with entries := (location, entry) :: tree.entries }

/-- The greatest length of a name in bytes. -/
def nameLimit : Nat := 255

/-- The greatest length of a path in bytes. -/
def pathLimit : Nat := 4095

def pathNames (path : String) : List String :=
  (Text.split '/' path.toList).map String.ofList

def isSelf (name : String) : Bool := name == "" || name == "."

/-- One step from a directory by a name, which need not exist. -/
def step (tree : FileTree) (location : Location) (name : String) : Except DiskFault Location :=
  match tree.entryAt? location with
  | none => .error .missing
  | some .directory =>
      if isSelf name then .ok location
      else if name == ".." then .ok location.dropLast
      else if nameLimit < name.utf8ByteSize then .error .nameTooLong
      else .ok (location ++ [name])
  | some _ => .error .notDirectory

/-- A path from the root starts with a slash; every other starts at a given directory. -/
def startFrom (directory : Location) (path : String) : Location :=
  if path.toList.head? == some '/' then [] else directory

def start (tree : FileTree) (path : String) : Location := startFrom tree.workingDirectory path

/-- This goes by all names in turn up to the first link, which something else follows. -/
def walkWith (tree : FileTree) (step : Location → String → Except DiskFault Location)
    (follow : Location → List String → Except DiskFault Location) :
    Location → List String → Except DiskFault Location
  | location, [] => .ok location
  | location, name :: rest =>
      match step location name with
      | .error fault => .error fault
      | .ok next =>
          match tree.entryAt? next with
          | some (.link target) => follow (startFrom location target) (pathNames target ++ rest)
          | _ => tree.walkWith step follow next rest

/-- The greatest number of links on the way to one place. -/
def linkLimit : Nat := 40

/-- This goes by all names in turn, over no more than the given number of links. -/
def walk (tree : FileTree) (step : Location → String → Except DiskFault Location) :
    Nat → Location → List String → Except DiskFault Location
  | 0 => tree.walkWith step fun _ _ => .error .tooManyLinks
  | links + 1 => tree.walkWith step (tree.walk step links)

def isTooLong (path : String) : Bool := pathLimit < path.utf8ByteSize

/-- The entry at the end of a walk, with its location. -/
def arrive (tree : FileTree) (location : Location) : Except DiskFault (Location × FileEntry) :=
  match tree.entryAt? location with
  | some entry => .ok (location, entry)
  | none => .error .missing

/-- The location and the entry that a path leads to. -/
def find (tree : FileTree) (path : String) : Except DiskFault (Location × FileEntry) :=
  if path.isEmpty then .error .missing
  else if isTooLong path then .error .nameTooLong
  else (tree.walk tree.step linkLimit (tree.start path) (pathNames path)).bind tree.arrive

/-- The number of bytes of the path from the root. -/
def locationSize (location : Location) : Nat :=
  location.foldr (fun name size => name.utf8ByteSize + 1 + size) 0

/-- One step on the way to a location, whose path from the root has a greatest length. -/
def stepFromRoot (tree : FileTree) (location : Location) (name : String) :
    Except DiskFault Location := do
  let next ← tree.step location name
  if pathLimit < locationSize next then .error .nameTooLong else .ok next

def isFile (tree : FileTree) (path : String) : Bool :=
  match tree.find path with
  | .ok (_, .file _) => true
  | _ => false

/-- The location that a path leads to. It is found name by name, so the path itself may have any
length. -/
def location (tree : FileTree) (path : String) : Except DiskFault Location :=
  if path.isEmpty then .error .missing
  else
    ((tree.walk tree.stepFromRoot linkLimit (tree.start path) (pathNames path)).bind
      tree.arrive).map (·.1)

/-- Only files have something to read. -/
def read (tree : FileTree) (path : String) : Except DiskFault ByteArray :=
  match tree.find path with
  | .ok (_, .file content) => .ok content
  | .ok (_, .directory) => .error .isDirectory
  | .ok (_, _) => .ok ByteArray.empty
  | .error fault => .error fault

def disk (tree : FileTree) : Disk where
  isFile := tree.isFile
  location := tree.location
  read := tree.read

/-- Where a written text goes. -/
inductive Sink where
  | place (location : Location)
  | console
deriving DecidableEq

/-- What a path leads to for writing. The directory above it has to be there, the place itself need
not. A path that can only name a directory is refused before the name is looked at. -/
def sink (tree : FileTree) (path : String) : Except DiskFault Sink :=
  if path.isEmpty then .error .missing
  else if isTooLong path then .error .nameTooLong
  else
    let names := pathNames path
    let significant := (names.reverse.dropWhile fun name => name.isEmpty).reverse
    match significant.getLast? with
    | none => .error .isDirectory
    | some name =>
        if significant.length < names.length || isSelf name || name == ".." then do
          let _ ← tree.walk tree.step linkLimit (tree.start path) (significant.dropLast ++ ["."])
          .error .isDirectory
        else do
          let location ← tree.walk tree.step linkLimit (tree.start path) names
          match tree.entryAt? location with
          | some .directory => .error .isDirectory
          | some .standardOutput => .ok .console
          | _ => .ok (.place location)

/-- This writes to a place, where a file may be new. -/
def put (tree : FileTree) (location : Location) (content : ByteArray) : FileTree :=
  tree.set location (.written content (tree.entryAt? location))

/-- This goes one step by a name and sets the directory that it leads to, unless it is there. -/
def enter (tree : FileTree) (location : Location) (name : String) : FileTree × Location :=
  if isSelf name then (tree, location)
  else if name == ".." then (tree, location.dropLast)
  else
    let inner := location ++ [name]
    (if (tree.entryAt? inner).isSome then tree else tree.set inner .directory, inner)

/-- This goes by all names in turn, and sets every directory on the way. -/
def enterAll (tree : FileTree) (location : Location) : List String → FileTree × Location
  | [] => (tree, location)
  | name :: rest =>
      let (entered, inner) := tree.enter location name
      entered.enterAll inner rest

/-- This puts an entry into the tree together with the directories on the way to it. -/
def place (tree : FileTree) (path : String) (entry : FileEntry) : FileTree :=
  let names := pathNames path
  match entry with
  | .directory => (tree.enterAll (tree.start path) names).1
  | other =>
      let (entered, above) := tree.enterAll (tree.start path) names.dropLast
      entered.set (above ++ names.getLast?.toList) other

end FileTree

end IdlBindings
