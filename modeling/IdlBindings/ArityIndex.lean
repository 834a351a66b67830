import IdlBindings.Model

/-
This file indexes the template counts of interfaces by qualified and by bare name.
-/

namespace IdlBindings

structure ArityIndex where
  entries : List (String × Nat) := []

namespace ArityIndex

def empty : ArityIndex := {}

def get? (index : ArityIndex) (name : String) : Option Nat := index.entries.lookup name

/-- This sets the count of a name, whatever it was before. -/
def insert (index : ArityIndex) (name : String) (arity : Nat) : ArityIndex :=
  ⟨(name, arity) :: index.entries⟩

/-- This sets the count of a name that has none yet. -/
def insertNew (index : ArityIndex) (name : String) (arity : Nat) : ArityIndex :=
  if (index.get? name).isSome then index else index.insert name arity

def qualifiedName (library interface : String) : String := library ++ "::" ++ interface

/-- A qualified name takes the last count given to it, a bare name the first. -/
def addInterface (library : String) (index : ArityIndex) (interface : Model.Interface) :
    ArityIndex :=
  (index.insert (qualifiedName library interface.name) interface.arity).insertNew
    interface.name interface.arity

def addLibrary (index : ArityIndex) (library : Model.Library) : ArityIndex :=
  library.interfaces.foldl (addInterface library.name) index

def ofLibraries (libraries : List Model.Library) : ArityIndex :=
  libraries.foldl addLibrary empty

theorem get?_insert (index : ArityIndex) (key name : String) (arity : Nat) :
    (index.insert key arity).get? name = if name = key then some arity else index.get? name := by
  by_cases same : name = key
  · simp [get?, insert, same]
  · have differs : (name == key) = false := by simp [same]
    simp [get?, insert, List.lookup_cons, same, differs]

theorem get?_insertNew (index : ArityIndex) (key name : String) (arity : Nat) :
    (index.insertNew key arity).get? name =
      if name = key then some ((index.get? key).getD arity) else index.get? name := by
  unfold insertNew
  split
  case isTrue present =>
    obtain ⟨value, found⟩ := Option.isSome_iff_exists.mp present
    by_cases same : name = key
    · simp [same, found]
    · simp [same]
  case isFalse absent =>
    have missing : index.get? key = none := by simpa using absent
    rw [get?_insert]
    simp [missing]

end ArityIndex

end IdlBindings
