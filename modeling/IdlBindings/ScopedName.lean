import IdlBindings.Context

/-
This file resolves a declared type name into the name itself and the place where it lives.
-/

namespace IdlBindings

inductive Origin where
  | own
  | wellKnown (space aliasName : String)
  | foreign (space : String)
deriving DecidableEq

structure ScopedName where
  origin : Origin
  name : String
deriving DecidableEq

/-- The namespaces that the support library republishes, each with its module. -/
def wellKnownSpaces : List (String × String) :=
  [("CAPEOPEN", "cape_open"), ("CAPEOPEN_1_2", "cape_open_1_2")]

def spaceAlias? (space : String) : Option String := wellKnownSpaces.lookup space

namespace ScopedName

/-- The first `::` parts a namespace from a name, unless a bracket stands before it. -/
def splitQualifier : List Char → Option (List Char × List Char)
  | [] => none
  | ':' :: ':' :: rest => some ([], rest)
  | character :: rest =>
      if character == '<' then none
      else (splitQualifier rest).map fun parts => (character :: parts.1, parts.2)

def originOf (library space : String) : Origin :=
  if space == library then .own
  else
    match spaceAlias? space with
    | some aliasName => .wellKnown space aliasName
    | none => .foreign space

/-- This resolves a declared name as it is seen from a library. -/
def resolve (library declared : String) : ScopedName :=
  match splitQualifier declared.toList with
  | none => ⟨.own, declared⟩
  | some (space, name) => ⟨originOf library (String.ofList space), String.ofList name⟩

/-- The key under which an arity index knows the name. -/
def lookupName (resolved : ScopedName) : String :=
  match resolved.origin with
  | .own => resolved.name
  | .wellKnown space _ | .foreign space => space ++ "::" ++ resolved.name

def foreignSpace? (resolved : ScopedName) : Option String :=
  match resolved.origin with
  | .foreign space => some space
  | _ => none

/-- The raw declaration behind the name. -/
def rawName (context : Context) (resolved : ScopedName) : String :=
  match resolved.origin with
  | .own => context.nativePath resolved.name
  | .wellKnown space _ => context.supportRaw (space ++ "_" ++ resolved.name)
  | .foreign space => space ++ "::" ++ resolved.name

def qualify (context : Context) (resolved : ScopedName) (item : String) : String :=
  match resolved.origin with
  | .own => item
  | .wellKnown _ aliasName => context.supportPath (aliasName ++ "::" ++ item)
  | .foreign space => space ++ "::" ++ item

def displayName (context : Context) (resolved : ScopedName) : String :=
  resolved.qualify context resolved.name

def handleName (context : Context) (resolved : ScopedName) : String :=
  resolved.qualify context (Identifier.handleName resolved.name)

end ScopedName

end IdlBindings
