import IdlBindings.Proofs.BindingInvariant
import IdlBindings.Proofs.Qualifier
import IdlBindings.Proofs.Spelling

/-
This file shows that the name of an instantiated interface tells which one it is. A name is a path
of words, and behind the path the names that fill its places stand between brackets.
-/

namespace IdlBindings

namespace Text

/-- The part before the first character that stops is found again. -/
theorem takeWhile_append_of_stop {inside : Char → Bool} {part after : List Char}
    (within : ∀ character ∈ part, inside character = true)
    (stops : ∀ character ∈ after.head?, inside character = false) :
    (part ++ after).takeWhile inside = part := by
  rw [List.takeWhile_append_of_pos within]
  cases after with
  | nil => simp
  | cons character others => simp [stops character rfl]

/-- A part of a text ends at the first character that cannot belong to it. -/
theorem append_inj_of_stop {inside : Char → Bool} {left right rest otherRest : List Char}
    (leftInside : ∀ character ∈ left, inside character = true)
    (rightInside : ∀ character ∈ right, inside character = true)
    (stops : ∀ character ∈ rest.head?, inside character = false)
    (otherStops : ∀ character ∈ otherRest.head?, inside character = false)
    (same : left ++ rest = right ++ otherRest) : left = right ∧ rest = otherRest := by
  have parts : left = right := by
    rw [← takeWhile_append_of_stop leftInside stops, same,
      takeWhile_append_of_stop rightInside otherStops]
  subst parts
  exact ⟨rfl, List.append_cancel_left same⟩

end Text

namespace Identifier

/-- Words between `::` can be told from the text. -/
theorem eq_of_intercalate_eq {left right : List String} (leftNonempty : left ≠ [])
    (rightNonempty : right ≠ []) (leftWords : ∀ word ∈ left, IsWord word)
    (rightWords : ∀ word ∈ right, IsWord word)
    (same : String.intercalate "::" left = String.intercalate "::" right) : left = right := by
  have simple {word : String} (isWord : IsWord word) : ':' ∉ word.toList :=
    isWord.not_mem (by decide)
  induction left generalizing right with
  | nil => exact absurd rfl leftNonempty
  | cons word rest ih =>
      have wordSimple := simple (leftWords word List.mem_cons_self)
      match rest, right with
      | _, [] => exact absurd rfl rightNonempty
      | [], [other] =>
          rw [String.intercalate_singleton, String.intercalate_singleton] at same
          rw [same]
      | [], other :: next :: later =>
          rw [String.intercalate_singleton, String.intercalate_cons_cons] at same
          rw [same] at wordSimple
          simp at wordSimple
      | next :: later, [other] =>
          have otherSimple := simple (rightWords other List.mem_cons_self)
          rw [String.intercalate_singleton, String.intercalate_cons_cons] at same
          rw [← same] at otherSimple
          simp at otherSimple
      | next :: later, other :: otherNext :: otherLater =>
          have otherSimple := simple (rightWords other List.mem_cons_self)
          rw [String.intercalate_cons_cons, String.intercalate_cons_cons] at same
          obtain ⟨words, others⟩ := (ArityIndex.qualifiedName_eq_iff wordSimple otherSimple).mp same
          have rests := ih (by simp) (by simp)
            (fun entry member => leftWords entry (List.mem_cons_of_mem word member))
            (fun entry member => rightWords entry (List.mem_cons_of_mem other member)) others
          rw [words, rests]

end Identifier

open Identifier (IsWord)

/-- The well-known spaces and their aliases. -/
theorem alias_of_mem_wellKnownSpaces {space aliasName : String}
    (known : (space, aliasName) ∈ wellKnownSpaces) :
    space = "CAPEOPEN" ∧ aliasName = "cape_open" ∨
      space = "CAPEOPEN_1_2" ∧ aliasName = "cape_open_1_2" := by
  simpa [wellKnownSpaces] using known

namespace ScopedName

/-- The words of the path under which a name is shown. -/
def path (context : Context) (resolved : ScopedName) : List String :=
  match resolved.origin with
  | .own => [resolved.name]
  | .wellKnown _ aliasName => [context.support, aliasName, resolved.name]
  | .foreign space => [space, resolved.name]

/-- A display name is a path with double colons. -/
theorem displayName_eq_path (context : Context) (resolved : ScopedName) :
    resolved.displayName context = String.intercalate "::" (resolved.path context) := by
  obtain ⟨origin, name⟩ := resolved
  cases origin with
  | own => simp [displayName, qualify, path]
  | wellKnown space aliasName =>
      simp [displayName, qualify, path, Context.supportPath, String.append_assoc]
  | foreign space => simp [displayName, qualify, path]

/-- The name and its namespace are words, and an own name is one of the given ones. -/
def Legible (own : String → Prop) (resolved : ScopedName) : Prop :=
  IsWord resolved.name ∧
    match resolved.origin with
    | .own => own resolved.name
    | .wellKnown space aliasName => (space, aliasName) ∈ wellKnownSpaces
    | .foreign space => IsWord space

variable {own : String → Prop} {context : Context} {left right : ScopedName}

/-- All words on the path of a legible name are words. -/
theorem Legible.isWord_path (legible : left.Legible own) (support : IsWord context.support) :
    ∀ word ∈ left.path context, IsWord word := by
  obtain ⟨origin, name⟩ := left
  obtain ⟨nameWord, place⟩ := legible
  cases origin with
  | own => simpa [path] using nameWord
  | wellKnown space aliasName =>
      have aliasWord : IsWord aliasName := by
        rcases alias_of_mem_wellKnownSpaces place with ⟨_, rfl⟩ | ⟨_, rfl⟩ <;>
          exact IsWord.of_isIdentifier (by decide)
      simpa [path] using ⟨support, aliasWord, nameWord⟩
  | foreign space => simpa [path] using ⟨place, nameWord⟩

/-- Legible names with one path are equal. -/
theorem eq_of_path_eq (leftLegible : left.Legible own) (rightLegible : right.Legible own)
    (paths : left.path context = right.path context) : left = right := by
  obtain ⟨origin, name⟩ := left
  obtain ⟨otherOrigin, otherName⟩ := right
  cases origin with
  | own =>
      cases otherOrigin with
      | own => simpa [path] using paths
      | wellKnown _ _ | foreign _ => simp [path] at paths
  | wellKnown space aliasName =>
      cases otherOrigin with
      | own | foreign _ => simp [path] at paths
      | wellKnown otherSpace otherAlias =>
          obtain ⟨rfl, rfl⟩ : aliasName = otherAlias ∧ name = otherName := by
            simpa [path] using paths
          -- Both namespaces are republished under the same module, so they are the same.
          have spaces : space = otherSpace := by
            rcases alias_of_mem_wellKnownSpaces leftLegible.2 with ⟨rfl, rfl⟩ | ⟨rfl, rfl⟩ <;>
              simpa [wellKnownSpaces, eq_comm] using rightLegible.2
          rw [spaces]
  | foreign space =>
      cases otherOrigin with
      | own | wellKnown _ _ => simp [path] at paths
      | foreign otherSpace =>
          obtain ⟨rfl, rfl⟩ : space = otherSpace ∧ name = otherName := by simpa [path] using paths
          rfl

end ScopedName

namespace ObjectInterface

/-- The words of the display name of an interface. -/
def path (context : Context) : ObjectInterface → List String
  | base => [context.support, "C", "ICapeInterface"]
  | named name => name.path context

/-- The names in an interface can be read back. -/
def Legible (own : String → Prop) : ObjectInterface → Prop
  | base => True
  | named name => name.Legible own

variable {own : String → Prop} {context : Context} {left right : ObjectInterface}

/-- All words on the path of a legible interface are words. -/
theorem Legible.isWord_path (legible : left.Legible own) (support : IsWord context.support) :
    ∀ word ∈ left.path context, IsWord word := by
  cases left with
  | base =>
      have fixed : IsWord "C" ∧ IsWord "ICapeInterface" :=
        ⟨IsWord.of_isIdentifier (by decide), IsWord.of_isIdentifier (by decide)⟩
      simpa [path] using ⟨support, fixed⟩
  | named name => exact ScopedName.Legible.isWord_path legible support

/-- The base interface stands in a module that is not one of the republished namespaces. -/
theorem path_base_ne {name : ScopedName} (legible : name.Legible own) :
    base.path context ≠ name.path context := by
  obtain ⟨origin, text⟩ := name
  cases origin with
  | own | foreign _ => simp [path, ScopedName.path]
  | wellKnown space aliasName =>
      rcases alias_of_mem_wellKnownSpaces legible.2 with ⟨_, rfl⟩ | ⟨_, rfl⟩ <;>
        simp [path, ScopedName.path]

/-- Legible interfaces with one path are equal. -/
theorem eq_of_path_eq (leftLegible : left.Legible own) (rightLegible : right.Legible own)
    (paths : left.path context = right.path context) : left = right := by
  cases left with
  | base =>
      cases right with
      | base => rfl
      | named name => exact absurd paths (path_base_ne rightLegible)
  | named name =>
      cases right with
      | base => exact absurd paths.symm (path_base_ne leftLegible)
      | named other => rw [ScopedName.eq_of_path_eq leftLegible rightLegible paths]

end ObjectInterface

namespace TemplateArgument

/-- The words that the shown name starts with. -/
def path (context : Context) : TemplateArgument → List String
  | parameter name => [name]
  | object interface _ => interface.path context

/-- What fills the places of an object. -/
def filling : TemplateArgument → List TemplateArgument
  | parameter _ => []
  | object _ arguments => arguments

/-- All names are words, parameters and own interfaces are among the given ones, and the base
interface is not filled. -/
def LegibleHead (parameters own : String → Prop) : TemplateArgument → Prop
  | parameter name => IsWord name ∧ parameters name
  | object interface arguments => interface.Legible own ∧ (interface = .base → arguments = [])

/-- All parts of an argument can be read back. -/
def Legible (parameters own : String → Prop) (argument : TemplateArgument) : Prop :=
  ∀ part : TemplateArgument, part.Occurs argument → part.LegibleHead parameters own

/-- Display names are written one by one. -/
theorem displayNames_eq_map (context : Context) (arguments : List TemplateArgument) :
    displayNames context arguments = arguments.map (displayName context) := by
  induction arguments with
  | nil => rw [displayNames, List.map_nil]
  | cons argument rest ih => rw [displayNames, List.map_cons, ih]

variable {parameters own : String → Prop} {context : Context} {left right : TemplateArgument}

theorem Legible.head (legible : left.Legible parameters own) : left.LegibleHead parameters own :=
  legible left .whole

/-- What fills a legible argument is legible. -/
theorem Legible.of_mem_filling (legible : left.Legible parameters own) {inner : TemplateArgument}
    (member : inner ∈ left.filling) : inner.Legible parameters own := by
  intro part occurs
  cases left with
  | parameter name => cases member
  | object interface arguments => exact legible part (.inside member occurs)

/-- The display name of an argument is its path, and what fills it in brackets. -/
theorem LegibleHead.displayName_eq (legible : left.LegibleHead parameters own) :
    left.displayName context =
      String.intercalate "::" (left.path context) ++
        bracketed (left.filling.map (displayName context)) := by
  cases left with
  | parameter name => simp [displayName, path, filling, bracketed]
  | object interface arguments =>
      rw [displayName, displayNames_eq_map]
      cases interface with
      | base =>
          rw [legible.2 rfl]
          simp [ObjectInterface.displayName, path, ObjectInterface.path, filling, bracketed,
            Context.supportRaw, String.append_assoc]
      | named name =>
          simp only [ObjectInterface.displayName, ScopedName.displayName_eq_path, path,
            ObjectInterface.path, filling]

/-- All words on the path of a legible argument are words. -/
theorem LegibleHead.isWord_path (legible : left.LegibleHead parameters own)
    (support : IsWord context.support) : ∀ word ∈ left.path context, IsWord word := by
  cases left with
  | parameter name => simpa [path] using legible.1
  | object interface arguments => exact legible.1.isWord_path support

theorem path_ne_nil (context : Context) (argument : TemplateArgument) :
    argument.path context ≠ [] := by
  cases argument with
  | parameter name => simp [path]
  | object interface arguments =>
      cases interface with
      | base => simp [path, ObjectInterface.path]
      | named name =>
          obtain ⟨origin, text⟩ := name
          cases origin <;> simp [path, ObjectInterface.path, ScopedName.path]

section Apart

variable (apart : ∀ name, parameters name → ¬ own name)

include apart

/-- A parameter can only be taken for an own interface of the same name. -/
theorem path_parameter_ne {name : String} (known : parameters name) {interface : ObjectInterface}
    (legible : interface.Legible own) : [name] ≠ interface.path context := by
  cases interface with
  | base => simp [ObjectInterface.path]
  | named reference =>
      obtain ⟨origin, text⟩ := reference
      cases origin with
      | wellKnown _ _ | foreign _ => simp [ObjectInterface.path, ScopedName.path]
      | own =>
          intro same
          obtain rfl : name = text := by simpa [ObjectInterface.path, ScopedName.path] using same
          exact apart name known legible.2

/-- Legible arguments with one path and one filling are equal. -/
theorem eq_of_path_eq (leftLegible : left.LegibleHead parameters own)
    (rightLegible : right.LegibleHead parameters own)
    (paths : left.path context = right.path context) (fillings : left.filling = right.filling) :
    left = right := by
  cases left with
  | parameter name =>
      cases right with
      | parameter other => simpa [path] using paths
      | object interface arguments =>
          exact absurd paths (path_parameter_ne apart leftLegible.2 rightLegible.1)
  | object interface arguments =>
      cases right with
      | parameter other =>
          exact absurd paths.symm (path_parameter_ne apart rightLegible.2 leftLegible.1)
      | object otherInterface otherArguments =>
          have interfaces := ObjectInterface.eq_of_path_eq leftLegible.1 rightLegible.1 paths
          have arguments : arguments = otherArguments := fillings
          rw [interfaces, arguments]

end Apart

/-- What may follow the name of a type in a longer one. -/
def Ends (rest : List Char) : Prop := ∀ character ∈ rest.head?, character = ',' ∨ character = '>'

/-- The characters of a path. -/
def isPathCharacter (character : Char) : Bool :=
  Identifier.isWordCharacter character || character == ':'

/-- The path of an argument has no characters but those of paths. -/
theorem isPathCharacter_of_path {argument : TemplateArgument}
    (words : ∀ word ∈ argument.path context, IsWord word) :
    ∀ character ∈ (String.intercalate "::" (argument.path context)).toList,
      isPathCharacter character = true := by
  apply Spelled.intercalate
  · intro character member
    obtain rfl : character = ':' := by simpa using member
    decide
  · intro word member character within
    simp [isPathCharacter, words word member character within]

/-- An argument can be told from its shown name, and so can the place where the name ends. -/
def Unambiguous (context : Context) (parameters own : String → Prop)
    (argument : TemplateArgument) : Prop :=
  ∀ other : TemplateArgument, other.Legible parameters own → ∀ rest otherRest : List Char,
    Ends rest → Ends otherRest →
    (argument.displayName context).toList ++ rest =
      (other.displayName context).toList ++ otherRest →
    argument = other ∧ rest = otherRest

/-- The shown names of arguments, each after a separator. -/
def listed (context : Context) (arguments : List TemplateArgument) : List Char :=
  arguments.flatMap fun argument => ',' :: (argument.displayName context).toList

/-- A list of display names is the first one, and the rest with commas. -/
theorem toList_intercalate_listed (context : Context) (first : TemplateArgument)
    (rest : List TemplateArgument) :
    (String.intercalate "," ((first :: rest).map (displayName context))).toList =
      (first.displayName context).toList ++ listed context rest := by
  induction rest generalizing first with
  | nil => simp [listed]
  | cons next later ih =>
      have others := ih next
      rw [List.map_cons] at others
      rw [List.map_cons, List.map_cons, String.intercalate_cons_cons, String.toList_append, others]
      simp [listed]

/-- A list in brackets starts and ends with its brackets. -/
theorem toList_bracketed_cons (context : Context) (first : TemplateArgument)
    (rest : List TemplateArgument) :
    (bracketed ((first :: rest).map (displayName context))).toList =
      '<' :: ((first.displayName context).toList ++ listed context rest ++ ['>']) := by
  have filled : ((first :: rest).map (displayName context)).isEmpty = false := rfl
  rw [bracketed, filled, if_neg (by decide), String.toList_append, String.toList_append,
    toList_intercalate_listed]
  rfl

/-- After the arguments of a list comes something that ends the last one. -/
theorem ends_listed (arguments : List TemplateArgument) (rest : List Char) :
    Ends (listed context arguments ++ '>' :: rest) := by
  intro character member
  cases arguments with
  | nil => exact .inr (by simpa [listed, eq_comm] using member)
  | cons argument others => exact .inl (by simpa [listed, eq_comm] using member)

/-- Lists of display names that are written alike are lists of equal arguments. -/
theorem eq_of_listed_eq {arguments others : List TemplateArgument} {rest otherRest : List Char}
    (each : ∀ argument ∈ arguments, Unambiguous context parameters own argument)
    (legible : ∀ other ∈ others, other.Legible parameters own)
    (same : listed context arguments ++ '>' :: rest = listed context others ++ '>' :: otherRest) :
    arguments = others ∧ rest = otherRest := by
  induction arguments generalizing others with
  | nil =>
      cases others with
      | nil => simpa [listed] using same
      | cons other later => simp [listed] at same
  | cons argument later ih =>
      cases others with
      | nil => simp [listed] at same
      | cons other otherLater =>
          simp only [listed, List.flatMap_cons, List.cons_append, List.append_assoc,
            List.cons.injEq, true_and] at same
          obtain ⟨rfl, tails⟩ := each argument List.mem_cons_self other
            (legible other List.mem_cons_self) _ _ (ends_listed later rest)
            (ends_listed otherLater otherRest) same
          obtain ⟨rfl, rests⟩ := ih
            (fun inner member => each inner (List.mem_cons_of_mem argument member))
            (fun inner member => legible inner (List.mem_cons_of_mem argument member)) tails
          exact ⟨rfl, rests⟩

/-- What stands behind a path does not belong to it. -/
theorem stops_bracketed (arguments : List TemplateArgument) {rest : List Char} (ends : Ends rest) :
    ∀ character ∈ ((bracketed (arguments.map (displayName context))).toList ++ rest).head?,
      isPathCharacter character = false := by
  intro character member
  cases arguments with
  | nil => rcases ends character member with rfl | rfl <;> decide
  | cons argument others =>
      rw [toList_bracketed_cons] at member
      obtain rfl : character = '<' := by simpa [eq_comm] using member
      decide

/-- Lists in brackets that are written alike are lists of equal arguments. -/
theorem eq_of_bracketed_eq {arguments others : List TemplateArgument} {rest otherRest : List Char}
    (each : ∀ argument ∈ arguments, Unambiguous context parameters own argument)
    (legible : ∀ other ∈ others, other.Legible parameters own) (ends : Ends rest)
    (otherEnds : Ends otherRest)
    (same : (bracketed (arguments.map (displayName context))).toList ++ rest =
      (bracketed (others.map (displayName context))).toList ++ otherRest) :
    arguments = others ∧ rest = otherRest := by
  have unfilled (rest : List Char) :
      (bracketed (([] : List TemplateArgument).map (displayName context))).toList ++ rest = rest :=
    rfl
  -- An opening bracket cannot be what follows a name without one.
  have noBracket {rest text : List Char} (ends : Ends rest) : rest ≠ '<' :: text := by
    rintro rfl
    exact absurd (ends '<' rfl) (by decide)
  cases arguments with
  | nil =>
      cases others with
      | nil => exact ⟨rfl, same⟩
      | cons other later =>
          rw [unfilled, toList_bracketed_cons] at same
          exact absurd same (noBracket ends)
  | cons argument later =>
      cases others with
      | nil =>
          rw [unfilled, toList_bracketed_cons] at same
          exact absurd same.symm (noBracket otherEnds)
      | cons other otherLater =>
          rw [toList_bracketed_cons, toList_bracketed_cons] at same
          apply eq_of_listed_eq each legible
          simpa [listed] using same

section Apart

variable (apart : ∀ name, parameters name → ¬ own name)

include apart

/-- A name is read as a path up to the first bracket or separator, and then bracket by bracket. -/
theorem unambiguous_of_filling (support : IsWord context.support) {argument : TemplateArgument}
    (legible : argument.Legible parameters own)
    (each : ∀ inner ∈ argument.filling, Unambiguous context parameters own inner) :
    Unambiguous context parameters own argument := by
  intro other otherLegible rest otherRest ends otherEnds same
  rw [legible.head.displayName_eq, otherLegible.head.displayName_eq, String.toList_append,
    String.toList_append, List.append_assoc, List.append_assoc] at same
  have words := legible.head.isWord_path support
  have otherWords := otherLegible.head.isWord_path support
  obtain ⟨paths, tails⟩ := Text.append_inj_of_stop (isPathCharacter_of_path words)
    (isPathCharacter_of_path otherWords) (stops_bracketed argument.filling ends)
    (stops_bracketed other.filling otherEnds) same
  have samePath : argument.path context = other.path context :=
    Identifier.eq_of_intercalate_eq (path_ne_nil context argument) (path_ne_nil context other)
      words otherWords (String.toList_injective paths)
  obtain ⟨fillings, rests⟩ := eq_of_bracketed_eq each
    (fun inner member => otherLegible.of_mem_filling member) ends otherEnds tails
  exact ⟨eq_of_path_eq apart legible.head otherLegible.head samePath fillings, rests⟩

/-- A legible argument is determined by its display name, at any depth. -/
theorem unambiguous_of_legible (support : IsWord context.support) (argument : TemplateArgument) :
    argument.Legible parameters own → Unambiguous context parameters own argument := by
  induction argument using TemplateArgument.induction with
  | parameterCase name =>
      intro legible
      exact unambiguous_of_filling apart support legible nofun
  | objectCase interface arguments ih =>
      intro legible
      apply unambiguous_of_filling apart support legible
      intro inner member
      exact ih inner member (legible.of_mem_filling member)

end Apart

end TemplateArgument

/-- Only well-known spaces are resolved as such. -/
theorem ScopedName.mem_wellKnownSpaces {library declared space aliasName : String}
    (origin : (resolve library declared).origin = .wellKnown space aliasName) :
    (space, aliasName) ∈ wellKnownSpaces := by
  unfold resolve at origin
  split at origin
  · cases origin
  case h_2 before after _ =>
    rcases originOf_cases library (String.ofList before) with own | ⟨_, known, aliased⟩ | foreign
    · simp [own] at origin
    · rw [aliased] at origin
      cases origin
      exact known
    · simp [foreign] at origin

/-- The namespace of a name that is not of its own library. -/
def Origin.space? : Origin → Option String
  | own => none
  | wellKnown space _ => some space
  | foreign space => some space

/-- The parameter, or the interface and its namespace, is named by an identifier. -/
def TemplateArgument.IsNamed : TemplateArgument → Prop
  | parameter name => Identifier.isIdentifier name = true
  | object .base _ => True
  | object (.named resolved) _ => Identifier.isIdentifier resolved.name = true ∧
      ∀ space, resolved.origin.space? = some space → Identifier.isIdentifier space = true

namespace ObjectType

/-- All names in the type are identifiers, at any depth. -/
def IsNamed (type : ObjectType) : Prop :=
  ∀ part : TemplateArgument, (ArgumentType.object type).Holds part → part.IsNamed

/-- The type holds the template parameter. -/
def UsesParameter (type : ObjectType) (name : String) : Prop :=
  (ArgumentType.object type).Holds (.parameter name)

/-- The type holds an interface of its own library. -/
def UsesOwn (type : ObjectType) (name : String) : Prop :=
  ∃ arguments, (ArgumentType.object type).Holds (.object (.named ⟨.own, name⟩) arguments)

end ObjectType

namespace Scope

variable {scope : Scope} {owner : Model.Interface}

/-- Every name in a resolved type was resolved from a declared one. -/
theorem exists_declared_of_occurs {type : Model.DataType} {argument : TemplateArgument}
    (resolved : scope.templateArgument owner type = .ok argument) :
    ∀ name arguments, (TemplateArgument.object (.named name) arguments).Occurs argument →
      ∃ declared, name = ScopedName.resolve scope.library declared := by
  refine scope.templateArgument_induction owner (motive := fun _ argument =>
    ∀ name arguments, (TemplateArgument.object (.named name) arguments).Occurs argument →
      ∃ declared, name = ScopedName.resolve scope.library declared) ?_ ?_ resolved
  · intro type index name _ _ reference arguments occurs
    cases TemplateArgument.occurs_parameter_iff.mp occurs
  · intro type arguments _ _ inner name others occurs
    rcases TemplateArgument.occurs_object_iff.mp occurs with same | ⟨argument, member, within⟩
    · have refers : ObjectInterface.named name = scope.referred type.typeName := by
        injection same
      unfold referred at refers
      split at refers
      · cases refers
      · exact ⟨type.typeName, ObjectInterface.named.inj refers⟩
    · obtain ⟨_, _, follows⟩ := exists_mem_of_forall₂ inner member
      exact follows name others within

/-- An object that was resolved is legible if its names are identifiers. -/
theorem legible_of_argumentType {direction : Direction} {type : Model.DataType}
    {objectType : ObjectType}
    (resolved : scope.argumentType owner direction type = .ok (.object objectType))
    (named : objectType.IsNamed) {parameters own : String → Prop}
    (usesParameter : ∀ name, objectType.UsesParameter name → parameters name)
    (usesOwn : ∀ name, objectType.UsesOwn name → own name) :
    (TemplateArgument.object objectType.interface objectType.arguments).Legible parameters own := by
  obtain ⟨kind, found⟩ : type.kind = .interface ∧ scope.object owner type = .ok objectType := by
    cases resolves_of_argumentType resolved with
    | object _ kind found => exact ⟨kind, found⟩
  have filled : scope.templateArgument owner type =
      .ok (.object objectType.interface objectType.arguments) := by
    rw [scope.templateArgument_eq_object owner kind, found]
    rfl
  intro part occurs
  have spelled := named part occurs
  cases part with
  | parameter name => exact ⟨IsWord.of_isIdentifier spelled, usesParameter name occurs⟩
  | object interface arguments =>
      have arity : scope.HasArity interface arguments.length := object_sound kind found occurs
      cases interface with
      | base =>
          refine ⟨trivial, fun _ => ?_⟩
          generalize count : arguments.length = places at arity
          cases arity
          exact List.eq_nil_of_length_eq_zero count
      | named name =>
          refine ⟨⟨IsWord.of_isIdentifier spelled.1, ?_⟩, nofun⟩
          obtain ⟨origin, text⟩ := name
          cases origin with
          | own => exact usesOwn text ⟨arguments, occurs⟩
          | wellKnown space aliasName =>
              obtain ⟨declared, same⟩ := exists_declared_of_occurs filled _ _ occurs
              exact ScopedName.mem_wellKnownSpaces (congrArg ScopedName.origin same).symm
          | foreign space => exact IsWord.of_isIdentifier (spelled.2 space rfl)

end Scope

/-- Two resolved objects with the same shown name are the same, if all their names are identifiers
and none is that of a parameter and of an own interface. -/
theorem display_name_determines_object {scope : Scope} {owner : Model.Interface} {context : Context}
    (support : Identifier.isIdentifier context.support = true)
    {direction otherDirection : Direction} {type otherType : Model.DataType}
    {left right : ObjectType}
    (leftResolved : scope.argumentType owner direction type = .ok (.object left))
    (rightResolved : scope.argumentType owner otherDirection otherType = .ok (.object right))
    (leftNamed : left.IsNamed) (rightNamed : right.IsNamed)
    (apart : ∀ name, left.UsesParameter name ∨ right.UsesParameter name →
      ¬ (left.UsesOwn name ∨ right.UsesOwn name))
    (same : left.displayName context = right.displayName context) : left = right := by
  have shown : (TemplateArgument.object left.interface left.arguments).displayName context =
      (TemplateArgument.object right.interface right.arguments).displayName context := by
    rw [TemplateArgument.displayName, TemplateArgument.displayName]
    exact same
  -- The names of parameters and of own interfaces are taken from both types together.
  have unambiguous := TemplateArgument.unambiguous_of_legible apart (IsWord.of_isIdentifier support)
  obtain ⟨objects, _⟩ := unambiguous _
    (Scope.legible_of_argumentType leftResolved leftNamed (fun _ => .inl) (fun _ => .inl)) _
    (Scope.legible_of_argumentType rightResolved rightNamed (fun _ => .inr) (fun _ => .inr))
    [] [] nofun nofun (by rw [shown])
  obtain ⟨interfaces, arguments⟩ := TemplateArgument.object.inj objects
  cases left
  cases right
  subst interfaces arguments
  rfl

/-- An interface with one template parameter. -/
def collectionInterface : Model.Interface where
  name := "ICollection"
  uuid := ⟨List.replicate 16 35, rfl⟩
  templateArguments := ["Item"]

/-- A library with this one interface, beside two interfaces of others. -/
def collectionScope : Scope where
  library := "Thermo"
  interfaces := [collectionInterface]
  external := fun name =>
    if name == "Vendor::IPair" then some 2
    else if name == "CAPEOPEN::ICapeList" then some 1
    else none

/-- A pair of a list of items and a collection of any objects, where the collection is named as
given. -/
def pairOf (collection : String) : Model.DataType where
  kind := .interface
  name := some "Vendor::IPair"
  templateTypes := [
    { kind := .interface
      name := some "CAPEOPEN::ICapeList"
      templateTypes := [{ kind := .templateArgument, templateIndex := some 0 }] },
    { kind := .interface
      name := some collection
      templateTypes := [{ kind := .interface }] }]

/-- What a pair is resolved to. -/
def pairType : ObjectType where
  interface := .named ⟨.foreign "Vendor", "IPair"⟩
  arguments := [
    .object (.named ⟨.wellKnown "CAPEOPEN" "cape_open", "ICapeList"⟩) [.parameter "Item"],
    .object (.named ⟨.own, "ICollection"⟩) [.object .base []]]

/-- All that the sample type holds. -/
theorem holds_pairType_iff {part : TemplateArgument} :
    (ArgumentType.object pairType).Holds part ↔
      part = .object pairType.interface pairType.arguments ∨
      part = .object (.named ⟨.wellKnown "CAPEOPEN" "cape_open", "ICapeList"⟩)
        [.parameter "Item"] ∨
      part = .parameter "Item" ∨
      part = .object (.named ⟨.own, "ICollection"⟩) [.object .base []] ∨
      part = .object .base [] := by
  simp [ArgumentType.Holds, pairType, TemplateArgument.occurs_object_iff,
    TemplateArgument.occurs_parameter_iff, or_assoc]

theorem pairType_isNamed : pairType.IsNamed := by
  intro part held
  rcases holds_pairType_iff.mp held with rfl | rfl | rfl | rfl | rfl
  · refine ⟨by decide, ?_⟩
    rintro _ ⟨⟩
    decide
  · refine ⟨by decide, ?_⟩
    rintro _ ⟨⟩
    decide
  · change Identifier.isIdentifier "Item" = true
    decide
  · exact ⟨by decide, nofun⟩
  · trivial

theorem pairType_apart {name : String} (parameter : pairType.UsesParameter name) :
    ¬ pairType.UsesOwn name := by
  have item : name = "Item" := by simpa [pairType] using holds_pairType_iff.mp parameter
  intro own
  obtain ⟨arguments, held⟩ := own
  have collection := holds_pairType_iff.mp held
  simp [pairType, item] at collection

/-- Two spellings of one type, which have one display name. -/
theorem display_name_determines_object_pairType :
    ∃ left right,
      collectionScope.argumentType collectionInterface .input (pairOf "ICollection") =
        .ok (.object left) ∧
      collectionScope.argumentType collectionInterface .output (pairOf "Thermo::ICollection") =
        .ok (.object right) ∧
      left.displayName (Options.context {} "Thermo") =
        "Vendor::IPair<cobia::cape_open::ICapeList<Item>,ICollection<cobia::C::ICapeInterface>>" ∧
      left.displayName (Options.context {} "Thermo") =
        right.displayName (Options.context {} "Thermo") ∧
      left = right := by
  have leftResolved : collectionScope.argumentType collectionInterface .input
      (pairOf "ICollection") = .ok (.object pairType) := rfl
  have rightResolved : collectionScope.argumentType collectionInterface .output
      (pairOf "Thermo::ICollection") = .ok (.object pairType) := rfl
  have support : Identifier.isIdentifier (Options.context {} "Thermo").support = true := by decide
  refine ⟨pairType, pairType, leftResolved, rightResolved, rfl, rfl, ?_⟩
  apply display_name_determines_object support leftResolved rightResolved pairType_isNamed
    pairType_isNamed
  · intro name parameter
    rw [or_self] at parameter ⊢
    exact pairType_apart parameter
  · rfl

end IdlBindings
