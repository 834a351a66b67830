import IdlBindings.ArityIndex
import IdlBindings.ScopedName
import Mathlib.Data.List.Basic

/-
This file parts qualified names again: what stands before the first `::` tells where a declared
name lives. A library whose name has no colon is found there, and an index and a scope then know
the interface under the same name.
-/

namespace IdlBindings

namespace ArityIndex

/-- The characters of a qualified name. -/
theorem toList_qualifiedName (library interface : String) :
    (qualifiedName library interface).toList =
      library.toList ++ ':' :: ':' :: interface.toList := by
  simp [qualifiedName]

theorem colon_mem_qualifiedName (library interface : String) :
    ':' ∈ (qualifiedName library interface).toList := by
  simp [toList_qualifiedName]

/-- Qualified names are equal exactly if both of their parts are. -/
theorem qualifiedName_eq_iff {library other : String} (simple : ':' ∉ library.toList)
    (otherSimple : ':' ∉ other.toList) {interface otherInterface : String} :
    qualifiedName library interface = qualifiedName other otherInterface ↔
      library = other ∧ interface = otherInterface := by
  constructor
  · intro same
    have lists := congrArg String.toList same
    rw [toList_qualifiedName, toList_qualifiedName] at lists
    -- Both libraries end at the first colon.
    have lengths : library.toList.length = other.toList.length := by
      have firstColon := congrArg (List.idxOf ':') lists
      rwa [List.idxOf_append_of_notMem simple, List.idxOf_append_of_notMem otherSimple,
        List.idxOf_cons_self, List.idxOf_cons_self] at firstColon
    obtain ⟨libraries, interfaces⟩ := List.append_inj lists lengths
    refine ⟨String.toList_injective libraries, String.toList_injective ?_⟩
    simpa using interfaces
  · rintro ⟨rfl, rfl⟩
    rfl

end ArityIndex

namespace ScopedName

open ArityIndex (qualifiedName)

/-- A text is parted at its first `::`, and no bracket stands before it. -/
structure PartedAt (text space name : List Char) : Prop where
  whole : text = space ++ ':' :: ':' :: name
  unbracketed : '<' ∉ space
  first : ∀ before after, text = before ++ ':' :: ':' :: after → space.length ≤ before.length

/-- One more character in front of a text goes to its qualifier. -/
theorem PartedAt.cons {character : Char} {text space name : List Char}
    (parted : PartedAt text space name) (unbracketed : character ≠ '<')
    (notHere : ∀ rest, character :: text ≠ ':' :: ':' :: rest) :
    PartedAt (character :: text) (character :: space) name := by
  refine ⟨congrArg (character :: ·) parted.whole, ?_, ?_⟩
  · simp [unbracketed.symm, parted.unbracketed]
  · intro before after same
    cases before with
    | nil => exact absurd same (notHere after)
    | cons head before =>
        obtain ⟨_, rest⟩ := List.cons.inj same
        exact Nat.succ_le_succ (parted.first before after rest)

/-- One character less at the front of a text is missing in its qualifier. -/
theorem PartedAt.tail {character : Char} {text space name : List Char}
    (parted : PartedAt (character :: text) (character :: space) name) :
    PartedAt text space name := by
  refine ⟨List.tail_eq_of_cons_eq parted.whole, ?_, ?_⟩
  · exact fun bracket => parted.unbracketed (List.mem_cons_of_mem _ bracket)
  · intro before after same
    have longer := parted.first (character :: before) after (congrArg (character :: ·) same)
    exact Nat.le_of_succ_le_succ longer

/-- The qualifier is what stands before the first double colon, if no bracket comes first. -/
theorem splitQualifier_eq_some_iff {text space name : List Char} :
    splitQualifier text = some (space, name) ↔ PartedAt text space name := by
  constructor
  · intro split
    fun_induction splitQualifier text generalizing space name with
    | case1 => cases split
    | case2 rest =>
        cases split
        exact ⟨rfl, List.not_mem_nil, fun _ _ _ => Nat.zero_le _⟩
    | case3 => cases split
    | case4 character rest notHere unbracketed ih =>
        obtain ⟨⟨before, after⟩, found, same⟩ := Option.map_eq_some_iff.mp split
        cases same
        refine (ih found).cons (by simpa using unbracketed) ?_
        intro others same
        obtain ⟨colon, second⟩ := List.cons.inj same
        exact notHere others colon second
  · intro parted
    fun_induction splitQualifier text generalizing space name with
    | case1 => simpa using parted.whole
    | case2 rest =>
        have empty : space = [] := List.eq_nil_of_length_eq_zero
          (Nat.le_zero.mp (parted.first [] rest rfl))
        subst empty
        have same := parted.whole
        simp only [List.nil_append, List.cons.injEq, true_and] at same
        rw [same]
    | case3 character rest notHere bracket =>
        have isBracket : character = '<' := by simpa using bracket
        cases space with
        | nil => simpa [isBracket] using parted.whole
        | cons head space =>
            obtain ⟨same, _⟩ := List.cons.inj parted.whole
            exact absurd (by simp [← same, isBracket]) parted.unbracketed
    | case4 character rest notHere unbracketed ih =>
        cases space with
        | nil =>
            obtain ⟨colon, second⟩ := List.cons.inj parted.whole
            exact absurd second (notHere name colon)
        | cons head space =>
            obtain ⟨same, _⟩ := List.cons.inj parted.whole
            subst same
            rw [ih parted.tail]
            rfl

/-- What stands before the first `::` and what stands after it. -/
theorem eq_of_splitQualifier {text space name : List Char}
    (split : splitQualifier text = some (space, name)) : text = space ++ ':' :: ':' :: name :=
  (splitQualifier_eq_some_iff.mp split).whole

/-- A text without a colon has no qualifier. -/
theorem splitQualifier_of_not_mem {text : List Char} (simple : ':' ∉ text) :
    splitQualifier text = none := by
  cases split : splitQualifier text with
  | none => rfl
  | some parts =>
      rw [eq_of_splitQualifier split] at simple
      simp at simple

/-- The qualifier comes off, unless it has a bracket itself. -/
theorem splitQualifier_append {space : List Char} (simple : ':' ∉ space) (name : List Char) :
    splitQualifier (space ++ ':' :: ':' :: name) =
      if '<' ∈ space then none else some (space, name) := by
  induction space with
  | nil => rfl
  | cons character rest ih =>
      obtain ⟨notColon, restSimple⟩ := not_or.mp (mt List.mem_cons.mpr simple)
      rw [List.cons_append, splitQualifier, ih restSimple]
      · by_cases bracket : character = '<'
        · simp [bracket]
        · by_cases inside : '<' ∈ rest <;> simp [bracket, Ne.symm bracket, inside]
      · rintro _ rfl
        exact absurd rfl notColon

/-- Where a name comes from: its own library, a well-known space or a foreign one. -/
theorem originOf_cases (library space : String) :
    originOf library space = .own ∨
      (∃ aliasName, (space, aliasName) ∈ wellKnownSpaces ∧
        originOf library space = .wellKnown space aliasName) ∨
      originOf library space = .foreign space := by
  unfold originOf
  split
  · exact .inl rfl
  · split
    case h_1 aliasName known =>
      obtain ⟨before, after, listed, _⟩ := List.lookup_eq_some_iff.mp known
      refine .inr (.inl ⟨aliasName, ?_, rfl⟩)
      rw [listed]
      exact List.mem_append_right _ List.mem_cons_self
    case h_2 => exact .inr (.inr rfl)

/-- Only its own library is the origin of what is qualified by its name. -/
theorem originOf_eq_own_iff (library space : String) :
    originOf library space = .own ↔ space = library := by
  unfold originOf
  by_cases same : space = library
  · simp [same]
  · cases spaceAlias? space <;> simp [same]

/-- A namespace that is neither the library's own nor one that the support library republishes. -/
def Foreign (library space : String) : Prop :=
  space ≠ library ∧ ∀ aliasName, (space, aliasName) ∉ wellKnownSpaces

/-- A space is foreign exactly if it is neither the library nor well known. -/
theorem originOf_eq_foreign_iff (library space other : String) :
    originOf library space = .foreign other ↔ space = other ∧ Foreign library space := by
  constructor
  · intro foreign
    have elsewhere : space ≠ library := by
      intro same
      rw [(originOf_eq_own_iff library space).mpr same] at foreign
      cases foreign
    simp only [originOf, beq_iff_eq, if_neg elsewhere] at foreign
    cases known : spaceAlias? space with
    | some aliasName => simp [known] at foreign
    | none =>
        rw [known] at foreign
        refine ⟨Origin.foreign.inj foreign, elsewhere, fun aliasName listed => ?_⟩
        simpa using List.lookup_eq_none_iff.mp known _ listed
  · rintro ⟨rfl, elsewhere, unknown⟩
    rcases originOf_cases library space with own | ⟨aliasName, listed, _⟩ | foreign
    · exact absurd ((originOf_eq_own_iff library space).mp own) elsewhere
    · exact absurd listed (unknown aliasName)
    · exact foreign

/-- A declared name stands in a foreign namespace if that is what it is qualified by. -/
theorem foreignSpace?_resolve_eq_some_iff (library declared space : String) :
    (resolve library declared).foreignSpace? = some space ↔
      Foreign library space ∧ ∃ name, PartedAt declared.toList space.toList name := by
  cases split : splitQualifier declared.toList with
  | none =>
      rw [resolve, split]
      simp [foreignSpace?, ← splitQualifier_eq_some_iff, split]
  | some parts =>
      obtain ⟨before, after⟩ := parts
      have parted (name : List Char) : PartedAt declared.toList space.toList name ↔
          String.ofList before = space ∧ after = name := by
        rw [← splitQualifier_eq_some_iff, split, Option.some.injEq, Prod.mk.injEq,
          ← String.toList_inj, String.toList_ofList]
      have resolved : (resolve library declared).foreignSpace? = some space ↔
          originOf library (String.ofList before) = .foreign space := by
        rw [resolve, split]
        cases origin : originOf library (String.ofList before) <;> simp [foreignSpace?, origin]
      rw [resolved, originOf_eq_foreign_iff]
      simp only [parted]
      constructor
      · rintro ⟨rfl, foreign⟩
        exact ⟨foreign, after, rfl, rfl⟩
      · rintro ⟨foreign, _, rfl, _⟩
        exact ⟨rfl, foreign⟩

variable {library declared : String}

/-- A name without a colon is one of its own library. -/
theorem resolve_of_not_mem (simple : ':' ∉ declared.toList) :
    resolve library declared = ⟨.own, declared⟩ := by
  rw [resolve, splitQualifier_of_not_mem simple]

/-- A name that lives elsewhere is qualified, and looked up as it is written. -/
theorem lookupName_resolve (elsewhere : (resolve library declared).origin ≠ .own) :
    ':' ∈ declared.toList ∧ (resolve library declared).lookupName = declared := by
  cases split : splitQualifier declared.toList with
  | none =>
      rw [resolve, split] at elsewhere
      exact absurd rfl elsewhere
  | some parts =>
      obtain ⟨space, name⟩ := parts
      have written : qualifiedName (String.ofList space) (String.ofList name) = declared := by
        apply String.toList_injective
        rw [ArityIndex.toList_qualifiedName, eq_of_splitQualifier split]
        simp
      refine ⟨written ▸ ArityIndex.colon_mem_qualifiedName _ _, ?_⟩
      rw [resolve, split] at elsewhere ⊢
      rcases originOf_cases library (String.ofList space) with
        own | ⟨aliasName, _, aliased⟩ | foreign
      · exact absurd own elsewhere
      · simp only [lookupName, aliased]
        exact written
      · simp only [lookupName, foreign]
        exact written

/-- A qualified name is one of the library that it names, or else is looked up as it is written.
The second also happens in that library itself, if its name has a bracket. -/
theorem resolve_qualifiedName {space : String} (simple : ':' ∉ space.toList)
    (library interface : String) :
    (space = library ∧ resolve library (qualifiedName space interface) = ⟨.own, interface⟩) ∨
    (resolve library (qualifiedName space interface)).lookupName = qualifiedName space interface ∧
      ((resolve library (qualifiedName space interface)).origin = .own →
        (resolve library (qualifiedName space interface)).name =
          qualifiedName space interface) := by
  have split := splitQualifier_append simple interface.toList
  rw [← ArityIndex.toList_qualifiedName] at split
  by_cases bracket : '<' ∈ space.toList
  · rw [if_pos bracket] at split
    rw [resolve, split]
    exact .inr ⟨rfl, fun _ => rfl⟩
  · rw [if_neg bracket] at split
    have resolved : resolve library (qualifiedName space interface) =
        ⟨originOf library space, interface⟩ := by
      rw [resolve, split]
      simp
    by_cases same : space = library
    · rw [(originOf_eq_own_iff library space).mpr same] at resolved
      exact .inl ⟨same, resolved⟩
    · have elsewhere : (resolve library (qualifiedName space interface)).origin ≠ .own := by
        rw [resolved]
        exact mt (originOf_eq_own_iff library space).mp same
      exact .inr ⟨(lookupName_resolve elsewhere).2, fun own => absurd own elsewhere⟩

example : resolve "Parts<1>" "Parts<1>::IBox" = ⟨.own, "Parts<1>::IBox"⟩ := by decide

end ScopedName

end IdlBindings
