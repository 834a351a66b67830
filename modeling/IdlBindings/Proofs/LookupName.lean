import IdlBindings.Proofs.OwnQualifier

/-
This file compares a resolved name with the key it is looked up under. The key is the declared
name, up to the qualifier of the library itself, and tells which resolved name it belongs to.
-/

namespace IdlBindings

namespace ScopedName

variable {library declared : String}

/-- A name of the library itself was declared as it is looked up, or with the library before it. -/
theorem declared_of_own (own : (resolve library declared).origin = .own) :
    declared = (resolve library declared).lookupName ∨
      declared = library ++ "::" ++ (resolve library declared).lookupName := by
  cases split : splitQualifier declared.toList with
  | none =>
      apply Or.inl
      rw [resolve, split]
      rfl
  | some parts =>
      obtain ⟨space, name⟩ := parts
      rw [resolve, split] at own ⊢
      have isLibrary : String.ofList space = library := (originOf_eq_own_iff _ _).mp own
      apply Or.inr
      apply String.toList_injective
      rw [eq_of_splitQualifier split, ← isLibrary]
      simp [lookupName, (originOf_eq_own_iff _ _).mpr rfl]

/-- A parted name loses its qualifier, so that what is left is shorter. -/
theorem name_resolve_eq_iff (library name : String) :
    (resolve library name).name = name ↔ Unqualified name := by
  rw [← splitQualifier_eq_none_iff]
  cases split : splitQualifier name.toList with
  | none => simp [resolve, split]
  | some parts =>
      obtain ⟨space, rest⟩ := parts
      apply iff_of_false
      · intro same
        rw [resolve, split] at same
        have lengths := congrArg (fun text => text.toList.length) same
        rw [eq_of_splitQualifier split] at lengths
        simp only [String.toList_ofList, List.length_append, List.length_cons] at lengths
        omega
      · simp

/-- The key of a name that lives elsewhere is resolved as the name was. That of a name of the
library itself is taken for the name, unless it looks qualified. -/
theorem resolve_lookupName_eq_iff (library declared : String) :
    resolve library (resolve library declared).lookupName = resolve library declared ↔
      (resolve library declared).origin ≠ .own ∨ Unqualified (resolve library declared).name := by
  by_cases own : (resolve library declared).origin = .own
  · -- Here only the resolved name counts, whether or not it was declared with the library.
    generalize resolve library declared = resolved at own ⊢
    obtain ⟨origin, name⟩ := resolved
    obtain rfl : origin = .own := own
    change resolve library name = ⟨.own, name⟩ ↔ _
    constructor
    · intro same
      have kept : (resolve library name).name = name := congrArg ScopedName.name same
      exact .inr ((name_resolve_eq_iff library name).mp kept)
    · intro either
      have bare : Unqualified name := either.resolve_left fun elsewhere => elsewhere rfl
      exact resolve_of_unqualified bare
  · rw [(lookupName_resolve own).2]
    exact iff_of_true rfl (.inl own)

/-- A name that lives elsewhere is looked up as it is declared, and one of the library itself
possibly without the library before it. The key is resolved to the same name again, always for a
name from elsewhere, and else exactly if no `::` stands before the first bracket of the name. -/
theorem lookupName_denotes_resolved_name (library declared : String) :
    ((resolve library declared).origin ≠ .own →
      (resolve library declared).lookupName = declared) ∧
    ((resolve library declared).origin = .own →
      declared = (resolve library declared).lookupName ∨
        declared = library ++ "::" ++ (resolve library declared).lookupName) ∧
    (resolve library (resolve library declared).lookupName = resolve library declared ↔
      (resolve library declared).origin ≠ .own ∨ Unqualified (resolve library declared).name) := by
  refine ⟨?_, declared_of_own, resolve_lookupName_eq_iff library declared⟩
  intro elsewhere
  exact (lookupName_resolve elsewhere).2

/-- A library that the support library republishes is its own nevertheless, and a `::` after a
bracket parts nothing. -/
theorem lookupName_denotes_resolved_name_ownCollection :
    resolve "CAPEOPEN" "CAPEOPEN::ICollection<CAPEOPEN::IItem>" =
        ⟨.own, "ICollection<CAPEOPEN::IItem>"⟩ ∧
      resolve "CAPEOPEN" "ICollection<CAPEOPEN::IItem>" = ⟨.own, "ICollection<CAPEOPEN::IItem>"⟩ ∧
      (resolve "Thermo" "CAPEOPEN:::IItem").lookupName = "CAPEOPEN:::IItem" := by
  have own : resolve "CAPEOPEN" "CAPEOPEN::ICollection<CAPEOPEN::IItem>" =
      ⟨.own, "ICollection<CAPEOPEN::IItem>"⟩ := by decide
  have bare : Unqualified "ICollection<CAPEOPEN::IItem>" := by
    rw [← splitQualifier_eq_none_iff]
    decide
  have again := (lookupName_denotes_resolved_name "CAPEOPEN"
    "CAPEOPEN::ICollection<CAPEOPEN::IItem>").2.2
  rw [own] at again
  have elsewhere := (lookupName_denotes_resolved_name "Thermo" "CAPEOPEN:::IItem").1
  exact ⟨own, again.mpr (.inr bare), elsewhere (by decide)⟩

example : resolve "Thermo" "Thermo::Vendor::IThing" = ⟨.own, "Vendor::IThing"⟩ ∧
    resolve "Thermo" "Vendor::IThing" = ⟨.foreign "Vendor", "IThing"⟩ := by decide

end ScopedName

end IdlBindings
