import IdlBindings.Proofs.SnakeCase

/-
This file tells when two names without a separator give one symbol. All that is lost is whether
the first letter was a capital, since a word gets a separator in front either way.
-/

namespace IdlBindings

namespace Identifier

/-- The two names differ at most in the case of their first letter. -/
def EqualUpToFirstCase (name other : String) : Prop :=
  name.toList.modifyHead Char.toLower = other.toList.modifyHead Char.toLower

/-- Two spellings of one word without a separator in either have the same capitals. -/
theorem SameSpelling.eq_of_not_mem {word other : List Char} (same : SameSpelling word other)
    (simple : '_' ∉ word) (otherSimple : '_' ∉ other) : word = other := by
  induction same with
  | nil => rfl
  | keep character _ ih =>
      have later := ih (fun member => simple (List.mem_cons_of_mem _ member))
        (fun member => otherSimple (List.mem_cons_of_mem _ member))
      rw [later]
  | separate _ _ _ => exact absurd List.mem_cons_self otherSimple
  | join _ _ _ => exact absurd List.mem_cons_self simple

/-- Without separators, words that are separated alike are equal. -/
theorem separateCapitals_inj {word other : List Char} (simple : '_' ∉ word)
    (otherSimple : '_' ∉ other) :
    separateCapitals word = separateCapitals other ↔ word = other := by
  rw [separateCapitals_eq_iff]
  constructor
  · intro same
    exact same.eq_of_not_mem simple otherSimple
  · rintro rfl
    exact separateCapitals_eq_iff.mp rfl

theorem not_mem_modifyHead_toLower {word : List Char} (simple : '_' ∉ word) :
    '_' ∉ word.modifyHead Char.toLower := by
  cases word with
  | nil => exact simple
  | cons first rest =>
      obtain ⟨firstDiffers, restSimple⟩ := not_or.mp (mt List.mem_cons.mpr simple)
      rw [List.modifyHead_cons, List.mem_cons, not_or]
      refine ⟨?_, restSimple⟩
      intro separator
      exact firstDiffers ((toLower_eq_separator_iff first).mp separator.symm).symm

/-- A capital in front brings its separator along; any other word gets one. -/
theorem withLeadingSeparator_of_not_mem {word : List Char} (simple : '_' ∉ word) :
    withLeadingSeparator (separateCapitals word) =
      '_' :: separateCapitals (word.modifyHead Char.toLower) := by
  cases word with
  | nil => rfl
  | cons first rest =>
      have firstDiffers : first ≠ '_' := by
        rintro rfl
        exact simple List.mem_cons_self
      rw [List.modifyHead_cons]
      cases capital : first.isUpper with
      | true =>
          rw [separateCapitals_capital capital,
            separateCapitals_other (toLower_of_isUpper capital).2.1]
          rfl
      | false =>
          have kept : first.toLower = first :=
            Char.toLower_eq_of_not_isUpper (by simp [capital])
          rw [kept, separateCapitals_other capital]
          simp [withLeadingSeparator, firstDiffers]

/-- Without separators, two names give one symbol exactly if they are equal up to the case of the
first letter. -/
theorem nativeSymbol_eq_iff_of_not_mem {name other : String} (simple : '_' ∉ name.toList)
    (otherSimple : '_' ∉ other.toList) :
    nativeSymbol name = nativeSymbol other ↔ EqualUpToFirstCase name other := by
  unfold nativeSymbol EqualUpToFirstCase
  rw [String.ofList_inj, List.append_right_inj, withLeadingSeparator_of_not_mem simple,
    withLeadingSeparator_of_not_mem otherSimple, List.cons.injEq, and_iff_right rfl]
  exact separateCapitals_inj (not_mem_modifyHead_toLower simple)
    (not_mem_modifyHead_toLower otherSimple)

end Identifier

namespace Source

open Identifier (nativeSymbol EqualUpToFirstCase)

/-- Each trampoline of an interface has the symbol of the declared method in its place. -/
theorem symbol_of_mem_zip {scope : Scope} {declared : Model.Interface}
    {interface : Binding.Interface} (built : Binding.Interface.ofModel scope declared = .ok interface)
    (context : Context) {method : Model.Method} {trampoline : Trampoline}
    (paired : (method, trampoline) ∈
      declared.methods.zip (Adapter.ofInterface context interface).trampolines) :
    trampoline.symbol = nativeSymbol method.adjustedName := by
  have named := Binding.Interface.namedBy_of_ofModel built
  have symbols : List.Forall₂ (fun method trampoline =>
      Trampoline.symbol trampoline = nativeSymbol (Model.Method.adjustedName method))
      declared.methods (Adapter.ofInterface context interface).trampolines := by
    rw [Adapter.ofInterface, List.forall₂_map_right_iff]
    exact named.imp fun _ _ each => each.symbol
  exact (List.forall₂_iff_zip.mp symbols).2 paired

/-- Two names without a separator give one symbol exactly if they differ at most in the case of
their first letter, and so do the trampolines of two methods with these names. -/
theorem symbols_meet_iff_equal_up_to_first_case (name other : String)
    (simple : '_' ∉ name.toList) (otherSimple : '_' ∉ other.toList) :
    (nativeSymbol name = nativeSymbol other ↔ EqualUpToFirstCase name other) ∧
    ∀ (external : String → Option Nat) (library : Model.Library) (rest : List Model.Library)
      (bound : Binding.Library) (context : Context),
      Binding.build external (library :: rest) = .ok bound →
      List.Forall₂ (fun declared interface =>
          ∀ entry ∈ declared.methods.zip (Adapter.ofInterface context interface).trampolines,
          ∀ otherEntry ∈ declared.methods.zip (Adapter.ofInterface context interface).trampolines,
            entry.1.adjustedName = name → otherEntry.1.adjustedName = other →
            (entry.2.symbol = otherEntry.2.symbol ↔ EqualUpToFirstCase name other))
        library.interfaces bound.interfaces := by
  have symbols := Identifier.nativeSymbol_eq_iff_of_not_mem simple otherSimple
  refine ⟨symbols, ?_⟩
  intro external library rest bound context built
  obtain ⟨_, _, _, _, interfaces, _⟩ := Binding.Library.ofModel_eq_ok built
  apply forall₂_of_mem interfaces
  intro declared interface _ each entry paired otherEntry otherPaired named otherNamed
  rw [symbol_of_mem_zip each context paired, symbol_of_mem_zip each context otherPaired, named,
    otherNamed]
  exact symbols

/-- Two names that differ in their first letter only, with one symbol. -/
theorem symbols_meet_iff_equal_up_to_first_case_twinLibrary :
    '_' ∉ "getName".toList ∧ '_' ∉ "GetName".toList ∧
      nativeSymbol "getName" = nativeSymbol "GetName" ∧
      ∃ bound, Binding.build (fun _ => none) [twinLibrary] = .ok bound ∧
        ∃ interface ∈ bound.interfaces, ∃ first second later,
          (Adapter.ofInterface (Options.context {} "Thermo") interface).trampolines =
            first :: second :: later ∧ first.symbol = second.symbol := by
  have built : Binding.build (fun _ => none) [twinLibrary] = .ok _ := rfl
  have differ : EqualUpToFirstCase "getName" "GetName" := by
    unfold EqualUpToFirstCase
    decide
  obtain ⟨symbols, trampolines⟩ :=
    symbols_meet_iff_equal_up_to_first_case "getName" "GetName" (by decide) (by decide)
  obtain ⟨each, _⟩ := List.forall₂_cons.mp
    (trampolines _ _ _ _ (Options.context {} "Thermo") built)
  refine ⟨by decide, by decide, symbols.mpr differ, _, built, _, .head _, _, _, _, rfl, ?_⟩
  exact (each _ (.head _) _ (.tail _ (.head _)) rfl rfl).mpr differ

end Source

end IdlBindings
