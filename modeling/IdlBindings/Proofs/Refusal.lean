import Mathlib.Data.List.Forall2

/-
This file relates a computation that stops at its first fault to the list of all faults, and a
successful traversal to the results of its entries.
-/

namespace IdlBindings

/-- A result reports the listed faults if it fails with the first of them, or succeeds and there
are none. -/
def Reports {ε α : Type} (faults : List ε) : Except ε α → Prop
  | .ok _ => faults = []
  | .error fault => faults.head? = some fault

namespace Reports

variable {ε α β : Type}

theorem ok (value : α) : Reports ([] : List ε) (.ok value : Except ε α) := rfl

theorem error (fault : ε) (others : List ε) :
    Reports (fault :: others) (.error fault : Except ε α) := rfl

/-- A computation fails with a fault exactly if the fault is the first. -/
theorem eq_error_iff {faults : List ε} {result : Except ε α} (reports : Reports faults result)
    (fault : ε) : result = .error fault ↔ faults.head? = some fault := by
  cases result with
  | ok value =>
      have none : faults = [] := reports
      simp [none]
  | error first =>
      have listed : faults.head? = some first := reports
      simp [listed]

/-- A computation that succeeds has no faults. -/
theorem eq_nil_of_ok {faults : List ε} {result : Except ε α} (reports : Reports faults result)
    {value : α} (succeeds : result = .ok value) : faults = [] := by
  rw [succeeds] at reports
  exact reports

/-- A computation fails exactly if there are faults. -/
theorem exists_error_iff {faults : List ε} {result : Except ε α} (reports : Reports faults result) :
    (∃ fault, result = .error fault) ↔ faults ≠ [] := by
  simp only [reports.eq_error_iff]
  cases faults <;> simp

/-- A second computation is only reached when the first one reports nothing. -/
theorem bind {earlier later : List ε} {result : Except ε α} {next : α → Except ε β}
    (first : Reports earlier result)
    (second : ∀ value, result = .ok value → Reports later (next value)) :
    Reports (earlier ++ later) (result >>= next) := by
  cases result with
  | ok value =>
      have none : earlier = [] := first
      rw [none, List.nil_append]
      exact second value rfl
  | error fault =>
      have listed : earlier.head? = some fault := first
      change (earlier ++ later).head? = some fault
      rw [List.head?_append, listed]
      rfl

/-- What is done with a value afterwards has no part in the report. -/
theorem bind_ok_iff {faults : List ε} {result : Except ε α} (next : α → β) :
    Reports faults (result >>= fun value => (.ok (next value) : Except ε β)) ↔
      Reports faults result := by
  cases result <;> rfl

/-- A check comes before everything that is computed once it passes. -/
theorem check {condition : Prop} [Decidable condition] {fault : ε} {faults : List ε}
    {result : Except ε α} (otherwise : ¬ condition → Reports faults result) :
    Reports ((if condition then [fault] else []) ++ faults)
      (if condition then .error fault else result) := by
  by_cases holds : condition
  · simp only [if_pos holds]
    exact error fault faults
  · simp only [if_neg holds, List.nil_append]
    exact otherwise holds

/-- A traversal reports what its entries report, in their order. -/
theorem mapM {faults : α → List ε} {run : α → Except ε β} {entries : List α}
    (each : ∀ entry ∈ entries, Reports (faults entry) (run entry)) :
    Reports (entries.flatMap faults) (entries.mapM run) := by
  induction entries with
  | nil => exact ok []
  | cons entry rest ih =>
      rw [List.flatMap_cons, List.mapM_cons]
      refine bind (each entry List.mem_cons_self) fun value _ => ?_
      exact (bind_ok_iff _).mpr
        (ih fun other member => each other (List.mem_cons_of_mem entry member))

end Reports

/-- A computation in two stages succeeds exactly when both stages do. -/
theorem bind_eq_ok_iff {ε α β : Type} {result : Except ε α} {next : α → Except ε β} {final : β} :
    (result >>= next) = .ok final ↔ ∃ value, result = .ok value ∧ next value = .ok final := by
  constructor
  · intro succeeds
    cases result with
    | ok value => exact ⟨value, rfl, succeeds⟩
    | error fault => cases succeeds
  · rintro ⟨value, rfl, succeeds⟩
    exact succeeds

/-- A computation in two stages fails where one of its stages does. -/
theorem bind_eq_error {ε α β : Type} {result : Except ε α} {next : α → Except ε β} {fault : ε}
    (failed : (result >>= next) = .error fault) :
    result = .error fault ∨ ∃ value, result = .ok value ∧ next value = .error fault := by
  cases result with
  | ok value => exact .inr ⟨value, rfl, failed⟩
  | error first =>
      cases failed
      exact .inl rfl

/-- A traversal succeeds exactly with the results of its entries, one for each and in order. -/
theorem mapM_eq_ok_iff {ε α β : Type} {run : α → Except ε β} {entries : List α}
    {results : List β} :
    entries.mapM run = .ok results ↔
      List.Forall₂ (fun entry result => run entry = .ok result) entries results := by
  induction entries generalizing results with
  | nil =>
      rw [List.mapM_nil, List.forall₂_nil_left_iff]
      exact ⟨fun same => (Except.ok.inj same).symm, fun same => congrArg Except.ok same.symm⟩
  | cons entry rest ih =>
      rw [List.mapM_cons, bind_eq_ok_iff, List.forall₂_cons_left_iff]
      constructor
      · rintro ⟨result, head, succeeds⟩
        obtain ⟨tailResults, tail, same⟩ := bind_eq_ok_iff.mp succeeds
        exact ⟨result, tailResults, head, ih.mp tail, (Except.ok.inj same).symm⟩
      · rintro ⟨result, tailResults, head, tail, rfl⟩
        exact ⟨result, head, bind_eq_ok_iff.mpr ⟨tailResults, ih.mpr tail, rfl⟩⟩

/-- A traversal only depends on what it does with its entries. -/
theorem mapM_congr {ε α β : Type} {run other : α → Except ε β} {entries : List α}
    (same : ∀ entry ∈ entries, run entry = other entry) :
    entries.mapM run = entries.mapM other := by
  induction entries with
  | nil => rfl
  | cons entry rest ih =>
      obtain ⟨first, later⟩ := List.forall_mem_cons.mp same
      rw [List.mapM_cons, List.mapM_cons, first, ih later]

/-- Every result of a traversal comes from one of the entries. -/
theorem exists_mem_of_forall₂ {α β : Type} {relation : α → β → Prop} {entries : List α}
    {results : List β} (paired : List.Forall₂ relation entries results) {result : β}
    (member : result ∈ results) : ∃ entry ∈ entries, relation entry result := by
  induction paired with
  | nil => cases member
  | @cons entry first rest others head _ ih =>
      rcases List.mem_cons.mp member with same | later
      · subst same
        exact ⟨entry, List.mem_cons_self, head⟩
      · obtain ⟨source, present, related⟩ := ih later
        exact ⟨source, List.mem_cons_of_mem entry present, related⟩

/-- What some entry has is what some result has, if that is so for each entry and its result. -/
theorem exists_mem_iff_of_forall₂ {α β : Type} {first : α → Prop} {second : β → Prop}
    {entries : List α} {results : List β}
    (paired : List.Forall₂ (fun entry result => first entry ↔ second result) entries results) :
    (∃ entry ∈ entries, first entry) ↔ ∃ result ∈ results, second result := by
  induction paired with
  | nil => simp
  | cons head _ ih => simp [head, ih]

/-- Entries that are paired in one way are paired in another that follows for each of them. -/
theorem forall₂_of_mem {α β : Type} {first second : α → β → Prop} {entries : List α}
    {results : List β} (paired : List.Forall₂ first entries results)
    (follows : ∀ entry result, entry ∈ entries → first entry result → second entry result) :
    List.Forall₂ second entries results := by
  induction paired with
  | nil => exact .nil
  | cons head _ ih =>
      refine .cons (follows _ _ List.mem_cons_self head) (ih fun entry result member => ?_)
      exact follows entry result (List.mem_cons_of_mem _ member)

/-- What is taken from the results is what is taken from the entries. -/
theorem map_eq_of_forall₂ {α β γ : Type} {relation : α → β → Prop} {ofEntry : α → γ}
    {ofResult : β → γ} {entries : List α} {results : List β}
    (paired : List.Forall₂ relation entries results)
    (same : ∀ entry result, relation entry result → ofResult result = ofEntry entry) :
    results.map ofResult = entries.map ofEntry := by
  induction paired with
  | nil => rfl
  | cons head _ ih => rw [List.map_cons, List.map_cons, same _ _ head, ih]

end IdlBindings
