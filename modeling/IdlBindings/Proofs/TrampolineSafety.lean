import IdlBindings.Proofs.BindingInvariant
import IdlBindings.Proofs.TrampolineLine
import Mathlib.Data.List.Perm.Basic

/-
This file shows that a trampoline uses no null pointer, and that it writes each output once if
the call succeeds and none otherwise.
-/

namespace IdlBindings

namespace Binding.Argument

/-- An output whose value the callee leaves in the place of the caller. -/
def isWritten (argument : Argument) : Bool :=
  match argument.type with
  | .carried _ => false
  | .scalar _ | .object _ | .parameter _ _ => argument.isOutput

/-- A scalar output that is no part of the result. -/
def isSlotOutput (argument : Argument) : Bool :=
  match argument.type with
  | .scalar _ => argument.isOutput && !argument.returned
  | .carried _ | .object _ | .parameter _ _ => false

/-- The results are the written outputs that need no slot, if only outputs are returned. -/
theorem isResult_eq {argument : Argument}
    (returnedOut : argument.returned = true → argument.direction = .output) :
    argument.isResult = (argument.isWritten && !argument.isSlotOutput) := by
  unfold isResult isWritten isSlotOutput
  cases argument.type with
  | carried _ => rfl
  | object _ | parameter _ _ => simp
  | scalar _ =>
      cases returned : argument.returned with
      | true => simp [isOutput, returnedOut returned]
      | false => simp

/-- An output that has storage is written. -/
theorem isWritten_of_isSlotOutput {argument : Argument} (slot : argument.isSlotOutput = true) :
    argument.isWritten = true := by
  unfold isSlotOutput at slot
  unfold isWritten
  cases type : argument.type with
  | scalar _ => simp_all
  | carried _ | object _ | parameter _ _ => simp_all

/-- Only outputs are written. -/
theorem isOutput_of_isWritten {argument : Argument} (written : argument.isWritten = true) :
    argument.isOutput = true := by
  unfold isWritten at written
  cases type : argument.type with
  | carried _ => simp_all
  | scalar _ | object _ | parameter _ _ => simp_all

end Binding.Argument

namespace Source

open Binding (Argument Method)

variable {context : Context} {interface : Binding.Interface} {method : Method}

/-- The slots and the results together are the written outputs, each of them once. -/
theorem perm_written (returnsOutputs : method.ReturnsOutputs) :
    (method.arguments.filter Argument.isSlotOutput ++ method.results).Perm
      (method.arguments.filter Argument.isWritten) := by
  have slots : method.arguments.filter Argument.isSlotOutput =
      (method.arguments.filter Argument.isWritten).filter Argument.isSlotOutput := by
    rw [List.filter_filter]
    apply List.filter_congr
    intro argument _
    cases slot : argument.isSlotOutput with
    | true => simp [Argument.isWritten_of_isSlotOutput slot]
    | false => rfl
  have results : method.results = (method.arguments.filter Argument.isWritten).filter
      fun argument => !argument.isSlotOutput := by
    rw [List.filter_filter, Method.results]
    apply List.filter_congr
    intro argument member
    rw [Argument.isResult_eq (returnsOutputs argument member), Bool.and_comm]
  rw [slots, results]
  exact List.filter_append_perm _ _

namespace Trampoline

/-- The stores are those of the slots, then those of the results. -/
theorem stores_names :
    (ofMethod context interface method).stores.map Store.name =
      (method.arguments.filter Argument.isSlotOutput ++ method.results).map Argument.name := by
  have slots : method.parameters.filter isStored =
      method.arguments.filter Argument.isSlotOutput := by
    rw [Method.parameters, List.filter_filter]
    apply List.filter_congr
    intro argument _
    unfold isStored Argument.isResult Argument.isSlotOutput
    cases argument.type <;> rfl
  simp [ofMethod, slots, Function.comp_def]

/-- The name of an argument that is guarded stands in the guard. -/
theorem mem_guarded {argument : Argument} (member : argument ∈ method.arguments)
    (isGuarded : isGuarded argument = true) :
    argument.name ∈ (ofMethod context interface method).guarded :=
  List.mem_map.mpr ⟨argument, List.mem_filter.mpr ⟨member, isGuarded⟩, rfl⟩

/-- A preparation uses only the pointer of its own argument, which is then guarded. -/
theorem touched_preparation {argument : Argument} {step : Preparation} {label name : String}
    (prepared : Preparation.ofArgument? context argument = some step)
    (touches : name ∈ (Line.ofPreparation label step).touched) :
    name = argument.name ∧ isGuarded argument = true := by
  unfold Preparation.ofArgument? at prepared
  unfold isGuarded
  cases type : argument.type with
  | carried carried =>
      cases output : argument.isOutput with
      | true =>
          simp only [type, output, if_true, Option.some.injEq] at prepared
          subst prepared
          simpa [Line.ofPreparation, Line.touched, Line.uses] using touches
      | false =>
          simp only [type, output, Bool.false_eq_true, if_false, Option.some.injEq] at prepared
          subst prepared
          simp [Line.ofPreparation, Line.touched, Line.uses] at touches
  | object _ | parameter _ _ =>
      cases output : argument.isOutput with
      | true => simp [type, output] at prepared
      | false =>
          simp only [type, output, Bool.false_eq_true, if_false, Option.some.injEq] at prepared
          subst prepared
          simpa [Line.ofPreparation, Line.touched, Line.uses, ArgumentType.isObject] using touches
  | scalar scalar =>
      -- A scalar is prepared without its pointer.
      simp only [type] at prepared
      split at prepared
      · cases prepared
      · split at prepared
        · cases prepared
          simp [Line.ofPreparation, Line.touched, Line.uses] at touches
        · obtain ⟨_, _, rfl⟩ := Option.map_eq_some_iff.mp prepared
          simp [Line.ofPreparation, Line.touched, Line.uses] at touches

/-- The lines up to the call touch nothing that is not guarded. -/
theorem touched_opening {line : Line} {name : String}
    (member : line ∈ (ofMethod context interface method).opening)
    (touches : name ∈ line.touched) : name ∈ (ofMethod context interface method).guarded := by
  rcases mem_opening.mp member with rfl | rfl | rfl | ⟨step, prepared, rfl⟩ | rfl
  · simp [Line.touched, Line.uses] at touches
  · simp [Line.touched, Line.uses] at touches
  · simp [Line.touched, Line.uses] at touches
  · obtain ⟨argument, ofMethod, prepared⟩ := List.mem_filterMap.mp prepared
    obtain ⟨rfl, guarded⟩ := touched_preparation prepared touches
    exact mem_guarded ofMethod guarded
  · simp [Line.touched, Line.uses] at touches

/-- The success arm uses the pointers that it stores to. -/
theorem touched_success {trampoline : Trampoline} {line : Line} {name : String}
    (member : line ∈ trampoline.success) (touches : name ∈ line.touched) :
    name ∈ trampoline.stores.map Store.name := by
  unfold success at member
  split at member
  · simp only [List.mem_singleton] at member
    subst member
    simp [Line.touched, Line.uses] at touches
  · simp only [List.mem_cons, List.mem_append, List.mem_map, List.not_mem_nil, or_false] at member
    rcases member with rfl | ⟨write, stored, rfl⟩ | rfl
    · simp [Line.touched, Line.uses] at touches
    · simp only [Line.touched, Line.uses, List.map_cons, List.map_nil, List.mem_singleton] at touches
      rw [touches]
      exact List.mem_map_of_mem stored
    · simp [Line.touched, Line.uses] at touches

/-- The failure line touches nothing. -/
theorem touched_failure {trampoline : Trampoline} {line : Line}
    (member : line ∈ trampoline.failure) : line.touched = [] := by
  simp only [failure, List.mem_singleton] at member
  rw [member]
  rfl

/-- Every pointer that a line uses is guarded. -/
theorem touched_guarded (returnsOutputs : method.ReturnsOutputs) {line : Line} {name : String}
    (member : line ∈ (ofMethod context interface method).lines)
    (touches : name ∈ line.touched) : name ∈ (ofMethod context interface method).guarded := by
  rcases List.mem_append.mp member with before | inFailure
  · rcases List.mem_append.mp before with inOpening | inSuccess
    · exact touched_opening inOpening touches
    · have stored := touched_success inSuccess touches
      rw [stores_names] at stored
      obtain ⟨argument, isStored, rfl⟩ := List.mem_map.mp stored
      have written := (perm_written returnsOutputs).mem_iff.mp isStored
      obtain ⟨member, isWritten⟩ := List.mem_filter.mp written
      apply mem_guarded member
      simp [isGuarded, Argument.isOutput_of_isWritten isWritten]
  · simp [touched_failure inFailure] at touches

/-- The guard stands before every line that uses a pointer. -/
theorem guard_precedes {trampoline : Trampoline} {rest before after : List Line} {line : Line}
    {name : String} (split : trampoline.opening ++ rest = before ++ line :: after)
    (touches : name ∈ line.touched) : .guard trampoline.guarded ∈ before := by
  unfold opening at split
  match before with
  | [] =>
      simp only [List.cons_append, List.nil_append, List.cons.injEq] at split
      rw [← split.1] at touches
      simp [Line.touched, Line.uses] at touches
  | [_] =>
      simp only [List.cons_append, List.nil_append, List.cons.injEq] at split
      rw [← split.2.1] at touches
      simp [Line.touched, Line.uses] at touches
  | _ :: _ :: _ =>
      simp only [List.cons_append, List.cons.injEq] at split
      simp [split.2.1]

/-- The lines of a path stand in the text, after its opening or in part of it. -/
theorem Path.exists_append {trampoline : Trampoline} {null : String → Prop} {succeeds : Bool}
    {executed : List Line} (path : trampoline.Path null succeeds executed) :
    (∀ line ∈ executed, line ∈ trampoline.lines) ∧
      ∃ rest unread, trampoline.opening ++ rest = executed ++ unread := by
  cases path with
  | early split passed =>
      refine ⟨?_, [], _, (List.append_nil _).trans split⟩
      intro line member
      simp [lines, split, member]
  | failed passed =>
      refine ⟨?_, trampoline.failure, [], (List.append_nil _).symm⟩
      intro line member
      rcases List.mem_append.mp member with inOpening | inFailure
      · simp [lines, inOpening]
      · simp [lines, inFailure]
  | succeeded passed =>
      refine ⟨?_, trampoline.success, [], (List.append_nil _).symm⟩
      intro line member
      simp only [lines, List.mem_append]
      exact Or.inl (List.mem_append.mp member)

/-- On a path, every guard but the last line has let the call pass. -/
theorem Path.passes_guard {trampoline : Trampoline} {null : String → Prop} {succeeds : Bool}
    {before after : List Line} {line : Line} {names : List String}
    (path : trampoline.Path null succeeds (before ++ line :: after))
    (guard : .guard names ∈ before) : ∀ name ∈ names, ¬ null name := by
  generalize executedEq : before ++ line :: after = executed at path
  have executed_guard : .guard names ∈ executed := by simp [← executedEq, guard]
  cases path with
  | early split passed =>
      apply passed (.guard names)
      rw [← executedEq, List.dropLast_append_of_ne_nil (List.cons_ne_nil _ _)]
      exact List.mem_append_left _ guard
  | failed passed =>
      rcases List.mem_append.mp executed_guard with inOpening | inFailure
      · exact passed _ inOpening
      · simp [failure] at inFailure
  | succeeded passed =>
      rcases List.mem_append.mp executed_guard with inOpening | inSuccess
      · exact passed _ inOpening
      · unfold success at inSuccess
        split at inSuccess <;> simp at inSuccess

/-- A path that succeeds makes all stores. -/
theorem Path.stored_of_succeeds {trampoline : Trampoline} {null : String → Prop}
    {executed : List Line} (path : trampoline.Path null true executed) :
    executed.filterMap Line.storedName? = trampoline.stores.map Store.name := by
  cases path with
  | succeeded passed => simp [stored_opening, stored_success]

/-- A path that fails makes no store. -/
theorem Path.stored_of_fails {trampoline : Trampoline} {null : String → Prop}
    {executed : List Line} (path : trampoline.Path null false executed) :
    executed.filterMap Line.storedName? = [] := by
  cases path with
  | early split passed =>
      have none := stored_opening trampoline
      rw [split, List.filterMap_append] at none
      exact (List.append_eq_nil_iff.mp none).1
  | failed passed => simp [stored_opening, failure, Line.storedName?]

/-- A safe trampoline guards every pointer before it uses it. So it uses no null pointer on any
path, and it refuses no call without one. It makes the given stores if the call succeeds, and
none on any other path. The guard asks of every name whether it is null, and every use of a
pointer stands in its line. -/
structure Safe (trampoline : Trampoline) (stored : List String) : Prop where
  refuses : ∀ names, .guard names ∈ trampoline.lines → ∀ name ∈ names,
    Text.Contains (Line.guard names).text (name ++ ".is_null()")
  uses : ∀ line ∈ trampoline.lines, ∀ use ∈ line.uses, Text.Contains line.text use.code
  guarded : ∀ before line after name, trampoline.lines = before ++ line :: after →
    name ∈ line.touched → ∃ names, .guard names ∈ before ∧ name ∈ names
  notNull : ∀ null succeeds executed, trampoline.Path null succeeds executed →
    ∀ line ∈ executed, ∀ name ∈ line.touched, ¬ null name
  completes : ∀ null, (∀ name ∈ trampoline.guarded, ¬ null name) →
    ∃ executed, trampoline.Path null true executed
  succeeding : ∀ null executed, trampoline.Path null true executed →
    executed.filterMap Line.storedName? = stored
  failing : ∀ null executed, trampoline.Path null false executed →
    executed.filterMap Line.storedName? = []

/-- The trampoline of a method is safe. -/
theorem safe_ofMethod (returnsOutputs : method.ReturnsOutputs) :
    (ofMethod context interface method).Safe
      ((method.arguments.filter Argument.isSlotOutput ++ method.results).map Argument.name) where
  refuses _ _ _ member := Line.contains_isNull member
  uses _ _ _ member := Line.contains_use member
  guarded := by
    intro before line after name split touches
    have member : line ∈ (ofMethod context interface method).lines := by
      rw [split]
      exact List.mem_append_right _ List.mem_cons_self
    refine ⟨_, ?_, touched_guarded returnsOutputs member touches⟩
    rw [lines, List.append_assoc] at split
    exact guard_precedes split touches
  notNull := by
    intro null succeeds executed path line member name touches
    obtain ⟨inLines, rest, unread, continued⟩ := path.exists_append
    obtain ⟨before, after, rfl⟩ := List.append_of_mem member
    rw [List.append_assoc, List.cons_append] at continued
    have guard := guard_precedes continued touches
    exact path.passes_guard guard name (touched_guarded returnsOutputs (inLines line member) touches)
  completes := by
    intro null notNull
    refine ⟨_, .succeeded fun line member => ?_⟩
    rcases mem_opening.mp member with rfl | rfl | rfl | ⟨step, _, rfl⟩ | rfl
    · trivial
    · exact notNull
    · trivial
    · cases step <;> trivial
    · trivial
  succeeding := by
    intro null executed path
    rw [path.stored_of_succeeds, stores_names]
  failing := by
    intro null executed path
    exact path.stored_of_fails

/-- The trampoline of every method that is built is its lines, and is safe: on success it stores
first the scalar outputs that are not returned and then the results, which together are the
outputs but for carried data. -/
theorem trampoline_safe {external : String → Option Nat} {libraries : List Model.Library}
    {bound : Binding.Library} (built : Binding.build external libraries = .ok bound)
    (context : Context) {interface : Binding.Interface} (ofLibrary : interface ∈ bound.interfaces)
    {method : Method} (ofInterface : method ∈ interface.methods) :
    (ofMethod context interface method).text =
        String.join ((ofMethod context interface method).lines.map Line.text) ∧
      (ofMethod context interface method).Safe
        ((method.arguments.filter Argument.isSlotOutput ++ method.results).map Argument.name) ∧
      (method.arguments.filter Argument.isSlotOutput ++ method.results).Perm
        (method.arguments.filter Argument.isWritten) := by
  have returnsOutputs := Binding.returnsOutputs_of_build built ofLibrary ofInterface
  exact ⟨(join_lines _).symm, safe_ofMethod returnsOutputs, perm_written returnsOutputs⟩

/-- A safe trampoline, for a method of a library that is built. -/
theorem trampoline_safe_sampleLibrary :
    ∃ bound interface method,
      Binding.build (fun _ => none) [Binding.sampleLibrary] = .ok bound ∧
      interface ∈ bound.interfaces ∧ method ∈ interface.methods ∧
      ∀ context, (ofMethod context interface method).Safe ["found", "total", "first"] := by
  have built : Binding.build (fun _ => none) [Binding.sampleLibrary] = .ok _ := rfl
  refine ⟨_, _, _, built, .head _, .head _, ?_⟩
  intro context
  exact (trampoline_safe built context (.head _) (.head _)).2.1

end Trampoline

end Source

end IdlBindings
