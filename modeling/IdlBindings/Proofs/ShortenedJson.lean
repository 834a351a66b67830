import IdlBindings.Json.Format
import Mathlib.Data.List.Basic

/-
This file says in which other ways an encoded model may be written: without members that hold their
default, and with attributes that are only a name.
-/

namespace IdlBindings.Json

/-- Every member that need not be given holds null or an empty list by default, and none of the
others ever does. -/
def isDefault : Json → Bool
  | null => true
  | array [] => true
  | _ => false

/-- A value that is no default is not absent. -/
theorem isAbsent_eq_false {value : Json} (given : value.isDefault = false) :
    value.isAbsent = false := by
  cases value with
  | null => cases given
  | _ => rfl

mutual

/-- At any depth, members that hold their default may be left out, and an attribute without a value
may be its bare name. -/
inductive ShortensTo : Json → Json → Prop
  | leaf {value : Json} (plain : value.isContainer = false) : ShortensTo value value
  | bareName (name : String) :
      ShortensTo (object [("name", string name), ("value", null)]) (string name)
  | array {elements shorter : List Json} (each : ElementsShortenTo elements shorter) :
      ShortensTo (array elements) (array shorter)
  | object {members shorter : List (String × Json)} (each : MembersShortenTo members shorter) :
      ShortensTo (object members) (object shorter)

/-- Elements become shorter one by one. -/
inductive ElementsShortenTo : List Json → List Json → Prop
  | nil : ElementsShortenTo [] []
  | cons {element short : Json} {elements shorter : List Json} (first : ShortensTo element short)
      (rest : ElementsShortenTo elements shorter) :
      ElementsShortenTo (element :: elements) (short :: shorter)

/-- Members become shorter one by one, and defaults may be left out. -/
inductive MembersShortenTo : List (String × Json) → List (String × Json) → Prop
  | nil : MembersShortenTo [] []
  | leave {key : String} {value : Json} {members shorter : List (String × Json)}
      (default : value.isDefault = true) (rest : MembersShortenTo members shorter) :
      MembersShortenTo ((key, value) :: members) shorter
  | keep {key : String} {value short : Json} {members shorter : List (String × Json)}
      (first : ShortensTo value short) (rest : MembersShortenTo members shorter) :
      MembersShortenTo ((key, value) :: members) ((key, short) :: shorter)

end

mutual

/-- A value is a short form of itself. -/
theorem ShortensTo.refl : (value : Json) → value.ShortensTo value
  | null | boolean _ | integer _ | real _ | string _ | undecodable => .leaf rfl
  | array elements => .array (ElementsShortenTo.refl elements)
  | object members => .object (MembersShortenTo.refl members)

theorem ElementsShortenTo.refl : (elements : List Json) → ElementsShortenTo elements elements
  | [] => .nil
  | element :: rest => .cons (ShortensTo.refl element) (ElementsShortenTo.refl rest)

theorem MembersShortenTo.refl :
    (members : List (String × Json)) → MembersShortenTo members members
  | [] => .nil
  | (_, value) :: rest => .keep (ShortensTo.refl value) (MembersShortenTo.refl rest)

end

namespace ShortensTo

/-- A value without parts has no shorter form. -/
theorem eq_of_leaf {value short : Json} (plain : value.isContainer = false)
    (shortens : value.ShortensTo short) : short = value := by
  cases shortens with
  | leaf _ => rfl
  | bareName _ => cases plain
  | array _ => cases plain
  | object _ => cases plain

/-- A short form of an array is an array of short forms. -/
theorem exists_array {elements : List Json} {short : Json}
    (shortens : (Json.array elements).ShortensTo short) :
    ∃ shorter, short = .array shorter ∧ ElementsShortenTo elements shorter := by
  cases shortens with
  | leaf plain => cases plain
  | array each => exact ⟨_, rfl, each⟩

/-- Only an attribute without a value is written as something else than an object. -/
theorem exists_object {members : List (String × Json)} {short : Json}
    (given : ("value", null) ∉ members) (shortens : (Json.object members).ShortensTo short) :
    ∃ shorter, short = .object shorter ∧ MembersShortenTo members shorter := by
  cases shortens with
  | leaf plain => cases plain
  | bareName name => exact absurd (by simp) given
  | object each => exact ⟨_, rfl, each⟩

/-- A value that is absent stays so in every short form. -/
theorem isAbsent_eq {value short : Json} (shortens : value.ShortensTo short) :
    short.isAbsent = value.isAbsent := by
  cases shortens <;> rfl

end ShortensTo

namespace MembersShortenTo

/-- No key is added, and the order stays. -/
theorem sublist_keys {members shorter : List (String × Json)}
    (shortens : MembersShortenTo members shorter) :
    (shorter.map Prod.fst).Sublist (members.map Prod.fst) := by
  induction members generalizing shorter with
  | nil =>
      cases shortens
      exact .slnil
  | cons member rest ih =>
      cases shortens with
      | leave _ others => exact (ih others).cons _
      | keep _ others => exact (ih others).cons_cons _

/-- A member is there in a shorter form, or it is left out and holds its default. -/
theorem lookup {members shorter : List (String × Json)}
    (shortens : MembersShortenTo members shorter)
    (distinct : (members.map Prod.fst).Nodup) {key : String} {value : Json}
    (found : members.lookup key = some value) :
    (∃ short, shorter.lookup key = some short ∧ value.ShortensTo short) ∨
      (shorter.lookup key = none ∧ value.isDefault = true) := by
  induction members generalizing shorter with
  | nil => cases found
  | cons member rest ih =>
      obtain ⟨absent, distinctRest⟩ := List.nodup_cons.mp distinct
      cases shortens with
      | @leave first _ _ _ default others =>
          by_cases same : key = first
          · subst same
            obtain rfl : _ = value := by simpa using found
            refine .inr ⟨List.lookup_eq_none_iff.mpr ?_, default⟩
            intro other member
            simp only [bne_iff_ne]
            rintro rfl
            exact absent (others.sublist_keys.subset (List.mem_map.mpr ⟨other, member, rfl⟩))
          · rw [List.lookup_cons, beq_false_of_ne same] at found
            exact ih others distinctRest found
      | @keep first _ short _ _ shortensFirst others =>
          by_cases same : key = first
          · subst same
            obtain rfl : _ = value := by simpa using found
            exact .inl ⟨short, by simp, shortensFirst⟩
          · rw [List.lookup_cons, beq_false_of_ne same] at found ⊢
            exact ih others distinctRest found

end MembersShortenTo

/-- A member is nested less deeply than what it is in. -/
theorem nesting_le_of_lookup {members : List (String × Json)} {key : String} {value : Json}
    (found : members.lookup key = some value) : value.nesting ≤ nestingOfMembers members := by
  induction members with
  | nil => cases found
  | cons first rest ih =>
      obtain ⟨name, held⟩ := first
      rw [nestingOfMembers]
      by_cases same : key = name
      · obtain rfl : held = value := by simpa [same] using found
        exact Nat.le_max_left _ _
      · rw [List.lookup_cons, beq_false_of_ne same] at found
        exact Nat.le_trans (ih found) (Nat.le_max_right _ _)

end IdlBindings.Json
