/-
This file says when one text stands somewhere in another.
-/

namespace IdlBindings.Text

/-- The piece stands somewhere in the text. -/
def Contains (text piece : String) : Prop :=
  ∃ before after, text = before ++ piece ++ after

namespace Contains

theorem append_right {text piece : String} (contains : Contains text piece) (suffix : String) :
    Contains (text ++ suffix) piece := by
  obtain ⟨before, after, rfl⟩ := contains
  exact ⟨before, after ++ suffix, by simp only [String.append_assoc]⟩

theorem append_left {text piece : String} (contains : Contains text piece) (start : String) :
    Contains (start ++ text) piece := by
  obtain ⟨before, after, rfl⟩ := contains
  exact ⟨start ++ before, after, by simp only [String.append_assoc]⟩

/-- What stands in a part stands in the whole. -/
theorem trans {text part piece : String} (outer : Contains text part)
    (inner : Contains part piece) : Contains text piece := by
  obtain ⟨before, after, rfl⟩ := outer
  exact (inner.append_left before).append_right after

/-- A joined text contains each of its parts. -/
theorem join {parts : List String} {part : String} (member : part ∈ parts) :
    Contains (String.join parts) part := by
  obtain ⟨before, after, rfl⟩ := List.append_of_mem member
  refine ⟨String.join before, String.join after, ?_⟩
  rw [String.join_append, String.join_cons, String.append_assoc]

/-- A list that is written with separators contains each of its entries. -/
theorem intercalate {separator : String} {parts : List String} {part : String}
    (member : part ∈ parts) : Contains (String.intercalate separator parts) part := by
  induction parts with
  | nil => cases member
  | cons first rest ih =>
      cases rest with
      | nil =>
          obtain rfl := List.mem_singleton.mp member
          exact ⟨"", "", by simp⟩
      | cons second others =>
          rw [String.intercalate_cons_cons]
          rcases List.mem_cons.mp member with rfl | later
          · refine ⟨"", separator ++ String.intercalate separator (second :: others), ?_⟩
            simp only [String.append_assoc, String.empty_append]
          · exact (ih later).append_left _

end Contains

end IdlBindings.Text
