/-
This file parts a text at a separator.
-/

namespace IdlBindings.Text

/-- The pieces between the separators; there is one more piece than separators. -/
def split (separator : Char) : List Char → List (List Char)
  | [] => [[]]
  | character :: rest =>
      if character == separator then [] :: split separator rest
      else
        match split separator rest with
        | [] => [[character]]
        | piece :: pieces => (character :: piece) :: pieces

theorem split_ne_nil (separator : Char) (text : List Char) : split separator text ≠ [] := by
  cases text with
  | nil => simp [split]
  | cons character rest =>
      rw [split]
      split
      · simp
      · split <;> simp

end IdlBindings.Text
