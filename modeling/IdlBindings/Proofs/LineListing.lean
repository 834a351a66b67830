import IdlBindings.Proofs.Spelling
import IdlBindings.Proofs.TableReading

/-
This file says what the lines of a text list.
-/

namespace IdlBindings.Text

/-- Nothing in the text ends a line. -/
def IsUnbroken (text : String) : Prop :=
  Spelled (fun character => character ≠ '\n' ∧ character ≠ '\r') text

instance (text : String) : Decidable (IsUnbroken text) :=
  inferInstanceAs (Decidable (Spelled _ text))

/-- An unbroken text is a line. -/
theorem IsUnbroken.isLine {text : String} (unbroken : IsUnbroken text) : IsLine text where
  unbroken := fun feed => (unbroken '\n' feed).1 rfl
  unreturned := fun last => (unbroken '\r' (List.mem_of_getLast? last)).2 rfl

theorem IsUnbroken.append {text suffix : String} (first : IsUnbroken text)
    (second : IsUnbroken suffix) : IsUnbroken (text ++ suffix) :=
  Spelled.append first second

/-- The text that consists of these lines. -/
def unlines (lines : List String) : String :=
  String.join (lines.map fun line => line ++ "\n")

/-- Lines are written one after the other. -/
theorem unlines_append (lines others : List String) :
    unlines (lines ++ others) = unlines lines ++ unlines others := by
  simp [unlines]

theorem unlines_cons (line : String) (others : List String) :
    unlines (line :: others) = line ++ "\n" ++ unlines others := by
  simp [unlines]

/-- Lines that nothing breaks are the lines of the text that consists of them. -/
theorem lines_unlines {lines : List String} (each : ∀ line ∈ lines, IsUnbroken line) :
    Text.lines (unlines lines) = lines :=
  lines_join fun line member => (each line member).isLine

/-- The line starts with the opening. -/
def startsWith (opening line : String) : Bool :=
  opening.toList.isPrefixOf line.toList

theorem startsWith_append (opening rest : String) :
    startsWith opening (opening ++ rest) = true := by
  simp [startsWith]

/-- Lines that all start with an opening are all kept. -/
theorem filter_startsWith_map {Entry : Type} {opening : String} {line : Entry → String}
    (each : ∀ entry, startsWith opening (line entry) = true) (entries : List Entry) :
    (entries.map line).filter (startsWith opening) = entries.map line := by
  apply List.filter_eq_self.mpr
  intro written member
  obtain ⟨entry, _, rfl⟩ := List.mem_map.mp member
  exact each entry

/-- The lines of the text that have a certain opening show the entries, one line for each and in
order. If nothing breaks the names in the text, these are the lines that a reader finds. -/
def Lists {Entry : Type} (opening : String) (shows : Entry → String → Prop)
    (entries : List Entry) (names : List String) (text : String) : Prop :=
  ∃ lines, text = unlines lines ∧
    List.Forall₂ shows entries (lines.filter (startsWith opening)) ∧
    ((∀ name ∈ names, IsUnbroken name) → Text.lines text = lines)

/-- A text lists what its lines show, if only the names can break them. -/
theorem lists_unlines {Entry : Type} {opening : String} {shows : Entry → String → Prop}
    {entries : List Entry} {names lines : List String}
    (shown : List.Forall₂ shows entries (lines.filter (startsWith opening)))
    (unbroken : (∀ name ∈ names, IsUnbroken name) → ∀ line ∈ lines, IsUnbroken line) :
    Lists opening shows entries names (unlines lines) := by
  refine ⟨lines, rfl, shown, ?_⟩
  intro each
  exact lines_unlines (unbroken each)

end IdlBindings.Text
