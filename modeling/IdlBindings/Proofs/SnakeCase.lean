import IdlBindings.Proofs.TypeParameterNames

/-
This file says position by position what the conversion to snake case does to a word, and that it
brings in no separator at an end of the word or beside another one.
-/

namespace IdlBindings

namespace Identifier

/-- A capital that follows the character gets a separator. -/
def isSeparable (previous : Char) : Bool := !previous.isUpper && previous != '_'

/-- At the position stands a capital, directly after neither a capital nor a separator. -/
def separatesAt (word : List Char) : Nat → Bool
  | 0 => false
  | earlier + 1 => word[earlier]?.any isSeparable && word[earlier + 1]?.any Char.isUpper

/-- This puts one separator before each marked position. The first position has the given number. -/
def insertSeparators (marked : Nat → Bool) (start : Nat) (word : List Char) : List Char :=
  (word.zipIdx start).flatMap fun (character, position) =>
    if marked position then ['_', character] else [character]

/-- The number of separators that directly follow another one. -/
def doubledSeparators (word : List Char) : Nat := (word.zip word.tail).count ('_', '_')

theorem toLower_eq_separator_iff (character : Char) : character.toLower = '_' ↔ character = '_' := by
  cases capital : character.isUpper with
  | true =>
      apply iff_of_false (toLower_of_isUpper capital).1
      intro separator
      rw [separator] at capital
      exact absurd capital (by decide)
  | false => rw [Char.toLower_eq_of_not_isUpper (by simp [capital])]

/-- One step of the conversion. What it hands on depends on the character alone. -/
theorem snakeFrom_cons (separable : Bool) (character : Char) (rest : List Char) :
    snakeFrom separable (character :: rest) =
      (if separable && character.isUpper then ['_'] else []) ++
        character.toLower :: snakeFrom (isSeparable character) rest := by
  cases capital : character.isUpper with
  | true => cases separable <;> simp [snakeFrom, isSeparable, capital]
  | false =>
      have kept : character.toLower = character :=
        Char.toLower_eq_of_not_isUpper (by simp [capital])
      simp [snakeFrom, isSeparable, capital, kept]

/-- A word without capitals stays as it is. -/
theorem snakeFrom_of_small {word : List Char} (separable : Bool)
    (small : ∀ character ∈ word, character.isUpper = false) : snakeFrom separable word = word := by
  induction word generalizing separable with
  | nil => rfl
  | cons first rest ih =>
      obtain ⟨firstSmall, restSmall⟩ := List.forall_mem_cons.mp small
      have kept : first.toLower = first := Char.toLower_eq_of_not_isUpper (by simp [firstSmall])
      rw [snakeFrom_cons, ih _ restSmall, kept, firstSmall, Bool.and_false]
      rfl

/-- A second conversion changes nothing. -/
theorem snakeCase_snakeCase (word : String) : snakeCase (snakeCase word) = snakeCase word := by
  have fixed := snakeFrom_of_small false (isUpper_snakeCase word)
  conv_lhs => rw [snakeCase, fixed, String.ofList_toList]

/-- A separator is put before a capital that follows neither a capital nor a separator. -/
theorem separatesAt_length (before : List Char) (character : Char) (rest : List Char) :
    separatesAt (before ++ character :: rest) before.length =
      (before.getLast?.any isSeparable && character.isUpper) := by
  induction before using List.reverseRecOn with
  | nil => rfl
  | append_singleton before last _ => simp [separatesAt]

theorem insertSeparators_cons (marked : Nat → Bool) (start : Nat) (character : Char)
    (word : List Char) :
    insertSeparators marked start (character :: word) =
      (if marked start then ['_'] else []) ++
        character :: insertSeparators marked (start + 1) word := by
  cases here : marked start <;> simp [insertSeparators, here]

/-- What the flag of the conversion says is what the last character before the position says. -/
theorem snakeFrom_eq_insertSeparators (before word : List Char) :
    snakeFrom (before.getLast?.any isSeparable) word =
      insertSeparators (separatesAt (before ++ word)) before.length (word.map Char.toLower) := by
  induction word generalizing before with
  | nil => rfl
  | cons character rest ih =>
      -- The character joins what has been read, so that the positions go on from there.
      have later := ih (before ++ [character])
      rw [List.getLast?_concat, Option.any_some, List.append_assoc, List.singleton_append,
        List.length_append, List.length_singleton] at later
      rw [snakeFrom_cons, later, List.map_cons, insertSeparators_cons, separatesAt_length]

/-- The first character stays, in its small form. -/
theorem head?_snakeFrom (word : List Char) :
    (snakeFrom false word).head? = word.head?.map Char.toLower := by
  cases word with
  | nil => rfl
  | cons first rest =>
      rw [snakeFrom_cons]
      rfl

/-- The last character stays, in its small form. -/
theorem getLast?_snakeFrom (separable : Bool) (word : List Char) :
    (snakeFrom separable word).getLast? = word.getLast?.map Char.toLower := by
  induction word generalizing separable with
  | nil => rfl
  | cons first rest ih =>
      rw [snakeFrom_cons, List.getLast?_append, List.getLast?_cons, List.getLast?_cons, ih]
      cases rest.getLast? <;> rfl

/-- An end of the converted word is a separator exactly if that end of the word is one. -/
theorem map_toLower_eq_separator_iff (character : Option Char) :
    character.map Char.toLower = some '_' ↔ character = some '_' := by
  cases character with
  | none => rfl
  | some character => simp [toLower_eq_separator_iff]

theorem doubledSeparators_cons_cons (first second : Char) (rest : List Char) :
    doubledSeparators (first :: second :: rest) =
      doubledSeparators (second :: rest) + if first = '_' ∧ second = '_' then 1 else 0 := by
  simp [doubledSeparators, List.count_cons]

/-- A separator is only put between two characters that are none. -/
theorem doubledSeparators_snakeFrom (previous : Char) (word : List Char) :
    doubledSeparators (previous.toLower :: snakeFrom (isSeparable previous) word) =
      doubledSeparators (previous :: word) := by
  induction word generalizing previous with
  | nil => rfl
  | cons character rest ih =>
      rw [snakeFrom_cons, doubledSeparators_cons_cons previous]
      split
      case isTrue inserted =>
        -- The new separator has two neighbours, and both pairs have to be no doubled separator.
        simp only [isSeparable, Bool.and_eq_true, bne_iff_ne] at inserted
        have noneBefore : previous.toLower ≠ '_' :=
          mt (toLower_eq_separator_iff previous).mp inserted.1.2
        have noneAfter : character.toLower ≠ '_' := (toLower_of_isUpper inserted.2).1
        rw [List.singleton_append, doubledSeparators_cons_cons, doubledSeparators_cons_cons, ih]
        simp [noneBefore, noneAfter, inserted.1.2]
      case isFalse =>
        rw [List.nil_append, doubledSeparators_cons_cons, ih]
        simp only [toLower_eq_separator_iff]

/-- No two separators come together that were apart. -/
theorem doubledSeparators_snakeCase (word : String) :
    doubledSeparators (snakeCase word).toList = doubledSeparators word.toList := by
  rw [snakeCase, String.toList_ofList]
  cases word.toList with
  | nil => rfl
  | cons first rest =>
      rw [snakeFrom_cons]
      exact doubledSeparators_snakeFrom first rest

/-- The conversion leaves no capital and changes nothing when repeated. It lowers every capital and
puts one separator before each that directly follows neither a capital nor a separator. The result
starts or ends with a separator only if the word does, and has as many doubled ones. -/
theorem snakeCase_separates_capitals (word : String) :
    (∀ character ∈ (snakeCase word).toList, character.isUpper = false) ∧
    snakeCase (snakeCase word) = snakeCase word ∧
    (snakeCase word).toList =
      insertSeparators (separatesAt word.toList) 0 (word.toList.map Char.toLower) ∧
    ((snakeCase word).toList.head? = some '_' ↔ word.toList.head? = some '_') ∧
    ((snakeCase word).toList.getLast? = some '_' ↔ word.toList.getLast? = some '_') ∧
    doubledSeparators (snakeCase word).toList = doubledSeparators word.toList := by
  have spelled : (snakeCase word).toList = snakeFrom false word.toList := String.toList_ofList
  refine ⟨isUpper_snakeCase word, snakeCase_snakeCase word, ?_, ?_, ?_,
    doubledSeparators_snakeCase word⟩
  · rw [spelled]
    exact snakeFrom_eq_insertSeparators [] word.toList
  · rw [spelled, head?_snakeFrom]
    exact map_toLower_eq_separator_iff _
  · rw [spelled, getLast?_snakeFrom]
    exact map_toLower_eq_separator_iff _

example : insertSeparators (separatesAt "_GetUUID2Of".toList) 0 "_getuuid2of".toList =
    "_get_uuid2_of".toList := by decide

end Identifier

end IdlBindings
