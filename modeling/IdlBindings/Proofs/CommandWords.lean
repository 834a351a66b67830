import IdlBindings.CommandLine.Invocation
import Mathlib.Data.List.Induction
import Mathlib.Tactic.MkIffOfInductiveProp

/-
This file says what the words of a command line mean. The rules stand apart from any reader, and a
reader follows them if it takes up exactly the command lines that they allow.
-/

namespace IdlBindings.CommandLine

/-- The letter of an option that takes a value. -/
def Setting.letter : Setting → Char
  | .output => 'o'
  | .supportModule => 'c'
  | .exampleModule => 'm'
  | .nativeModule => 'n'
  | .nativeNamespace => 's'

/-- The long name of an option without a value. -/
def Switch.name : Switch → String
  | .verbose => "verbose"
  | .printBinding => "print-ir"
  | .help => "help"
  | .version => "version"

/-- The letters of the options without a value; one of them has only its name. -/
inductive Switch.HasLetter : Char → Switch → Prop
  | verbose : HasLetter 'v' .verbose
  | help : HasLetter 'h' .help
  | version : HasLetter 'V' .version

/-- One thing that a command line says. -/
inductive Item where
  | input (text : String)
  | value (setting : Setting) (text : String)
  | switch (switch : Switch)
deriving DecidableEq

/-- A word that is no option. A dash alone is none. -/
def IsPlain (word : String) : Prop := word.toList.head? = some '-' → word = "-"

/-- A value that follows its letter in one word, at once or after an equals sign. -/
inductive Attached : List Char → String → Prop
  | directly {first : Char} {rest : List Char} (noSign : first ≠ '=') :
      Attached (first :: rest) (String.ofList (first :: rest))
  | afterSign (rest : List Char) : Attached ('=' :: rest) (String.ofList rest)

/-- The words spell the items. Options without a value may share a word, where one that takes a
value can come last; the value is in the same word or is the next one. After a double dash every
word is an input. -/
inductive Spells : List String → List Item → Prop
  | nothing : Spells [] []
  | input {word : String} {words : List String} {items : List Item} (plain : IsPlain word)
      (rest : Spells words items) : Spells (word :: words) (.input word :: items)
  | onlyInputs (words : List String) : Spells ("--" :: words) (words.map .input)
  | name {words : List String} {items : List Item} (switch : Switch) (rest : Spells words items) :
      Spells (("--" ++ switch.name) :: words) (.switch switch :: items)
  | letters {letters : List Char} {switches : List Switch} {words : List String}
      {items : List Item} (inhabited : letters ≠ [])
      (named : List.Forall₂ Switch.HasLetter letters switches) (rest : Spells words items) :
      Spells (String.ofList ('-' :: letters) :: words) (switches.map .switch ++ items)
  | attached {letters : List Char} {switches : List Switch} {words : List String}
      {items : List Item} (named : List.Forall₂ Switch.HasLetter letters switches)
      (setting : Setting) {tail : List Char} {value : String} (attached : Attached tail value)
      (rest : Spells words items) :
      Spells (String.ofList ('-' :: (letters ++ setting.letter :: tail)) :: words)
        (switches.map .switch ++ .value setting value :: items)
  | separate {letters : List Char} {switches : List Switch} {words : List String}
      {items : List Item} (named : List.Forall₂ Switch.HasLetter letters switches)
      (setting : Setting) {value : String} (plain : IsPlain value) (rest : Spells words items) :
      Spells (String.ofList ('-' :: (letters ++ [setting.letter])) :: value :: words)
        (switches.map .switch ++ .value setting value :: items)

namespace Item

/-- The text of an input, if the item is one. -/
def input? : Item → Option String
  | input text => some text
  | _ => none

/-- The value for an option, if the item is one. -/
def value? (setting : Setting) : Item → Option String
  | value given text => if given = setting then some text else none
  | _ => none

variable (setting : Setting) (text : String) (named : Switch)

@[simp]
theorem value?_input : value? setting (input text) = none := rfl

@[simp]
theorem value?_switch : value? setting (switch named) = none := rfl

@[simp]
theorem value?_value_self : value? setting (value setting text) = some text := by
  simp [value?]

end Item

/-- What is asked for by items. -/
def Invocation.ofItems (items : List Item) : Invocation where
  inputs := items.filterMap Item.input?
  output := (items.filterMap (Item.value? .output)).head?
  supportModule := (items.filterMap (Item.value? .supportModule)).head?
  exampleModule := (items.filterMap (Item.value? .exampleModule)).head?
  nativeModule := (items.filterMap (Item.value? .nativeModule)).head?
  nativeNamespace := (items.filterMap (Item.value? .nativeNamespace)).head?
  verbose := decide (.switch .verbose ∈ items)
  printsBinding := decide (.switch .printBinding ∈ items)

/-- Items that ask for a run: every option is given at most once, the file to write has a name, and
neither help nor the version is asked for. -/
@[mk_iff]
structure Consistent (items : List Item) : Prop where
  settings : ∀ setting, (items.filterMap (Item.value? setting)).length ≤ 1
  switches : ∀ switch, items.count (.switch switch) ≤ 1
  noHelp : .switch .help ∉ items
  noVersion : .switch .version ∉ items
  outputNamed : .value .output "" ∉ items

/-- A reader follows the rules: it takes up a command line exactly if its words spell consistent
items with an input, and then as these items ask. -/
def FollowsRules (reader : List String → Reading) : Prop :=
  ∀ arguments invocation, reader arguments = .invocation invocation ↔
    ∃ items, Spells arguments items ∧ Consistent items ∧ items.filterMap Item.input? ≠ [] ∧
      invocation = .ofItems items

/-- The invocation after one more item, unless the item is refused. -/
def Item.extend? (invocation : Invocation) : Item → Option Invocation
  | input text => some (invocation.addInputs [text])
  | value setting text => invocation.set? setting text
  | switch named =>
      match Progress.switch invocation named with
      | .taken next => some next
      | _ => none

section Items

/-- An item fits behind others if its option is new, a file to write has a name, and it asks for
no help and no version. -/
def Item.Fits (items : List Item) : Item → Prop
  | input _ => True
  | value setting text =>
      items.filterMap (Item.value? setting) = [] ∧ (setting = .output → text ≠ "")
  | switch named => .switch named ∉ items ∧ named ≠ .help ∧ named ≠ .version

variable {items : List Item}

/-- Nothing is consistent. -/
theorem consistent_nil : Consistent [] where
  settings _ := Nat.zero_le 1
  switches _ := Nat.zero_le 1
  noHelp := List.not_mem_nil
  noVersion := List.not_mem_nil
  outputNamed := List.not_mem_nil

/-- The first items of consistent ones are consistent. -/
theorem Consistent.of_append {more : List Item} (whole : Consistent (items ++ more)) :
    Consistent items where
  settings setting := by
    have bound := whole.settings setting
    rw [List.filterMap_append, List.length_append] at bound
    omega
  switches switch := by
    have bound := whole.switches switch
    rw [List.count_append] at bound
    omega
  noHelp asked := whole.noHelp (List.mem_append_left more asked)
  noVersion asked := whole.noVersion (List.mem_append_left more asked)
  outputNamed unnamed := whole.outputNamed (List.mem_append_left more unnamed)

/-- One more input is always consistent. -/
theorem consistent_append_input (text : String) :
    Consistent (items ++ [.input text]) ↔ Consistent items := by
  simp [consistent_iff, List.filterMap_cons, List.count_append]

/-- One more value is consistent with the items exactly if it fits behind them. -/
theorem consistent_append_value (setting : Setting) (text : String) :
    Consistent (items ++ [.value setting text]) ↔
      Consistent items ∧ Item.Fits items (.value setting text) := by
  have same : (items ++ [Item.value setting text]).filterMap (Item.value? setting) =
      items.filterMap (Item.value? setting) ++ [text] := by
    simp
  constructor
  · intro whole
    have once := whole.settings setting
    rw [same, List.length_append, List.length_singleton] at once
    have new : items.filterMap (Item.value? setting) = [] :=
      List.eq_nil_of_length_eq_zero (by omega)
    refine ⟨whole.of_append, new, ?_⟩
    rintro rfl rfl
    exact whole.outputNamed (List.mem_append_right _ (List.mem_singleton_self _))
  · rintro ⟨whole, new, named⟩
    refine ⟨fun other => ?_, fun switch => ?_, ?_, ?_, ?_⟩
    · by_cases own : setting = other
      · subst own
        rw [same, new]
        exact Nat.le_refl 1
      · simpa [Item.value?, List.filterMap_cons, own] using whole.settings other
    · simpa [List.count_append] using whole.switches switch
    · simpa using whole.noHelp
    · simpa using whole.noVersion
    · simp only [List.mem_append, List.mem_singleton, not_or]
      refine ⟨whole.outputNamed, ?_⟩
      rintro same
      cases same
      exact named rfl rfl

/-- One more switch is consistent with the items exactly if it fits behind them. -/
theorem consistent_append_switch (named : Switch) :
    Consistent (items ++ [.switch named]) ↔
      Consistent items ∧ Item.Fits items (.switch named) := by
  constructor
  · intro whole
    have once := whole.switches named
    rw [List.count_append, List.count_singleton_self] at once
    have new : .switch named ∉ items := List.count_eq_zero.mp (by omega)
    have last : Item.switch named ∈ items ++ [.switch named] := by simp
    refine ⟨whole.of_append, new, ?_, ?_⟩
    · rintro rfl
      exact whole.noHelp last
    · rintro rfl
      exact whole.noVersion last
  · rintro ⟨whole, new, notHelp, notVersion⟩
    refine ⟨fun setting => ?_, fun switch => ?_, ?_, ?_, ?_⟩
    · simpa [List.filterMap_cons] using whole.settings setting
    · by_cases own : switch = named
      · subst own
        simp [List.count_append, List.count_eq_zero.mpr new]
      · have other : Item.switch named ≠ .switch switch := by
          rintro same
          cases same
          exact own rfl
        simpa [List.count_append, List.count_cons, other] using whole.switches switch
    · simpa [Ne.symm notHelp] using whole.noHelp
    · simpa [Ne.symm notVersion] using whole.noVersion
    · simpa using whole.outputNamed

/-- One more item keeps the items consistent exactly if it fits behind them. -/
theorem consistent_append_iff (item : Item) :
    Consistent (items ++ [item]) ↔ Consistent items ∧ item.Fits items := by
  cases item with
  | input text => simp [consistent_append_input, Item.Fits]
  | value setting text => exact consistent_append_value setting text
  | switch named => exact consistent_append_switch named

/-- The value of an option is the first one among the items. -/
theorem value?_ofItems (setting : Setting) :
    (Invocation.ofItems items).value? setting = (items.filterMap (Item.value? setting)).head? := by
  cases setting <;> rfl

/-- A value is taken exactly if it fits behind the items. -/
theorem extend?_value_eq_some_iff (setting : Setting) (text : String) {next : Invocation} :
    Item.extend? (.ofItems items) (.value setting text) = some next ↔
      Item.Fits items (.value setting text) ∧
        next = .ofItems (items ++ [.value setting text]) := by
  have free : ((Invocation.ofItems items).value? setting).isSome = false ↔
      items.filterMap (Item.value? setting) = [] := by
    rw [value?_ofItems, Option.isSome_eq_false_iff, Option.isNone_iff_eq_none,
      List.head?_eq_none_iff]
  have named : (setting == .output && text.isEmpty) = false ↔ (setting = .output → text ≠ "") := by
    simp
  unfold Item.extend? Invocation.set? Item.Fits
  dsimp only
  rw [← free, ← named]
  cases given : ((Invocation.ofItems items).value? setting).isSome with
  | true => simp
  | false =>
      cases unnamed : (setting == .output && text.isEmpty) with
      | true => simp
      | false =>
          have new := free.mp given
          have same : (Invocation.ofItems items).withValue text setting =
              .ofItems (items ++ [.value setting text]) := by
            cases setting <;> simp [Invocation.withValue, Invocation.ofItems, Item.input?,
              Item.value?,
              List.filterMap_cons, new]
          simp [same, eq_comm]

/-- A switch is taken exactly if it fits behind the items. -/
theorem extend?_switch_eq_some_iff (named : Switch) {next : Invocation} :
    Item.extend? (.ofItems items) (.switch named) = some next ↔
      Item.Fits items (.switch named) ∧ next = .ofItems (items ++ [.switch named]) := by
  unfold Item.extend? Item.Fits
  cases named with
  | verbose =>
      by_cases given : Item.switch .verbose ∈ items <;>
        simp [Progress.switch, Invocation.ofItems, given, Item.input?, List.filterMap_cons,
          eq_comm]
  | printBinding =>
      by_cases given : Item.switch .printBinding ∈ items <;>
        simp [Progress.switch, Invocation.ofItems, given, Item.input?, List.filterMap_cons,
          eq_comm]
  | help => simp [Progress.switch]
  | version => simp [Progress.switch]

/-- An item is taken exactly if it fits behind the ones before. -/
theorem extend?_eq_some_iff (item : Item) {next : Invocation} :
    item.extend? (.ofItems items) = some next ↔
      item.Fits items ∧ next = .ofItems (items ++ [item]) := by
  cases item with
  | input text =>
      simp [Item.extend?, Item.Fits, Invocation.addInputs, Invocation.ofItems, Item.input?,
        List.filterMap_cons, eq_comm]
  | value setting text => exact extend?_value_eq_some_iff setting text
  | switch named => exact extend?_switch_eq_some_iff named

/-- The items are taken one after the other exactly if they are consistent. -/
theorem foldlM_extend?_eq_some_iff {final : Invocation} :
    items.foldlM Item.extend? {} = some final ↔ Consistent items ∧ final = .ofItems items := by
  -- Whether an item fits depends on the ones before it, so the list grows at its end.
  induction items using List.reverseRecOn generalizing final with
  | nil =>
      have empty : ({} : Invocation) = .ofItems [] := rfl
      simp [consistent_nil, empty, eq_comm]
  | append_singleton items item ih =>
      rw [List.foldlM_append, Option.bind_eq_bind, Option.bind_eq_some_iff, consistent_append_iff]
      constructor
      · rintro ⟨next, before, last⟩
        obtain ⟨whole, rfl⟩ := ih.mp before
        obtain ⟨fits, rfl⟩ := (extend?_eq_some_iff item).mp (by simpa using last)
        exact ⟨⟨whole, fits⟩, rfl⟩
      · rintro ⟨⟨whole, fits⟩, rfl⟩
        refine ⟨_, ih.mpr ⟨whole, rfl⟩, ?_⟩
        simpa using (extend?_eq_some_iff item).mpr ⟨fits, rfl⟩

end Items

section Reader

/-- The words that can be values are the plain ones. -/
theorem isValue_iff (word : String) : isValue word = true ↔ IsPlain word := by
  have alone : word = "-" ↔ word.toList = ['-'] := by
    rw [← String.toList_inj]
    rfl
  unfold isValue IsPlain
  rw [alone]
  split
  case h_1 spelled => simp [spelled]
  case h_2 longer =>
    simp only [true_iff]
    intro dash
    obtain ⟨rest, spelled⟩ := List.head?_eq_some_iff.mp dash
    cases rest with
    | nil => exact spelled
    | cons second rest => exact absurd spelled (longer second rest)

/-- Every option that takes a value is found by its letter. -/
theorem Setting.ofLetter?_letter (setting : Setting) : ofLetter? setting.letter = some setting := by
  cases setting <;> rfl

/-- An option is found by no letter but its own. -/
theorem Setting.letter_of_ofLetter? {letter : Char} {setting : Setting}
    (found : ofLetter? letter = some setting) : letter = setting.letter := by
  unfold ofLetter? at found
  split at found <;> cases found <;> rfl

/-- A switch is found by no letter but its own. -/
theorem Switch.hasLetter_of_ofLetter? {letter : Char} {named : Switch}
    (found : ofLetter? letter = some named) : HasLetter letter named := by
  unfold ofLetter? at found
  split at found <;> cases found
  · exact .verbose
  · exact .help
  · exact .version

/-- A switch is found by no name but its own. -/
theorem Switch.name_of_ofName? {text : String} {named : Switch} (found : ofName? text = some named) :
    text = named.name := by
  unfold ofName? at found
  split at found <;> cases found <;> rfl

/-- A letter of an option is no dash. -/
theorem Switch.HasLetter.ne_dash {letter : Char} {named : Switch} (has : HasLetter letter named) :
    letter ≠ '-' := by
  cases has <;> decide

theorem Setting.letter_ne_dash (setting : Setting) : setting.letter ≠ '-' := by
  cases setting <;> decide

/-- A reading takes the items up: it comes to an invocation exactly if each item fits behind the
ones before and there is an input in the end. -/
def Takes (reading : Reading) (invocation : Invocation) (items : List Item) : Prop :=
  ∀ final, reading = .invocation final ↔
    items.foldlM Item.extend? invocation = some final ∧ final.inputs ≠ []

/-- What the rest of the words comes to after one of them. -/
def Progress.resume (rest : List String) : Progress → Reading
  | taken next => readFrom next rest
  | decided reading => reading
  | awaiting setting next =>
      match rest with
      | [] => .refused
      | value :: more =>
          if isValue value then
            match next.set? setting value with
            | some complete => readFrom complete more
            | none => .refused
          else .refused

/-- A word other than the double dash is read first, and then the rest. -/
theorem readFrom_cons (invocation : Invocation) {text : String} (rest : List String)
    (named : text ≠ "--") :
    readFrom invocation (text :: rest) = (Progress.word invocation text).resume rest := by
  unfold Progress.resume
  rewrite [readFrom, if_neg (by simpa using named)]
  cases Progress.word invocation text <;> rfl

variable {invocation next : Invocation} {reading : Reading} {items : List Item} {item : Item}
  {words : List String}

/-- At the end of the words nothing more is taken, and an input has to be there. -/
theorem takes_finish (invocation : Invocation) : Takes invocation.finish invocation [] := by
  intro final
  unfold Invocation.finish
  cases inputs : invocation.inputs with
  | nil =>
      simp only [List.isEmpty_nil, ↓reduceIte, reduceCtorEq, List.foldlM_nil, false_iff]
      rintro ⟨same, some⟩
      cases same
      exact some inputs
  | cons first rest =>
      simp only [List.isEmpty_cons, Bool.false_eq_true, ↓reduceIte, Reading.invocation.injEq,
        List.foldlM_nil]
      constructor
      · rintro rfl
        exact ⟨rfl, by simp [inputs]⟩
      · rintro ⟨same, _⟩
        cases same
        rfl

/-- A reading takes an item up if the item fits and the rest is taken up after it. -/
theorem takes_cons (extended : item.extend? invocation = some next) (after : Takes reading next items) :
    Takes reading invocation (item :: items) := by
  intro final
  rw [List.foldlM_cons, extended]
  exact after final

/-- A reading that comes to no invocation takes up an item that is refused. -/
theorem takes_of_refused (refused : item.extend? invocation = none)
    (failed : ∀ final, reading ≠ .invocation final) : Takes reading invocation (item :: items) := by
  intro final
  rw [List.foldlM_cons, refused]
  exact iff_of_false (failed final) (by simp)

/-- Words that are inputs are taken up as they stand. -/
theorem takes_inputs (invocation : Invocation) (words : List String) :
    Takes (invocation.addInputs words).finish invocation (words.map .input) := by
  induction words generalizing invocation with
  | nil => simpa [Invocation.addInputs] using takes_finish invocation
  | cons word words ih =>
      have split : invocation.addInputs (word :: words) =
          (invocation.addInputs [word]).addInputs words := by
        simp [Invocation.addInputs]
      rw [split]
      exact takes_cons rfl (ih _)

/-- A value is taken up before the rest of the words. -/
theorem takes_value (invocation : Invocation) (setting : Setting) (text : String)
    (after : ∀ complete, Takes (readFrom complete words) complete items) :
    Takes ((Progress.ofOption (invocation.set? setting text)).resume words) invocation
      (.value setting text :: items) := by
  cases given : invocation.set? setting text with
  | none => exact takes_of_refused given fun _ => nofun
  | some complete => exact takes_cons given (after complete)

/-- A switch is taken or decides the reading, and then the reading is no invocation. -/
theorem switch_cases (invocation : Invocation) (named : Switch) :
    (∃ next, Progress.switch invocation named = .taken next ∧
      Item.extend? invocation (.switch named) = some next) ∨
    ∃ reading, Progress.switch invocation named = .decided reading ∧
      (∀ final, reading ≠ .invocation final) ∧
      Item.extend? invocation (.switch named) = none := by
  cases named with
  | verbose => cases given : invocation.verbose <;> simp [Item.extend?, Progress.switch, given]
  | printBinding =>
      cases given : invocation.printsBinding <;> simp [Item.extend?, Progress.switch, given]
  | help => exact .inr ⟨_, rfl, fun _ => nofun, rfl⟩
  | version => exact .inr ⟨_, rfl, fun _ => nofun, rfl⟩

/-- A switch awaits no value. -/
theorem switch_ne_awaiting (invocation : Invocation) (named : Switch) (setting : Setting)
    (next : Invocation) : Progress.switch invocation named ≠ .awaiting setting next := by
  rcases switch_cases invocation named with ⟨_, taken, _⟩ | ⟨_, decided, _⟩
  · rw [taken]
    nofun
  · rw [decided]
    nofun

/-- A switch is taken up before the rest of the words. -/
theorem takes_switch {named : Switch}
    (after : ∀ next, Takes (readFrom next words) next items) :
    Takes ((Progress.switch invocation named).resume words) invocation (.switch named :: items) := by
  rcases switch_cases invocation named with ⟨next, taken, extended⟩ | ⟨_, decided, failed, refused⟩
  · rw [taken]
    exact takes_cons extended (after next)
  · rw [decided]
    exact takes_of_refused refused failed

/-- The switches of a word are taken one by one before the letters that follow them. -/
theorem takes_letters {letters : List Char} {switches : List Switch} {tail : List Char}
    (named : List.Forall₂ Switch.HasLetter letters switches)
    (after : ∀ next, Takes ((Progress.letters next tail).resume words) next items)
    (invocation : Invocation) :
    Takes ((Progress.letters invocation (letters ++ tail)).resume words) invocation
      (switches.map .switch ++ items) := by
  -- The induction is on the switches; what the letters after them mean is left open.
  induction named generalizing invocation with
  | nil => exact after invocation
  | @cons letter switch letters switches has _ ih =>
      have noSetting : Setting.ofLetter? letter = none := by cases has <;> rfl
      have isSwitch : Switch.ofLetter? letter = some switch := by cases has <;> rfl
      rw [List.cons_append, Progress.letters, noSetting]
      dsimp only
      rw [isSwitch]
      dsimp only
      rcases switch_cases invocation switch with ⟨next, taken, extended⟩ | ⟨_, decided, failed, refused⟩
      · rw [taken]
        exact takes_cons extended (ih next)
      · rw [decided]
        exact takes_of_refused refused failed

/-- A word with one dash is read by its letters. -/
theorem readFrom_letters (invocation : Invocation) {letters : List Char} (words : List String)
    (inhabited : letters ≠ []) (noDash : ∀ first ∈ letters.head?, first ≠ '-') :
    readFrom invocation (String.ofList ('-' :: letters) :: words) =
      (Progress.letters invocation letters).resume words := by
  obtain ⟨first, rest, rfl⟩ := List.exists_cons_of_ne_nil inhabited
  have dashless : first ≠ '-' := noDash first rfl
  rw [readFrom_cons]
  · unfold Progress.word
    rw [String.toList_ofList]
    split
    case h_1 same => exact absurd (List.cons.inj (List.cons.inj same).2).1 dashless
    case h_2 same =>
      obtain ⟨rfl, rfl⟩ := List.cons.inj (List.cons.inj same).2
      rfl
    case h_3 other => exact absurd rfl (other first rest)
  · intro same
    rw [← String.toList_inj, String.toList_ofList] at same
    exact dashless (List.cons.inj (List.cons.inj same).2).1

/-- A word of switches and one more option is taken up item by item. -/
theorem takes_cluster {letters : List Char} {switches : List Switch} (tail : List Char)
    (named : List.Forall₂ Switch.HasLetter letters switches) (inhabited : letters ++ tail ≠ [])
    (noDash : ∀ first ∈ tail.head?, first ≠ '-')
    (after : ∀ next, Takes ((Progress.letters next tail).resume words) next items)
    (invocation : Invocation) :
    Takes (readFrom invocation (String.ofList ('-' :: (letters ++ tail)) :: words)) invocation
      (switches.map .switch ++ items) := by
  rw [readFrom_letters invocation words inhabited]
  · exact takes_letters named after invocation
  · cases named with
    | nil => exact noDash
    | cons has _ =>
        rintro first ⟨⟩
        exact has.ne_dash

/-- A value that is attached is found as such. -/
theorem attachedValue_of_attached {tail : List Char} {value : String} (attached : Attached tail value) :
    tail.isEmpty = false ∧ Progress.attachedValue tail = value := by
  cases attached with
  | directly noSign => simp [Progress.attachedValue, noSign]
  | afterSign rest => exact ⟨rfl, rfl⟩

/-- A plain word is an input. -/
theorem word_of_isPlain (invocation : Invocation) {word : String} (plain : IsPlain word) :
    Progress.word invocation word = .taken (invocation.addInputs [word]) := by
  have value := (isValue_iff word).mpr plain
  unfold Progress.word
  split
  case h_1 spelled => simp [isValue, spelled] at value
  case h_2 spelled => simp [isValue, spelled] at value
  case h_3 => rfl

/-- Words that spell items are read as these items are taken up. -/
theorem takes_of_spells (spelled : Spells words items) (invocation : Invocation) :
    Takes (readFrom invocation words) invocation items := by
  induction spelled generalizing invocation with
  | nothing => exact takes_finish invocation
  | @input word words items plain _ ih =>
      have input := word_of_isPlain invocation plain
      have noMark : word ≠ "--" := by
        rintro rfl
        exact absurd (plain rfl) (by decide)
      rw [readFrom_cons invocation words noMark, input]
      exact takes_cons rfl (ih _)
  | onlyInputs words => exact takes_inputs invocation words
  | name switch _ ih =>
      have word : Progress.word invocation ("--" ++ switch.name) =
          Progress.switch invocation switch := by
        cases switch <;> rfl
      rw [readFrom_cons invocation _ (by cases switch <;> decide), word]
      exact takes_switch ih
  | @letters letters switches words items inhabited named _ ih =>
      have whole := takes_cluster [] named (by simpa using inhabited) (by simp) ih invocation
      rwa [List.append_nil] at whole
  | attached named setting attached _ ih =>
      obtain ⟨inhabited, same⟩ := attachedValue_of_attached attached
      refine takes_cluster _ named (by simp) ?_ (fun next => ?_) invocation
      · rintro first ⟨⟩
        exact setting.letter_ne_dash
      · rw [Progress.letters, Setting.ofLetter?_letter]
        simp only [inhabited, same]
        exact takes_value next setting _ ih
  | @separate letters switches words items named setting value plain _ ih =>
      refine takes_cluster _ named (by simp) ?_ (fun next => ?_) invocation
      · rintro first ⟨⟩
        exact setting.letter_ne_dash
      · rw [Progress.letters, Setting.ofLetter?_letter]
        simp only [List.isEmpty_nil, ↓reduceIte, Progress.resume, (isValue_iff value).mpr plain]
        have same := takes_value next setting value ih
        cases given : next.set? setting value with
        | none => simpa [given, Progress.ofOption, Progress.resume] using same
        | some complete => simpa [given, Progress.ofOption, Progress.resume] using same

/-- Letters that are taken are switches, and the last may be an option with its value. -/
theorem exists_letters_of_taken {letters : List Char}
    (taken : Progress.letters invocation letters = .taken next) :
    ∃ switches front, List.Forall₂ Switch.HasLetter front switches ∧
      (letters = front ∨ ∃ setting tail value,
        letters = front ++ Setting.letter setting :: tail ∧ Attached tail value) := by
  fun_induction Progress.letters invocation letters with
  | case1 => exact ⟨[], [], .nil, .inl rfl⟩
  | case2 => cases taken
  | case3 invocation letter rest setting found inhabited =>
      refine ⟨[], [], .nil, .inr ⟨setting, rest, Progress.attachedValue rest, ?_, ?_⟩⟩
      · rw [Setting.letter_of_ofLetter? found]
        rfl
      · unfold Progress.attachedValue
        split
        · exact .afterSign _
        case h_2 noSign =>
          obtain ⟨first, rest, rfl⟩ := List.exists_cons_of_ne_nil (by simpa using inhabited)
          refine .directly ?_
          rintro rfl
          exact noSign rest rfl
  | case4 => cases taken
  | case5 invocation letter rest _ named found next _ ih =>
      obtain ⟨switches, front, has, shape⟩ := ih taken
      refine ⟨named :: switches, letter :: front,
        .cons (Switch.hasLetter_of_ofLetter? found) has, ?_⟩
      rcases shape with rfl | ⟨setting, tail, value, rfl, attached⟩
      · exact .inl rfl
      · exact .inr ⟨setting, tail, value, rfl, attached⟩
  | case6 invocation letter rest _ named _ untaken => exact absurd taken (untaken next)

/-- Letters that leave a value open are switches, and an option that takes a value. -/
theorem exists_letters_of_awaiting {letters : List Char} {setting : Setting}
    (awaiting : Progress.letters invocation letters = .awaiting setting next) :
    ∃ switches front, List.Forall₂ Switch.HasLetter front switches ∧
      letters = front ++ [setting.letter] := by
  fun_induction Progress.letters invocation letters with
  | case1 => cases awaiting
  | case2 invocation letter rest given found alone =>
      cases awaiting
      refine ⟨[], [], .nil, ?_⟩
      rw [Setting.letter_of_ofLetter? found, List.isEmpty_iff.mp alone]
      rfl
  | case3 invocation letter rest given _ _ =>
      cases set : invocation.set? given (Progress.attachedValue rest) <;>
        simp [set, Progress.ofOption] at awaiting
  | case4 => cases awaiting
  | case5 invocation letter rest _ named found next _ ih =>
      obtain ⟨switches, front, has, rfl⟩ := ih awaiting
      exact ⟨named :: switches, letter :: front,
        .cons (Switch.hasLetter_of_ofLetter? found) has, rfl⟩
  | case6 invocation letter rest _ named _ _ =>
      exact absurd awaiting (switch_ne_awaiting invocation named setting next)

/-- A word that is taken spells something, whatever follows it. -/
theorem exists_spells_of_taken {text : String}
    (taken : Progress.word invocation text = .taken next) (rest : Spells words items) :
    ∃ more, Spells (text :: words) more := by
  unfold Progress.word at taken
  split at taken
  case h_1 long spelled =>
    unfold Progress.name at taken
    split at taken
    case h_1 named found =>
      have same : text = "--" ++ named.name := by
        rw [← Switch.name_of_ofName? found, ← String.toList_inj, spelled]
        simp
      rw [same]
      exact ⟨_, .name named rest⟩
    case h_2 => cases taken
  case h_2 letter letters _ spelled =>
    have same : text = String.ofList ('-' :: letter :: letters) := by
      rw [← spelled, String.ofList_toList]
    obtain ⟨switches, front, has, whole | ⟨setting, tail, value, whole, attached⟩⟩ :=
      exists_letters_of_taken taken
    · rw [same, whole]
      exact ⟨_, .letters (by simp [← whole]) has rest⟩
    · rw [same, whole]
      exact ⟨_, .attached has setting attached rest⟩
  case h_3 noName noLetters =>
    refine ⟨_, .input ((isValue_iff text).mp ?_) rest⟩
    unfold isValue
    split
    case h_1 second letters spelled => exact absurd spelled (noLetters second letters)
    case h_2 => rfl

/-- A word that awaits a value spells something together with the value. -/
theorem exists_spells_of_awaiting {text value : String} {setting : Setting}
    (awaiting : Progress.word invocation text = .awaiting setting next)
    (plain : IsPlain value) (rest : Spells words items) :
    ∃ more, Spells (text :: value :: words) more := by
  unfold Progress.word at awaiting
  split at awaiting
  case h_1 =>
    unfold Progress.name at awaiting
    split at awaiting
    case h_1 named _ => exact absurd awaiting (switch_ne_awaiting invocation named setting next)
    case h_2 => cases awaiting
  case h_2 letter letters _ spelled =>
    obtain ⟨switches, front, has, whole⟩ := exists_letters_of_awaiting awaiting
    rw [← String.ofList_toList (s := text), spelled, whole]
    exact ⟨_, .separate has setting plain rest⟩
  case h_3 => cases awaiting

/-- A switch alone never completes an invocation. -/
theorem switch_ne_decided (invocation : Invocation) (named : Switch) (final : Invocation) :
    Progress.switch invocation named ≠ .decided (.invocation final) := by
  rcases switch_cases invocation named with ⟨next, taken, _⟩ | ⟨reading, decided, failed, _⟩
  · rw [taken]
    nofun
  · rw [decided]
    rintro ⟨⟩
    exact failed final rfl

/-- Letters alone never complete an invocation. -/
theorem letters_ne_decided (invocation : Invocation) (letters : List Char) (final : Invocation) :
    Progress.letters invocation letters ≠ .decided (.invocation final) := by
  fun_induction Progress.letters invocation letters with
  | case1 => nofun
  | case2 => nofun
  | case3 invocation letter rest setting _ _ =>
      cases invocation.set? setting (Progress.attachedValue rest) <;> nofun
  | case4 => nofun
  | case5 invocation letter rest _ named _ next _ ih => exact ih
  | case6 invocation letter rest _ named _ _ => exact switch_ne_decided invocation named final

/-- A word alone never completes an invocation. -/
theorem word_ne_decided (invocation : Invocation) (text : String) (final : Invocation) :
    Progress.word invocation text ≠ .decided (.invocation final) := by
  unfold Progress.word
  split
  · unfold Progress.name
    split
    · exact switch_ne_decided invocation _ final
    · nofun
  · exact letters_ne_decided invocation _ final
  · nofun

/-- Words that are read as an invocation spell items. -/
theorem exists_spells_of_readFrom {final : Invocation}
    (accepted : readFrom invocation words = .invocation final) : ∃ items, Spells words items := by
  fun_induction readFrom invocation words with
  | case1 => exact ⟨[], .nothing⟩
  | case2 invocation text rest mark =>
      rw [beq_iff_eq.mp mark]
      exact ⟨_, .onlyInputs rest⟩
  | case3 invocation text rest _ next taken ih =>
      obtain ⟨items, spelled⟩ := ih accepted
      exact exists_spells_of_taken taken spelled
  | case4 invocation text rest _ reading decided =>
      rw [accepted] at decided
      exact absurd decided (word_ne_decided invocation text final)
  | case5 => cases accepted
  | case6 invocation text _ setting next awaiting value more isValue complete _ ih =>
      obtain ⟨items, spelled⟩ := ih accepted
      exact exists_spells_of_awaiting awaiting ((isValue_iff value).mp isValue) spelled
  | case7 => cases accepted
  | case8 => cases accepted

/-- The reader follows the rules. -/
theorem followsRules_read : FollowsRules read := by
  intro arguments invocation
  constructor
  · intro accepted
    obtain ⟨items, spelled⟩ := exists_spells_of_readFrom accepted
    obtain ⟨taken, inputs⟩ := (takes_of_spells spelled {} invocation).mp accepted
    obtain ⟨consistent, rfl⟩ := foldlM_extend?_eq_some_iff.mp taken
    exact ⟨items, spelled, consistent, inputs, rfl⟩
  · rintro ⟨items, spelled, consistent, inputs, rfl⟩
    exact (takes_of_spells spelled {} _).mpr
      ⟨foldlM_extend?_eq_some_iff.mpr ⟨consistent, rfl⟩, inputs⟩

end Reader

end IdlBindings.CommandLine
