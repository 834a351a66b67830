import IdlBindings.FileTree
import IdlBindings.Proofs.Refusal

/-
This file says what writing to a path does to a tree: the path leads to the new content afterwards,
and every other place is as it was.
-/

namespace IdlBindings.FileTree

variable {tree : FileTree} {location other current final : Location} {entry : FileEntry}
  {path : String} {content : ByteArray}

/-- A place takes a content in: a new file holds it, a file that was there holds nothing else then,
and a device has it after all it had received. -/
inductive TakesIn (content : ByteArray) : Option FileEntry → FileEntry → Prop
  | new : TakesIn content none (.file content)
  | replaced (old : ByteArray) : TakesIn content (some (.file old)) (.file content)
  | received (earlier : ByteArray) :
      TakesIn content (some (.device earlier)) (.device (earlier ++ content))

/-- A path leads to a place that took a content in, and nothing else differs from an earlier
tree. -/
structure Written (before after : FileTree) (path : String) (content : ByteArray) : Prop where
  workingDirectory : after.workingDirectory = before.workingDirectory
  content : ∃ location entry, after.find path = .ok (location, entry) ∧
    TakesIn content (before.entryAt? location) entry ∧
    ∀ other, other ≠ location → after.entryAt? other = before.entryAt? other

/-- What is set at one location changes nothing at another. -/
theorem entryAt?_set_of_ne (tree : FileTree) (entry : FileEntry) (differs : other ≠ location) :
    (tree.set location entry).entryAt? other = tree.entryAt? other := by
  have unequal : (other == location) = false := by simp [differs]
  simp [entryAt?, set, List.lookup_cons, unequal]

theorem entryAt?_set_self (tree : FileTree) (entry : FileEntry) (inside : location ≠ []) :
    (tree.set location entry).entryAt? location = some entry := by
  simp [entryAt?, set, inside]

/-- No path goes on from the place: it is no directory and no link. -/
structure IsEnd (tree : FileTree) (location : Location) : Prop where
  noDirectory : tree.entryAt? location ≠ some .directory
  noLink : ∀ target, tree.entryAt? location ≠ some (.link target)

/-- The root is no end of paths. -/
theorem IsEnd.ne_nil (isEnd : tree.IsEnd location) : location ≠ [] := by
  rintro rfl
  exact isEnd.noDirectory rfl

/-- A step is made from a directory only. -/
theorem isDirectory_of_step {name : String} {next : Location}
    (stepped : tree.step current name = .ok next) : tree.entryAt? current = some .directory := by
  unfold step at stepped
  split at stepped
  case h_1 => cases stepped
  case h_2 isDirectory => exact isDirectory
  case h_3 => cases stepped

/-- A step can still be made once an end of paths is set. -/
theorem step_set {name : String} {next : Location} (stepped : tree.step current name = .ok next)
    (isEnd : tree.IsEnd location) : (tree.set location entry).step current name = .ok next := by
  have elsewhere : current ≠ location := by
    rintro rfl
    exact isEnd.noDirectory (isDirectory_of_step stepped)
  rw [← stepped, step, step, entryAt?_set_of_ne tree entry elsewhere]

section Walk

variable {step : Location → String → Except DiskFault Location}
  {follow : Location → List String → Except DiskFault Location}

/-- Everything that a walk by one more name consists of. -/
theorem walkWith_cons_eq_ok {name : String} {rest : List String} :
    tree.walkWith step follow current (name :: rest) = .ok final ↔
      ∃ next, step current name = .ok next ∧
        ((∃ target, tree.entryAt? next = some (.link target) ∧
            follow (startFrom current target) (pathNames target ++ rest) = .ok final) ∨
          (∀ target, tree.entryAt? next ≠ some (.link target)) ∧
            tree.walkWith step follow next rest = .ok final) := by
  rw [walkWith]
  cases stepped : step current name with
  | error fault => simp
  | ok next =>
      cases found : tree.entryAt? next with
      | none => simp [found]
      | some entry => cases entry <;> simp [found]

theorem pathNames_ne_nil (path : String) : pathNames path ≠ [] := by
  simp [pathNames, Text.split_ne_nil]

/-- A walk up to the first link does not end at a link, if what follows it does not. -/
theorem walkWith_noLink
    (follows : ∀ start names, names ≠ [] → follow start names = .ok final →
      ∀ target, tree.entryAt? final ≠ some (.link target))
    {names : List String} (inhabited : names ≠ [])
    (walked : tree.walkWith step follow current names = .ok final) :
    ∀ target, tree.entryAt? final ≠ some (.link target) := by
  induction names generalizing current with
  | nil => exact absurd rfl inhabited
  | cons name rest ih =>
      obtain ⟨next, _, ⟨target, _, followed⟩ | ⟨noLink, remaining⟩⟩ := walkWith_cons_eq_ok.mp walked
      · exact follows _ _ (by simp [pathNames_ne_nil]) followed
      · cases rest with
        | nil =>
            cases remaining
            exact noLink
        | cons second later => exact ih (List.cons_ne_nil _ _) remaining

/-- A walk does not end at a link. -/
theorem walk_noLink {links : Nat} {names : List String} (inhabited : names ≠ [])
    (walked : tree.walk step links current names = .ok final) :
    ∀ target, tree.entryAt? final ≠ some (.link target) := by
  induction links generalizing current names with
  | zero => exact walkWith_noLink (fun _ _ _ failed => by cases failed) inhabited walked
  | succ links ih => exact walkWith_noLink (fun _ _ some => ih some) inhabited walked

/-- A walk up to the first link leads to the same place once an end of paths is set. -/
theorem walkWith_set {after : Location → List String → Except DiskFault Location}
    (follows : ∀ start names, follow start names = .ok final → after start names = .ok final)
    (isEnd : tree.IsEnd location) (noLink : ∀ target, entry ≠ .link target) {names : List String}
    (walked : tree.walkWith tree.step follow current names = .ok final) :
    (tree.set location entry).walkWith (tree.set location entry).step after current names =
      .ok final := by
  induction names generalizing current with
  | nil => exact walked
  | cons name rest ih =>
      obtain ⟨next, stepped, further⟩ := walkWith_cons_eq_ok.mp walked
      refine walkWith_cons_eq_ok.mpr ⟨next, step_set stepped isEnd, ?_⟩
      rcases further with ⟨target, isLink, followed⟩ | ⟨notLink, remaining⟩
      · have elsewhere : next ≠ location := by
          rintro rfl
          exact isEnd.noLink target isLink
        rw [entryAt?_set_of_ne tree entry elsewhere]
        exact .inl ⟨target, isLink, follows _ _ followed⟩
      · refine .inr ⟨?_, ih remaining⟩
        by_cases here : next = location
        · rw [here, entryAt?_set_self tree entry isEnd.ne_nil]
          simpa using noLink
        · rwa [entryAt?_set_of_ne tree entry here]

/-- A walk leads to the same place once an end of paths is set. -/
theorem walk_set (isEnd : tree.IsEnd location) (noLink : ∀ target, entry ≠ .link target)
    {links : Nat} {names : List String}
    (walked : tree.walk tree.step links current names = .ok final) :
    (tree.set location entry).walk (tree.set location entry).step links current names =
      .ok final := by
  -- The links that are left bound the walks, and the names bound each walk up to a link.
  induction links generalizing current names with
  | zero => exact walkWith_set (fun _ _ failed => by cases failed) isEnd noLink walked
  | succ links ih => exact walkWith_set (fun _ _ => ih) isEnd noLink walked

end Walk

/-- The ways in which a path leads to a sink. -/
theorem sink_eq_ok {sink : Sink} (aimed : tree.sink path = .ok sink) :
    path.isEmpty = false ∧ isTooLong path = false ∧ ∃ location,
      tree.walk tree.step linkLimit (tree.start path) (pathNames path) = .ok location ∧
      (tree.entryAt? location = some .standardOutput ∧ sink = .console ∨
        tree.entryAt? location ≠ some .standardOutput ∧
          tree.entryAt? location ≠ some .directory ∧ sink = .place location) := by
  unfold FileTree.sink at aimed
  split at aimed
  case isTrue => cases aimed
  case isFalse present =>
  split at aimed
  case isTrue => cases aimed
  case isFalse short =>
  refine ⟨by simpa using present, by simpa using short, ?_⟩
  dsimp only at aimed
  split at aimed
  case h_1 => cases aimed
  case h_2 =>
  split at aimed
  case isTrue =>
    obtain ⟨_, _, refused⟩ := bind_eq_ok_iff.mp aimed
    cases refused
  case isFalse =>
    obtain ⟨location, walked, ended⟩ := bind_eq_ok_iff.mp aimed
    refine ⟨location, walked, ?_⟩
    split at ended
    case h_1 => cases ended
    case h_2 isConsole =>
      cases ended
      exact .inl ⟨isConsole, rfl⟩
    case h_3 noDirectory noConsole =>
      cases ended
      exact .inr ⟨noConsole, noDirectory, rfl⟩

/-- What stands where a path for writing leads to is a file or a device, if anything. -/
theorem takesIn_written (content : ByteArray)
    (noConsole : tree.entryAt? location ≠ some .standardOutput) (isEnd : tree.IsEnd location) :
    TakesIn content (tree.entryAt? location) (.written content (tree.entryAt? location)) := by
  cases found : tree.entryAt? location with
  | none => exact .new
  | some entry =>
      cases entry with
      | file old => exact .replaced old
      | device earlier => exact .received earlier
      | directory => exact absurd found isEnd.noDirectory
      | link target => exact absurd found (isEnd.noLink target)
      | standardOutput => exact absurd found noConsole

/-- What took a content in is no link. -/
theorem TakesIn.noLink {before : Option FileEntry} (takesIn : TakesIn content before entry) :
    ∀ target, entry ≠ .link target := by
  cases takesIn <;> exact fun _ => nofun

/-- What was written is found under its path, and nothing else changes. -/
theorem written_of_sink (aimed : tree.sink path = .ok (.place location)) (content : ByteArray) :
    tree.Written (tree.put location content) path content := by
  obtain ⟨present, short, found, walked, ⟨_, impossible⟩ | ⟨noConsole, noDirectory, same⟩⟩ :=
    sink_eq_ok aimed
  · cases impossible
  cases same
  have isEnd : tree.IsEnd location := ⟨noDirectory, walk_noLink (pathNames_ne_nil path) walked⟩
  have takesIn := takesIn_written content noConsole isEnd
  refine ⟨rfl, location, _, ?_, takesIn, fun other differs => entryAt?_set_of_ne tree _ differs⟩
  have sameStart : (tree.put location content).start path = tree.start path := rfl
  unfold find
  rw [present, if_neg (by decide), short, if_neg (by decide), sameStart, put,
    walk_set isEnd takesIn.noLink walked]
  simp [Except.bind, arrive, entryAt?_set_self tree _ isEnd.ne_nil]

/-- A path that leads to the standard output is found to do so. -/
theorem find_of_sink (aimed : tree.sink path = .ok .console) :
    ∃ location, tree.find path = .ok (location, .standardOutput) := by
  obtain ⟨present, short, found, walked, ⟨isConsole, _⟩ | ⟨_, _, impossible⟩⟩ := sink_eq_ok aimed
  · refine ⟨found, ?_⟩
    simp [find, present, short, walked, Except.bind, arrive, isConsole]
  · cases impossible

end IdlBindings.FileTree
