import IdlBindings.Catalog
import IdlBindings.FileTree
import Mathlib.Data.Prod.Lex
import Mathlib.Order.Bounds.Basic

/-
This file says which file a token stands for. A token that is a file stands for itself; any other
stands for the first file on the search path, where an earlier directory counts more than an earlier
extension.
-/

namespace IdlBindings.Catalog

/-- A token is found as a file at a place of the search path: in the directory with the first number
of the place, under the extension with the second one. -/
def FoundAt (disk : Disk) (catalog : Catalog) (token : String) (place : ℕ ×ₗ ℕ)
    (path : String) : Prop :=
  ∃ directory word, catalog.searchPath[(ofLex place).1]? = some directory ∧
    ["yaml", "yml", "json"][(ofLex place).2]? = some word ∧
    path = joinPath directory (token ++ "." ++ word) ∧ disk.isFile path = true

variable {disk : Disk} {catalog : Catalog} {token path : String}

/-- A place of the search path has one path. -/
theorem FoundAt.path_eq {place : ℕ ×ₗ ℕ} {other : String}
    (found : catalog.FoundAt disk token place path)
    (again : catalog.FoundAt disk token place other) : path = other := by
  obtain ⟨directory, word, inDirectory, extended, rfl, _⟩ := found
  obtain ⟨directory', word', inDirectory', extended', rfl, _⟩ := again
  rw [inDirectory, Option.some.injEq] at inDirectory'
  rw [extended, Option.some.injEq] at extended'
  rw [inDirectory', extended']

/-- The candidates stand in rows of three, one row for each directory. -/
theorem getElem?_candidates (catalog : Catalog) (token : String) (row column : Nat)
    (inRow : column < 3) :
    (catalog.candidates token)[3 * row + column]? =
      catalog.searchPath[row]?.bind fun directory =>
        ["yaml", "yml", "json"][column]?.map fun word =>
          joinPath directory (token ++ "." ++ word) := by
  unfold candidates
  induction catalog.searchPath generalizing row with
  | nil => simp
  | cons directory rest ih =>
      have width : (Document.extensions.map fun word =>
          joinPath directory (token ++ "." ++ word)).length = 3 := rfl
      rw [List.flatMap_cons]
      cases row with
      | zero =>
          rw [List.getElem?_append_left (by omega), List.getElem?_map, Nat.mul_zero, Nat.zero_add,
            List.getElem?_cons_zero, Option.bind_some, Document.extensions]
      | succ row =>
          rw [List.getElem?_append_right (by omega), width]
          have shifted : 3 * (row + 1) + column - 3 = 3 * row + column := by omega
          rw [shifted, ih row, List.getElem?_cons_succ]

/-- A token is found at a place exactly if the candidate there is a file. -/
theorem foundAt_iff {row column : Nat} :
    catalog.FoundAt disk token (toLex (row, column)) path ↔
      column < 3 ∧ (catalog.candidates token)[3 * row + column]? = some path ∧
        disk.isFile path = true := by
  constructor
  · rintro ⟨directory, word, inDirectory, extended, rfl, isFile⟩
    simp only [ofLex_toLex] at inDirectory extended
    have inRow : column < 3 := (List.getElem?_eq_some_iff.mp extended).1
    refine ⟨inRow, ?_, isFile⟩
    rw [getElem?_candidates catalog token row column inRow, inDirectory, Option.bind_some,
      extended, Option.map_some]
  · rintro ⟨inRow, atPlace, isFile⟩
    rw [getElem?_candidates catalog token row column inRow] at atPlace
    obtain ⟨directory, inDirectory, mapped⟩ := Option.bind_eq_some_iff.mp atPlace
    obtain ⟨word, extended, rfl⟩ := Option.map_eq_some_iff.mp mapped
    exact ⟨directory, word, inDirectory, extended, rfl, isFile⟩

/-- The first candidate that is a file stands at the least place. -/
theorem exists_isLeast_of_find? (found : (catalog.candidates token).find? disk.isFile = some path) :
    ∃ place, IsLeast {place | ∃ path, catalog.FoundAt disk token place path} place ∧
      catalog.FoundAt disk token place path := by
  obtain ⟨isFile, index, inRange, rfl, earlier⟩ := List.find?_eq_some_iff_getElem.mp found
  have here : catalog.FoundAt disk token (toLex (index / 3, index % 3))
      (catalog.candidates token)[index] := by
    apply foundAt_iff.mpr
    refine ⟨Nat.mod_lt index (by decide), ?_, isFile⟩
    rw [Nat.div_add_mod, List.getElem?_eq_getElem inRange]
  refine ⟨_, ⟨⟨_, here⟩, ?_⟩, here⟩
  rintro ⟨row, column⟩ ⟨other, foundThere⟩
  obtain ⟨inRow, atPlace, otherIsFile⟩ := foundAt_iff.mp foundThere
  obtain ⟨otherInRange, rfl⟩ := List.getElem?_eq_some_iff.mp atPlace
  have notEarlier : ¬ 3 * row + column < index := by
    intro before
    have notFile := earlier (3 * row + column) before
    rw [otherIsFile] at notFile
    exact absurd notFile (by decide)
  apply Prod.Lex.toLex_le_toLex.mpr
  show index / 3 < row ∨ index / 3 = row ∧ index % 3 ≤ column
  omega

/-- The candidates are the paths in all directories with all extensions. -/
theorem mem_candidates : path ∈ catalog.candidates token ↔
    ∃ directory ∈ catalog.searchPath, ∃ word ∈ ["yaml", "yml", "json"],
      path = joinPath directory (token ++ "." ++ word) := by
  simp only [candidates, Document.extensions, List.mem_flatMap, List.mem_map, eq_comm]

theorem FoundAt.mem_candidates {place : ℕ ×ₗ ℕ}
    (found : catalog.FoundAt disk token place path) : path ∈ catalog.candidates token := by
  obtain ⟨directory, word, inDirectory, extended, rfl, _⟩ := found
  exact Catalog.mem_candidates.mpr
    ⟨directory, List.mem_of_getElem? inDirectory, word, List.mem_of_getElem? extended, rfl⟩

/-- The first candidate that is a file is the one at the least place. -/
theorem find?_candidates_eq_some_iff :
    (catalog.candidates token).find? disk.isFile = some path ↔
      ∃ place, IsLeast {place | ∃ path, catalog.FoundAt disk token place path} place ∧
        catalog.FoundAt disk token place path := by
  constructor
  · exact exists_isLeast_of_find?
  · intro ⟨place, least, found⟩
    cases first : (catalog.candidates token).find? disk.isFile with
    | none =>
        have ⟨_, _, _, _, _, isFile⟩ := found
        exact absurd isFile (List.find?_eq_none.mp first path found.mem_candidates)
    | some other =>
        obtain ⟨otherPlace, otherLeast, otherFound⟩ := exists_isLeast_of_find? first
        rw [otherLeast.unique least] at otherFound
        rw [otherFound.path_eq found]

/-- A candidate is longer than the token. -/
theorem length_lt_joinPath (directory token word : String) :
    token.length < (joinPath directory (token ++ "." ++ word)).length := by
  unfold joinPath
  repeat' split
  all_goals
    simp only [String.length_append]
    have point : ".".length = 1 := rfl
    omega

/-- A candidate is longer than the token. -/
theorem ne_token_of_mem_candidates (member : path ∈ catalog.candidates token) : path ≠ token := by
  obtain ⟨directory, _, word, _, rfl⟩ := mem_candidates.mp member
  intro same
  have longer := length_lt_joinPath directory token word
  rw [same] at longer
  omega

theorem locate_of_isFile (isFile : disk.isFile token = true) :
    catalog.locate disk token = .ok token := by
  rw [locate, if_pos isFile]

/-- A token that is no file is located as the first candidate that is one. -/
theorem locate_eq_ok_iff_of_not_isFile (notFile : disk.isFile token = false) :
    catalog.locate disk token = .ok path ↔
      (catalog.candidates token).find? disk.isFile = some path := by
  rw [locate, notFile, if_neg (by decide)]
  cases (catalog.candidates token).find? disk.isFile <;> simp

/-- A token is not found exactly if neither it nor a candidate is a file. -/
theorem locate_eq_notFound_iff :
    catalog.locate disk token = .error (.notFound token) ↔
      disk.isFile token = false ∧ ∀ directory ∈ catalog.searchPath,
        ∀ word ∈ ["yaml", "yml", "json"],
          disk.isFile (joinPath directory (token ++ "." ++ word)) = false := by
  cases isFile : disk.isFile token with
  | true => simp [locate_of_isFile isFile]
  | false =>
      have none_iff : (catalog.candidates token).find? disk.isFile = none ↔
          ∀ directory ∈ catalog.searchPath, ∀ word ∈ ["yaml", "yml", "json"],
            disk.isFile (joinPath directory (token ++ "." ++ word)) = false := by
        rw [List.find?_eq_none]
        constructor
        · intro none directory inPath word extended
          simpa using none _ (mem_candidates.mpr ⟨directory, inPath, word, extended, rfl⟩)
        · intro none path member
          obtain ⟨directory, inPath, word, extended, rfl⟩ := mem_candidates.mp member
          simpa using none directory inPath word extended
      rw [← none_iff, locate, isFile, if_neg (by decide)]
      cases (catalog.candidates token).find? disk.isFile <;> simp

/-- More directories give more candidates, after the others. -/
theorem candidates_append (catalog : Catalog) (more : List String) (token : String) :
    candidates { catalog with searchPath := catalog.searchPath ++ more } token =
      catalog.candidates token ++ candidates { catalog with searchPath := more } token := by
  simp only [candidates, List.flatMap_append]

/-- More directories at the end change nothing that is located. -/
theorem locate_append_of_ok (located : catalog.locate disk token = .ok path)
    (more : List String) :
    locate disk { catalog with searchPath := catalog.searchPath ++ more } token = .ok path := by
  cases isFile : disk.isFile token with
  | true =>
      rw [locate_of_isFile isFile] at located ⊢
      exact located
  | false =>
      rw [locate_eq_ok_iff_of_not_isFile isFile] at located ⊢
      rw [candidates_append, List.find?_append, located, Option.some_or]

/-- A token that is a file is found as itself. Any other is found at the least place of the search
path where it is a file, by directory and then by extension, and is not found if there is none. More
directories at the end of the search path change nothing that is found. -/
theorem locate_finds_least_place (disk : Disk) (catalog : Catalog) (token : String) :
    (catalog.locate disk token = .ok token ↔ disk.isFile token = true) ∧
      (disk.isFile token = false → ∀ path, catalog.locate disk token = .ok path ↔
        ∃ place, IsLeast {place | ∃ path, catalog.FoundAt disk token place path} place ∧
          catalog.FoundAt disk token place path) ∧
      (catalog.locate disk token = .error (.notFound token) ↔
        disk.isFile token = false ∧ ∀ directory ∈ catalog.searchPath,
          ∀ word ∈ ["yaml", "yml", "json"],
            disk.isFile (joinPath directory (token ++ "." ++ word)) = false) ∧
      ∀ more path, catalog.locate disk token = .ok path →
        locate disk { catalog with searchPath := catalog.searchPath ++ more } token = .ok path := by
  refine ⟨⟨?_, locate_of_isFile⟩, ?_, locate_eq_notFound_iff,
    fun more path located => locate_append_of_ok located more⟩
  · intro located
    by_contra notFile
    rw [locate_eq_ok_iff_of_not_isFile (by simpa using notFile)] at located
    exact ne_token_of_mem_candidates (List.mem_of_find?_eq_some located) rfl
  · intro notFile path
    rw [locate_eq_ok_iff_of_not_isFile notFile, find?_candidates_eq_some_iff]

/-- A tree with two documents of one library, where the better extension is in the later
directory. -/
def shelfTree : FileTree :=
  (FileTree.empty.place "late/Thermo.yaml" (.file "{}".toUTF8)).place "early/Thermo.json"
    (.file "{}".toUTF8)

/-- The earlier directory counts more than the better extension. -/
theorem locate_finds_least_place_shelfTree :
    shelfTree.disk.isFile "Thermo" = false ∧
      (∃ place,
        IsLeast {place | ∃ path, FoundAt shelfTree.disk { searchPath := ["early", "late"] } "Thermo"
          place path} place ∧
        FoundAt shelfTree.disk { searchPath := ["early", "late"] } "Thermo" place
          "early/Thermo.json") ∧
      locate shelfTree.disk { searchPath := ["early", "late"] ++ ["early"] } "Thermo" =
        .ok "early/Thermo.json" := by
  have notFile : shelfTree.disk.isFile "Thermo" = false := rfl
  have located : locate shelfTree.disk { searchPath := ["early", "late"] } "Thermo" =
      .ok "early/Thermo.json" := rfl
  obtain ⟨_, least, _, unchanged⟩ := locate_finds_least_place shelfTree.disk
    { searchPath := ["early", "late"] } "Thermo"
  exact ⟨notFile, (least notFile "early/Thermo.json").mp located,
    unchanged ["early"] "early/Thermo.json" located⟩

end IdlBindings.Catalog
