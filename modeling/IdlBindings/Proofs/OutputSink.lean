import IdlBindings.CommandLine.Run
import IdlBindings.Proofs.CommandWords
import IdlBindings.Proofs.FileWriting
import IdlBindings.Proofs.LoadHistory
import IdlBindings.Proofs.SearchOrder
import IdlBindings.Proofs.TableReading

/-
This file says what a run of the command line leaves behind. A run that fails changes no file and
prints nothing; a run that succeeds gives the whole text to one sink, and to nothing else.
-/

namespace IdlBindings

namespace Catalog

/-- A token stands for itself if it is a file, and else for the first file on the search path. -/
def StandsFor (disk : Disk) (directories : List String) (token path : String) : Prop :=
  if disk.isFile token then path = token
  else
    ∃ earlier later,
      (directories.flatMap fun directory =>
        ["yaml", "yml", "json"].map fun word => joinPath directory (token ++ "." ++ word)) =
          earlier ++ path :: later ∧
      disk.isFile path = true ∧ ∀ other ∈ earlier, disk.isFile other = false

/-- The tokens give the libraries, in order: each stands for a document that can be read, unless it
is at a place that was seen before. -/
inductive Gathers (disk : Disk) (directories : List String) :
    List Location → List String → List Model.Library → Prop
  | nothing (seen : List Location) : Gathers disk directories seen [] []
  | again {seen : List Location} {token path : String} {location : Location}
      {tokens : List String} {libraries : List Model.Library}
      (stands : StandsFor disk directories token path)
      (found : disk.location path = .ok location) (known : location ∈ seen)
      (rest : Gathers disk directories seen tokens libraries) :
      Gathers disk directories seen (token :: tokens) libraries
  | document {seen : List Location} {token path : String} {location : Location}
      {tokens : List String} {libraries : List Model.Library} {content : ByteArray} {text : String}
      {document : Model.Document} (stands : StandsFor disk directories token path)
      (found : disk.location path = .ok location) (new : location ∉ seen)
      (readable : disk.read path = .ok content)
      (decoded : String.fromUTF8? content = some text)
      (parsed : if Document.isJson path then disk.parsers.json text = some document
        else disk.parsers.yaml text = .ok document)
      (rest : Gathers disk directories (location :: seen) tokens libraries) :
      Gathers disk directories seen (token :: tokens) (document.libraries ++ libraries)

variable {disk : Disk} {catalog final : Catalog} {token path : String} {tokens : List String}
  {libraries : List Model.Library}

/-- A token is located as the path that it stands for. -/
theorem locate_eq_ok_iff_standsFor :
    catalog.locate disk token = .ok path ↔ StandsFor disk catalog.searchPath token path := by
  unfold StandsFor
  cases isFile : disk.isFile token with
  | true => simp [locate_of_isFile isFile, eq_comm]
  | false =>
      have first : (catalog.candidates token).find? disk.isFile = some path ↔
          disk.isFile path = true ∧ ∃ earlier later,
            catalog.candidates token = earlier ++ path :: later ∧
              ∀ other ∈ earlier, (!disk.isFile other) = true :=
        List.find?_eq_some_iff_append
      rw [locate_eq_ok_iff_of_not_isFile isFile, first, candidates, Document.extensions]
      simp only [Bool.false_eq_true, ↓reduceIte, Bool.not_eq_true']
      constructor
      · rintro ⟨pathIsFile, earlier, later, listed, noFiles⟩
        exact ⟨earlier, later, listed, pathIsFile, noFiles⟩
      · rintro ⟨earlier, later, listed, pathIsFile, noFiles⟩
        exact ⟨pathIsFile, earlier, later, listed, noFiles⟩

/-- The ways in which one more token can be loaded. -/
theorem loadAll_cons_eq_ok_iff :
    catalog.loadAll disk (token :: tokens) = .ok final ↔
      ∃ path location, catalog.locate disk token = .ok path ∧ disk.location path = .ok location ∧
        (location ∈ catalog.attempted ∧ catalog.loadAll disk tokens = .ok final ∨
          location ∉ catalog.attempted ∧ ∃ document, readDocument disk path = .ok document ∧
            loadAll disk
              { catalog with
                attempted := location :: catalog.attempted
                libraries := catalog.libraries ++ document.libraries } tokens = .ok final) := by
  rw [loadAll, load]
  cases located : catalog.locate disk token with
  | error fault => simp
  | ok path =>
      simp only [loadFile, attempt, Except.ok.injEq, exists_and_left, exists_eq_left']
      cases found : disk.location path with
      | error cause => simp [Attempt.fault?]
      | ok location =>
          by_cases known : location ∈ catalog.attempted
          · simp [known, Attempt.fault?, Attempt.catalog]
          · cases result : readDocument disk path with
            | error fault => simp [known, Attempt.fault?]
            | ok document => simp [known, Attempt.fault?, Attempt.catalog]

/-- What is loaded is what the tokens give, after all that was there. -/
theorem exists_gathers_of_loadAll (loaded : catalog.loadAll disk tokens = .ok final) :
    ∃ libraries, final.libraries = catalog.libraries ++ libraries ∧
      Gathers disk catalog.searchPath catalog.attempted tokens libraries := by
  induction tokens generalizing catalog with
  | nil =>
      cases loaded
      exact ⟨[], (List.append_nil _).symm, .nothing _⟩
  | cons token tokens ih =>
      obtain ⟨path, location, located, found, ⟨known, rest⟩ | ⟨new, document, result, rest⟩⟩ :=
        loadAll_cons_eq_ok_iff.mp loaded
      · obtain ⟨libraries, grown, gathers⟩ := ih rest
        exact ⟨libraries, grown,
          .again (locate_eq_ok_iff_standsFor.mp located) found known gathers⟩
      · obtain ⟨libraries, grown, gathers⟩ := ih rest
        obtain ⟨content, text, readable, decoded, parsed⟩ := readDocument_eq_ok_iff.mp result
        refine ⟨document.libraries ++ libraries, ?_, .document
          (locate_eq_ok_iff_standsFor.mp located) found new readable decoded parsed gathers⟩
        rw [grown, List.append_assoc]

/-- Tokens that give libraries can be loaded. -/
theorem exists_loadAll_of_gathers
    (gathers : Gathers disk catalog.searchPath catalog.attempted tokens libraries) :
    ∃ final, catalog.loadAll disk tokens = .ok final ∧
      final.libraries = catalog.libraries ++ libraries := by
  -- Not on the relation itself: its list of seen places is that of a catalog here.
  induction tokens generalizing catalog libraries with
  | nil =>
      cases gathers
      exact ⟨catalog, rfl, (List.append_nil _).symm⟩
  | cons token tokens ih =>
      cases gathers with
      | again stands found known rest =>
          obtain ⟨final, loaded, grown⟩ := ih rest
          exact ⟨final, loadAll_cons_eq_ok_iff.mpr ⟨_, _, locate_eq_ok_iff_standsFor.mpr stands,
            found, .inl ⟨known, loaded⟩⟩, grown⟩
      | @document _ _ _ location _ libraries _ _ document stands found new readable decoded parsed
          rest =>
          obtain ⟨final, loaded, grown⟩ := @ih
            { catalog with
              attempted := location :: catalog.attempted
              libraries := catalog.libraries ++ document.libraries } libraries rest
          refine ⟨final, loadAll_cons_eq_ok_iff.mpr ⟨_, _, locate_eq_ok_iff_standsFor.mpr stands,
            found, .inr ⟨new, document, ?_, loaded⟩⟩, ?_⟩
          · exact readDocument_eq_ok_iff.mpr ⟨_, _, readable, decoded, parsed⟩
          · rw [grown, List.append_assoc]

end Catalog

namespace CommandLine

/-- The variable lists the directories with a colon between any two. If it is not set there are
none. -/
def Lists : Option String → List String → Prop
  | none, directories => directories = []
  | some listed, directories =>
      directories ≠ [] ∧ (∀ directory ∈ directories, ':' ∉ directory.toList) ∧
        String.intercalate ":" directories = listed

/-- The text that is asked for: the binding as a document with a line end, or the source. -/
def Invocation.Renders (invocation : Invocation) (libraries : List Model.Library) (text : String) :
    Prop :=
  if invocation.printsBinding then
    ∃ bound, Binding.build (ArityIndex.ofLibraries libraries).get? libraries = .ok bound ∧
      text = bound.toJson.pretty ++ "\n"
  else
    Source.generate
      { supportModule := invocation.supportModule.getD "cobia"
        exampleModule := invocation.exampleModule
        nativeModule := invocation.nativeModule.getD "C"
        nativeNamespace := invocation.nativeNamespace }
      (ArityIndex.ofLibraries libraries).get? libraries = .ok text

/-- The command line asks for a text: its words spell consistent items, the inputs among them give
libraries, and these give the text. -/
structure Requests (surroundings : Surroundings) (arguments : List String) (items : List Item)
    (text : String) : Prop where
  spelled : Spells arguments items
  consistent : Consistent items
  inhabited : items.filterMap Item.input? ≠ []
  made : ∃ directories libraries, Lists surroundings.listed directories ∧
    Catalog.Gathers surroundings.disk directories [] (items.filterMap Item.input?) libraries ∧
    (Invocation.ofItems items).Renders libraries text

/-- The sink takes the text. -/
def Surroundings.Accepts (surroundings : Surroundings) (text : String) : Option String → Prop
  | none => surroundings.refusal? .console text = none
  | some path => ∃ sink, surroundings.tree.sink path = .ok sink ∧
      surroundings.refusal? sink text = none

/-- The text is in the file that is asked for, or else on the standard output; nothing else is
changed. A file that is asked for can be the standard output, too. -/
def Delivers (before after : FileTree) (outcome : Outcome) (text : String) :
    Option String → Prop
  | none => after = before ∧ outcome.standardOutput = text
  | some path =>
      before.Written after path text.toUTF8 ∧ outcome.standardOutput = "" ∨
        (∃ location, before.find path = .ok (location, .standardOutput)) ∧
          after = before ∧ outcome.standardOutput = text

/-- The search path is what the variable lists. -/
theorem lists_iff {listed : Option String} {directories : List String} :
    Lists listed directories ↔ directories = searchPath listed := by
  cases listed with
  | none => exact Iff.rfl
  | some listed =>
      have colon : ":".toList = [':'] := rfl
      unfold Lists searchPath
      constructor
      · rintro ⟨inhabited, absent, rfl⟩
        dsimp only
        rw [String.toList_intercalate, colon, Text.split_intercalate]
        · simp
        · simpa using inhabited
        · simpa using absent
      · rintro rfl
        refine ⟨by simp [Text.split_ne_nil], ?_, ?_⟩
        · intro directory member
          obtain ⟨piece, inSplit, rfl⟩ := List.mem_map.mp member
          rw [String.toList_ofList]
          exact Text.not_mem_of_mem_split inSplit
        · rw [← String.toList_inj, String.toList_intercalate, colon, List.map_map]
          simpa using Text.intercalate_split ':' listed.toList

/-- The text is rendered as it is asked for. -/
theorem render_eq_ok_iff {invocation : Invocation} {libraries : List Model.Library}
    {text : String} :
    render invocation libraries = .ok text ↔ invocation.Renders libraries text := by
  unfold render Invocation.Renders
  split
  · rw [bind_eq_ok_iff]
    refine exists_congr fun bound => and_congr_right fun _ => ?_
    exact ⟨fun same => (Except.ok.inj same).symm, fun same => congrArg Except.ok same.symm⟩
  · rfl

/-- A text is compiled exactly if the inputs give libraries and these give the text. -/
theorem compile_eq_ok_iff {disk : Disk} {listed : Option String} {invocation : Invocation}
    {text : String} :
    compile disk listed invocation = .ok text ↔
      ∃ directories libraries, Lists listed directories ∧
        Catalog.Gathers disk directories [] invocation.inputs libraries ∧
        invocation.Renders libraries text := by
  simp only [lists_iff, exists_and_left, exists_eq_left]
  unfold compile
  constructor
  · intro compiled
    split at compiled
    case h_1 => cases compiled
    case h_2 catalog loaded =>
      split at compiled
      case h_1 => cases compiled
      case h_2 rendered =>
        cases compiled
        obtain ⟨libraries, grown, gathers⟩ := Catalog.exists_gathers_of_loadAll loaded
        rw [List.nil_append] at grown
        exact ⟨libraries, gathers, grown ▸ render_eq_ok_iff.mp rendered⟩
  · rintro ⟨libraries, gathers, renders⟩
    obtain ⟨catalog, loaded, grown⟩ := @Catalog.exists_loadAll_of_gathers disk
      { searchPath := searchPath listed } invocation.inputs libraries gathers
    rw [List.nil_append] at grown
    simp only [loaded, grown, render_eq_ok_iff.mpr renders]

/-- The ways in which a run ends, each with the tree and the outcome it leaves. -/
inductive Ending (surroundings : Surroundings) (reading : Reading) : FileTree × Outcome → Prop
  | shown (asked : reading = .help ∨ reading = .version) (outcome : Outcome)
      (fine : outcome.exitCode = 0) : Ending surroundings reading (surroundings.tree, outcome)
  | failed (outcome : Outcome) (fails : outcome.exitCode ≠ 0)
      (silent : outcome.standardOutput = "")
      (cause : ∀ invocation text, reading = .invocation invocation →
        compile surroundings.disk surroundings.listed invocation = .ok text →
          ¬ surroundings.Accepts text invocation.output) :
      Ending surroundings reading (surroundings.tree, outcome)
  | delivered (invocation : Invocation) (asked : reading = .invocation invocation) (text : String)
      (compiled : compile surroundings.disk surroundings.listed invocation = .ok text)
      (after : FileTree) (outcome : Outcome) (fine : outcome.exitCode = 0)
      (delivers : Delivers surroundings.tree after outcome text invocation.output) :
      Ending surroundings reading (after, outcome)

section Ending

variable {surroundings : Surroundings} {invocation : Invocation} {text : String}

theorem exitCode_failed_ne_zero (diagnostic : String) : (Outcome.failed diagnostic).exitCode ≠ 0 :=
  show (1 : UInt32) ≠ 0 by decide

/-- A page is shown or not, but the run does not fail for it. -/
theorem ending_present {reading : Reading} (asked : reading = .help ∨ reading = .version)
    (page : String) {shown : Outcome} (fine : shown.exitCode = 0) :
    Ending surroundings reading (surroundings.present page shown) := by
  unfold Surroundings.present
  split
  · exact .shown asked shown fine
  · exact .shown asked .unshown rfl

/-- A text that is there can fail to be delivered only for its sink. -/
theorem ending_of_not_accepts
    (compiled : compile surroundings.disk surroundings.listed invocation = .ok text)
    (unaccepted : ¬ surroundings.Accepts text invocation.output) (diagnostic : String) :
    Ending surroundings (.invocation invocation) (surroundings.tree, .failed diagnostic) := by
  refine .failed _ (exitCode_failed_ne_zero diagnostic) rfl ?_
  intro other otherText same again
  cases same
  cases again.symm.trans compiled
  exact unaccepted

/-- A text without a file goes to the standard output. -/
theorem ending_print
    (compiled : compile surroundings.disk surroundings.listed invocation = .ok text)
    (sink : invocation.output = none) :
    Ending surroundings (.invocation invocation)
      (surroundings.deliver .console text printDiagnostic) := by
  unfold Surroundings.deliver
  cases refusal : surroundings.refusal? .console text with
  | some fault =>
      apply ending_of_not_accepts compiled
      simp [Surroundings.Accepts, sink, refusal]
  | none =>
      refine .delivered invocation rfl text compiled surroundings.tree (.printed text) rfl ?_
      rw [sink]
      exact ⟨rfl, rfl⟩

/-- A text for a file goes to the sink that the path leads to. -/
theorem ending_write
    (compiled : compile surroundings.disk surroundings.listed invocation = .ok text)
    {path : String} (sink : invocation.output = some path) :
    Ending surroundings (.invocation invocation)
      (match surroundings.tree.sink path with
        | .error fault => (surroundings.tree, .failed (writeDiagnostic path fault))
        | .ok sink => surroundings.deliver sink text (writeDiagnostic path)) := by
  cases aimed : surroundings.tree.sink path with
  | error fault =>
      apply ending_of_not_accepts compiled
      simp [Surroundings.Accepts, sink, aimed]
  | ok target =>
      dsimp only [Surroundings.deliver]
      cases refusal : surroundings.refusal? target text with
      | some fault =>
          apply ending_of_not_accepts compiled
          simp [Surroundings.Accepts, sink, aimed, refusal]
      | none =>
          cases target with
          | console =>
              refine .delivered invocation rfl text compiled surroundings.tree (.printed text) rfl ?_
              rw [sink]
              exact .inr ⟨FileTree.find_of_sink aimed, rfl, rfl⟩
          | place location =>
              refine .delivered invocation rfl text compiled _ .written rfl ?_
              rw [sink]
              exact .inl ⟨FileTree.written_of_sink aimed text.toUTF8, rfl⟩

/-- Every run ends in one of the ways. -/
theorem ending (surroundings : Surroundings) (reading : Reading) :
    Ending surroundings reading (surroundings.respond reading) := by
  unfold Surroundings.respond plan
  cases reading with
  | help => exact ending_present (.inl rfl) helpPage rfl
  | version => exact ending_present (.inr rfl) versionLine rfl
  | refused => exact .failed .refused (by decide) rfl fun _ _ => nofun
  | invocation invocation =>
      cases compiled : compile surroundings.disk surroundings.listed invocation with
      | error failure =>
          have cause (other : Invocation) (text : String)
              (same : Reading.invocation invocation = .invocation other)
              (again : compile surroundings.disk surroundings.listed other = .ok text) :
              ¬ surroundings.Accepts text other.output := by
            cases same
            cases again.symm.trans compiled
          cases failure with
          | aborted =>
              simp only [compiled]
              exact .failed .aborted (by decide) rfl cause
          | diagnosed diagnostic =>
              simp only [compiled]
              exact .failed _ (exitCode_failed_ne_zero diagnostic) rfl cause
      | ok text =>
          cases sink : invocation.output with
          | none =>
              simp only [compiled, sink]
              exact ending_print compiled sink
          | some path =>
              simp only [compiled, sink]
              exact ending_write compiled sink

end Ending

/-- What a command line asks for is what its reading makes, if the reader follows the rules. -/
theorem exists_requests_iff {reader : List String → Reading} (rules : FollowsRules reader)
    {surroundings : Surroundings} {arguments : List String} {invocation : Invocation}
    {text : String} :
    (∃ items, Requests surroundings arguments items text ∧ invocation = .ofItems items) ↔
      reader arguments = .invocation invocation ∧
        compile surroundings.disk surroundings.listed invocation = .ok text := by
  rw [rules, compile_eq_ok_iff]
  constructor
  · rintro ⟨items, ⟨spelled, consistent, inhabited, made⟩, rfl⟩
    exact ⟨⟨items, spelled, consistent, inhabited, rfl⟩, made⟩
  · rintro ⟨⟨items, spelled, consistent, inhabited, rfl⟩, made⟩
    exact ⟨items, ⟨spelled, consistent, inhabited, made⟩, rfl⟩

/-- A run that ends with a code other than zero changes no file and prints nothing. A run that ends
with zero is one for help or for the version, or else it gives the whole text that the command line
asks for to one sink. And it does so whenever there is such a text and its sink takes it. -/
theorem run_delivers_whole_text_or_nothing (reader : List String → Reading)
    (rules : FollowsRules reader) (surroundings : Surroundings) (arguments : List String)
    (after : FileTree) (outcome : Outcome)
    (ends : surroundings.respond (reader arguments) = (after, outcome)) :
    (outcome.exitCode ≠ 0 → after = surroundings.tree ∧ outcome.standardOutput = "") ∧
    (outcome.exitCode = 0 →
      (reader arguments = .help ∨ reader arguments = .version) ∧ after = surroundings.tree ∨
      ∃ items text, Requests surroundings arguments items text ∧
        Delivers surroundings.tree after outcome text (Invocation.ofItems items).output) ∧
    ∀ items text, Requests surroundings arguments items text →
      surroundings.Accepts text (Invocation.ofItems items).output →
      outcome.exitCode = 0 ∧
        Delivers surroundings.tree after outcome text (Invocation.ofItems items).output := by
  have ended := ends ▸ ending surroundings (reader arguments)
  refine ⟨fun fails => ?_, fun fine => ?_, fun items text requests accepts => ?_⟩
  · cases ended with
    | shown _ _ fine => exact absurd fine fails
    | failed _ _ silent _ => exact ⟨rfl, silent⟩
    | delivered _ _ _ _ _ _ fine _ => exact absurd fine fails
  · cases ended with
    | shown asked _ _ => exact .inl ⟨asked, rfl⟩
    | failed _ fails _ _ => exact absurd fine fails
    | delivered invocation asked text compiled _ _ _ delivers =>
        obtain ⟨items, requests, rfl⟩ := (exists_requests_iff rules).mpr ⟨asked, compiled⟩
        exact .inr ⟨items, text, requests, delivers⟩
  -- The words have one reading and the reading has one text, whatever items spell the words.
  · obtain ⟨asked, compiled⟩ := (exists_requests_iff rules).mp ⟨items, requests, rfl⟩
    cases ended with
    | shown other _ _ =>
        rw [asked] at other
        rcases other with help | version
        · cases help
        · cases version
    | failed _ _ _ cause => exact absurd accepts (cause _ text asked compiled)
    | delivered invocation again other otherCompiled _ _ fine delivers =>
        cases again.symm.trans asked
        cases otherCompiled.symm.trans compiled
        exact ⟨fine, delivers⟩

/-- A run by the reader that is here. -/
theorem respond_read (tree : FileTree) (listed : Option String) (arguments : List String) :
    Surroundings.respond { tree, listed } (read arguments) =
      ((run tree listed arguments).1, (run tree listed arguments).2) := rfl

open Catalog (sampleTree)

/-- A document can be overwritten by what is made of it, but not if another input is missing. -/
theorem run_delivers_whole_text_or_nothing_sampleTree :
    ((run sampleTree none ["a.json", "-o", "./a.json"]).2.exitCode = 0 ∧
      ∃ items text,
        Invocation.ofItems items = { inputs := ["a.json"], output := some "./a.json" } ∧
        Requests { tree := sampleTree, listed := none } ["a.json", "-o", "./a.json"] items text ∧
        Delivers sampleTree (run sampleTree none ["a.json", "-o", "./a.json"]).1
          (run sampleTree none ["a.json", "-o", "./a.json"]).2 text (some "./a.json")) ∧
    (run sampleTree none ["a.json", "b", "-o", "a.json"]).2.exitCode ≠ 0 ∧
      (run sampleTree none ["a.json", "b", "-o", "a.json"]).1 = sampleTree ∧
      (run sampleTree none ["a.json", "b", "-o", "a.json"]).2.standardOutput = "" := by
  have succeeds : (run sampleTree none ["a.json", "-o", "./a.json"]).2.exitCode = 0 := by
    decide +kernel
  have fails : (run sampleTree none ["a.json", "b", "-o", "a.json"]).2.exitCode ≠ 0 := by
    decide +kernel
  have asked : read ["a.json", "-o", "./a.json"] =
      .invocation { inputs := ["a.json"], output := some "./a.json" } := by
    decide +kernel
  refine ⟨⟨succeeds, ?_⟩, fails, ?_⟩
  · have whole := (run_delivers_whole_text_or_nothing read followsRules_read _ _ _ _
      (respond_read sampleTree none ["a.json", "-o", "./a.json"])).2.1 succeeds
    rcases whole with ⟨other, _⟩ | ⟨items, text, requests, delivers⟩
    · rw [asked] at other
      rcases other with help | version
      · cases help
      · cases version
    · have taken : read ["a.json", "-o", "./a.json"] = .invocation (.ofItems items) :=
        ((exists_requests_iff followsRules_read).mp ⟨items, requests, rfl⟩).1
      have same := Reading.invocation.inj (taken.symm.trans asked)
      rw [same] at delivers
      exact ⟨items, text, same, requests, delivers⟩
  · exact (run_delivers_whole_text_or_nothing read followsRules_read _ _ _ _
      (respond_read sampleTree none ["a.json", "b", "-o", "a.json"])).1 fails

/-- A run for a file can still print its text, as the path of the file can lead to the standard
output. -/
theorem run_prints_with_output_path_sampleTree :
    read ["a.json", "-o", "/proc/self/fd/1"] =
        .invocation { inputs := ["a.json"], output := some "/proc/self/fd/1" } ∧
      (run sampleTree none ["a.json", "-o", "/proc/self/fd/1"]).2.exitCode = 0 ∧
      (run sampleTree none ["a.json", "-o", "/proc/self/fd/1"]).2.standardOutput ≠ "" := by
  decide +kernel

end CommandLine

end IdlBindings
