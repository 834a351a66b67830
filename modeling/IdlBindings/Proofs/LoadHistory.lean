import IdlBindings.Catalog
import IdlBindings.FileTree
import Mathlib.Data.List.Nodup

/-
This file follows a catalog through a run, over a disk that may change between any two requests.
Documents come in whole and in order, a place gives at most one, and a place that was attempted is
never attempted again.
-/

namespace IdlBindings.Catalog

/-- What happens in a run: a request to the catalog, or a change of the disk. -/
inductive Action where
  | locate (token : String)
  | load (token : String)
  | loadFile (path : String)
  | change (disk : Disk)

/-- The action asks for a document. -/
def Action.IsLoad : Action → Prop
  | load _ | loadFile _ => True
  | locate _ | change _ => False

/-- A catalog and the disk it looks at. -/
structure Session where
  disk : Disk
  catalog : Catalog

/-- A session in which nothing was asked yet. -/
def Session.fresh (disk : Disk) (searchPath : List String) : Session where
  disk := disk
  catalog := { searchPath }

/-- A session together with what happens in it next. -/
structure Moment extends Session where
  action : Action

/-- A document that came in, with the place it was found at. -/
structure Contribution where
  location : Location
  document : Model.Document

/-- The libraries of the document that came in. -/
def Contribution.libraries (contribution : Contribution) : List Model.Library :=
  contribution.document.libraries

namespace Moment

/-- What a moment does to the catalog. -/
def step (moment : Moment) : Step :=
  match moment.action with
  | .locate token =>
      { catalog := moment.catalog
        fault? := match moment.catalog.locate moment.disk token with
          | .ok _ => none
          | .error fault => some fault
        events := moment.catalog.locateEvents moment.disk token }
  | .load token => moment.catalog.load moment.disk token
  | .loadFile path => moment.catalog.loadFile moment.disk path
  | .change _ => { catalog := moment.catalog }

/-- The session after a moment. -/
def next (moment : Moment) : Session where
  disk := match moment.action with
    | .change disk => disk
    | _ => moment.disk
  catalog := moment.step.catalog

/-- The path of the document that is asked for. -/
def path? (moment : Moment) : Option String :=
  match moment.action with
  | .load token => (moment.catalog.locate moment.disk token).toOption
  | .loadFile path => some path
  | .locate _ | .change _ => none

/-- The place of the document that is asked for. -/
def Reaches (moment : Moment) (location : Location) : Prop :=
  ∃ path, moment.path? = some path ∧ moment.disk.location path = .ok location

/-- The document that is asked for can be read: its bytes are a text, and the parser for the
extension of its path makes the document of it. -/
def Reads (moment : Moment) (document : Model.Document) : Prop :=
  ∃ path content text, moment.path? = some path ∧ moment.disk.read path = .ok content ∧
    String.fromUTF8? content = some text ∧
    if Document.isJson path then moment.disk.parsers.json text = some document
    else moment.disk.parsers.yaml text = .ok document

/-- The document that comes in: one that can be read, from a place that was not attempted before. -/
def contribution? (moment : Moment) : Option Contribution := do
  let path ← moment.path?
  let location ← (moment.disk.location path).toOption
  let document ← (readDocument moment.disk path).toOption
  if moment.catalog.attempted.contains location then none else some ⟨location, document⟩

end Moment

namespace Session

/-- The moments of a run. -/
def history (session : Session) : List Action → List Moment
  | [] => []
  | action :: rest =>
      let moment : Moment := ⟨session, action⟩
      moment :: history moment.next rest

/-- The session at the end of a run. -/
def run (session : Session) : List Action → Session
  | [] => session
  | action :: rest => run (Moment.next ⟨session, action⟩) rest

/-- What came in during a run, in order. -/
def contributions (session : Session) (actions : List Action) : List Contribution :=
  (session.history actions).filterMap Moment.contribution?

end Session

/-- The extension of the path decides which parser makes the document. -/
theorem parse_eq_ok_iff {parsers : Document.Parsers} {path text : String}
    {document : Model.Document} :
    Document.parse parsers path text = .ok document ↔
      if Document.isJson path then parsers.json text = some document
      else parsers.yaml text = .ok document := by
  unfold Document.parse
  split
  · cases parsers.json text <;> simp
  · cases parsers.yaml text with
    | ok _ => simp
    | error fault => cases fault <;> simp

/-- A document is read if its bytes are a text of which the parser makes the document. -/
theorem readDocument_eq_ok_iff {disk : Disk} {path : String} {document : Model.Document} :
    readDocument disk path = .ok document ↔
      ∃ content text, disk.read path = .ok content ∧ String.fromUTF8? content = some text ∧
        if Document.isJson path then disk.parsers.json text = some document
        else disk.parsers.yaml text = .ok document := by
  unfold readDocument Disk.readText
  simp only [← parse_eq_ok_iff]
  cases readable : disk.read path with
  | error cause => simp
  | ok content => cases decoded : String.fromUTF8? content <;> simp [decoded]

namespace Moment

variable {moment : Moment} {location : Location} {path : String}

/-- The ways in which a moment can go, each with all it does to the catalog. -/
inductive Course (moment : Moment) : Prop
  | idle (nothing : moment.path? = none) (same : moment.step.catalog = moment.catalog)
      (refused : moment.action.IsLoad → moment.step.fault? ≠ none)
  | unreachable (path : String) (asked : moment.path? = some path) (cause : DiskFault)
      (lost : moment.disk.location path = .error cause)
      (same : moment.step.catalog = moment.catalog)
      (faulty : moment.step.fault? = some (.unreadable path cause))
  | repeated (path : String) (asked : moment.path? = some path) (location : Location)
      (found : moment.disk.location path = .ok location)
      (known : location ∈ moment.catalog.attempted)
      (same : moment.step.catalog = moment.catalog) (fine : moment.step.fault? = none)
  | failed (path : String) (asked : moment.path? = some path) (location : Location)
      (found : moment.disk.location path = .ok location)
      (unknown : location ∉ moment.catalog.attempted) (fault : LoadFault)
      (unread : readDocument moment.disk path = .error fault)
      (marked : moment.step.catalog =
        { moment.catalog with attempted := location :: moment.catalog.attempted })
      (faulty : moment.step.fault? = some fault)
  | loaded (path : String) (asked : moment.path? = some path) (location : Location)
      (found : moment.disk.location path = .ok location)
      (unknown : location ∉ moment.catalog.attempted) (document : Model.Document)
      (readable : readDocument moment.disk path = .ok document)
      (grown : moment.step.catalog =
        { moment.catalog with
          attempted := location :: moment.catalog.attempted
          libraries := moment.catalog.libraries ++ document.libraries })
      (fine : moment.step.fault? = none)

/-- Whichever way a path was asked for, it is attempted. -/
theorem step_of_path? (asked : moment.path? = some path) :
    moment.step.catalog = (moment.catalog.attempt moment.disk path).catalog moment.catalog ∧
      moment.step.fault? = (moment.catalog.attempt moment.disk path).fault? path := by
  obtain ⟨session, action⟩ := moment
  cases action with
  | locate _ => cases asked
  | change _ => cases asked
  | loadFile _ =>
      cases asked
      exact ⟨rfl, rfl⟩
  | load token =>
      cases located : session.catalog.locate session.disk token with
      | error fault => simp [path?, located, Except.toOption] at asked
      | ok other =>
          obtain rfl : other = path := by simpa [path?, located, Except.toOption] using asked
          simp [step, load, loadFile, located]

/-- A moment that asks for a path goes one of the ways. -/
theorem course_of_path? (asked : moment.path? = some path) : moment.Course := by
  obtain ⟨after, outcome⟩ := step_of_path? asked
  unfold attempt at after outcome
  cases found : moment.disk.location path with
  | error cause =>
      rw [found] at after outcome
      exact .unreachable path asked cause found after outcome
  | ok location =>
      rw [found] at after outcome
      by_cases known : location ∈ moment.catalog.attempted
      · simp only [if_pos known] at after outcome
        exact .repeated path asked location found known after outcome
      · simp only [if_neg known] at after outcome
        cases result : readDocument moment.disk path with
        | error fault =>
            rw [result] at after outcome
            exact .failed path asked location found known fault result after outcome
        | ok document =>
            rw [result] at after outcome
            exact .loaded path asked location found known document result after outcome

/-- Everything that can happen at a moment. -/
theorem course (moment : Moment) : moment.Course := by
  cases asked : moment.path? with
  | some path => exact course_of_path? asked
  | none =>
      obtain ⟨session, action⟩ := moment
      cases action with
      | locate _ => exact .idle asked rfl nofun
      | change _ => exact .idle asked rfl nofun
      | loadFile _ => cases asked
      | load token =>
          cases located : session.catalog.locate session.disk token with
          | ok path => simp [path?, located, Except.toOption] at asked
          | error fault =>
              have same : Moment.step ⟨session, .load token⟩ =
                  { catalog := session.catalog, fault? := some fault } := by
                simp [step, load, located]
              exact .idle asked (by rw [same]) (by simp [same])

/-- A moment reaches the location of the path that it asks for. -/
theorem reaches_iff (asked : moment.path? = some path) :
    moment.Reaches location ↔ moment.disk.location path = .ok location := by
  simp [Reaches, asked]

/-- A moment reads the document under the path that it asks for. -/
theorem reads_iff {document : Model.Document} (asked : moment.path? = some path) :
    moment.Reads document ↔ readDocument moment.disk path = .ok document := by
  simp [Reads, asked, readDocument_eq_ok_iff]

theorem not_reaches_of_idle (nothing : moment.path? = none) : ¬ moment.Reaches location := by
  simp [Reaches, nothing]

/-- A place counts as attempted from the first moment that reaches it. -/
theorem mem_attempted_step (moment : Moment) (location : Location) :
    location ∈ moment.step.catalog.attempted ↔
      location ∈ moment.catalog.attempted ∨ moment.Reaches location := by
  cases moment.course with
  | idle nothing same _ => simp [same, not_reaches_of_idle nothing]
  | unreachable path asked cause lost same _ => simp [same, reaches_iff asked, lost]
  | repeated path asked other found known same _ =>
      rw [same, reaches_iff asked, found, Except.ok.injEq]
      constructor
      · exact .inl
      · rintro (before | rfl)
        · exact before
        · exact known
  | failed path asked other found _ _ _ marked _ =>
      simp [marked, reaches_iff asked, found, eq_comm, or_comm]
  | loaded path asked other found _ _ _ grown _ =>
      simp [grown, reaches_iff asked, found, eq_comm, or_comm]

/-- A document comes in exactly if it can be read and its place is new. -/
theorem contribution?_eq_some_iff {document : Model.Document} :
    moment.contribution? = some ⟨location, document⟩ ↔
      moment.Reaches location ∧ moment.Reads document ∧ location ∉ moment.catalog.attempted := by
  cases asked : moment.path? with
  | none => simp [contribution?, Reaches, asked]
  | some path =>
      cases found : moment.disk.location path with
      | error cause => simp [contribution?, Reaches, asked, found, Except.toOption]
      | ok other =>
          cases result : readDocument moment.disk path with
          | error fault => simp [contribution?, reads_iff asked, asked, found, result, Except.toOption]
          | ok readable =>
              have takes : moment.contribution? =
                  if other ∈ moment.catalog.attempted then none else some ⟨other, readable⟩ := by
                simp [contribution?, asked, found, result, Except.toOption]
              rw [takes, reaches_iff asked, found]
              have reads : moment.Reads document ↔ readable = document := by
                rw [reads_iff asked, result, Except.ok.injEq]
              rw [reads]
              constructor
              · intro came
                split at came
                case isTrue => cases came
                case isFalse unknown =>
                  cases came
                  exact ⟨rfl, rfl, unknown⟩
              · rintro ⟨same, rfl, unknown⟩
                cases same
                exact if_neg unknown

/-- The catalog grows by what comes in, at its end. -/
theorem libraries_step (moment : Moment) :
    moment.step.catalog.libraries =
      moment.catalog.libraries ++ moment.contribution?.toList.flatMap Contribution.libraries := by
  cases moment.course with
  | idle nothing same _ => simp [same, contribution?, nothing]
  | unreachable path asked cause lost same _ =>
      simp [same, contribution?, asked, lost, Except.toOption]
  | repeated path asked location found known same _ =>
      have nothing : moment.contribution? = none := by
        simp [contribution?, asked, found, known, Except.toOption]
      simp [same, nothing]
  | failed path asked location found _ fault unread marked _ =>
      simp [marked, contribution?, asked, found, unread, Except.toOption]
  | loaded path asked location found unknown document readable grown _ =>
      simp [grown, contribution?, asked, found, unknown, readable, Except.toOption,
        Contribution.libraries]

/-- A fault adds no library. -/
theorem libraries_of_fault (faulty : moment.step.fault? ≠ none) :
    moment.step.catalog.libraries = moment.catalog.libraries := by
  cases moment.course with
  | idle _ same _ => rw [same]
  | unreachable _ _ _ _ same _ => rw [same]
  | repeated _ _ _ _ _ same _ => rw [same]
  | failed _ _ _ _ _ _ _ marked _ => rw [marked]
  | loaded _ _ _ _ _ _ _ _ fine => exact absurd fine faulty

/-- Where a place was attempted before, a moment goes by without effect. -/
theorem repeated_of_mem (reaches : moment.Reaches location)
    (known : location ∈ moment.catalog.attempted) :
    moment.next = moment.toSession ∧ moment.step.fault? = none := by
  obtain ⟨path, asked, found⟩ := reaches
  have outcome : moment.catalog.attempt moment.disk path = .repeated := by
    simp [attempt, found, known]
  obtain ⟨sameCatalog, fine⟩ := step_of_path? asked
  rw [outcome] at sameCatalog fine
  refine ⟨?_, fine⟩
  obtain ⟨⟨disk, catalog⟩, action⟩ := moment
  cases action with
  | change _ => cases asked
  | _ => exact congrArg (Session.mk disk) sameCatalog

end Moment

namespace Session

variable {session : Session} {actions : List Action} {moment : Moment} {earlier later : List Moment}
  {location : Location}

/-- What comes in during a run comes in at its first moment or later. -/
theorem contributions_cons (session : Session) (action : Action) (rest : List Action) :
    session.contributions (action :: rest) =
      (Moment.contribution? ⟨session, action⟩).toList ++
        (Moment.next ⟨session, action⟩).contributions rest := by
  rw [contributions, history, List.filterMap_cons]
  cases Moment.contribution? ⟨session, action⟩ <;> rfl

/-- A moment of a run comes after the run up to it. -/
theorem exists_run_of_split (split : session.history actions = earlier ++ moment :: later) :
    ∃ before, earlier = session.history before ∧ moment.toSession = session.run before := by
  induction actions generalizing session earlier with
  | nil => simp [history] at split
  | cons action rest ih =>
      cases earlier with
      | nil =>
          obtain ⟨rfl, _⟩ := List.cons.inj split
          exact ⟨[], rfl, rfl⟩
      | cons first between =>
          obtain ⟨rfl, restSplit⟩ := List.cons.inj split
          obtain ⟨before, sameEarlier, sameSession⟩ := ih restSplit
          refine ⟨action :: before, ?_, sameSession⟩
          rw [sameEarlier]
          rfl

/-- The places attempted after a run are those from before and those that it reached. -/
theorem mem_attempted_run (session : Session) (actions : List Action) (location : Location) :
    location ∈ (session.run actions).catalog.attempted ↔
      location ∈ session.catalog.attempted ∨
        ∃ moment ∈ session.history actions, moment.Reaches location := by
  induction actions generalizing session with
  | nil => simp [run, history]
  | cons action rest ih =>
      have step := Moment.mem_attempted_step ⟨session, action⟩ location
      rw [run, ih, history, List.exists_mem_cons_iff, ← or_assoc]
      exact or_congr_left step

/-- A run appends what comes in during it. -/
theorem libraries_run (session : Session) (actions : List Action) :
    (session.run actions).catalog.libraries =
      session.catalog.libraries ++
        (session.contributions actions).flatMap Contribution.libraries := by
  induction actions generalizing session with
  | nil => simp [run, contributions, history]
  | cons action rest ih =>
      have step := Moment.libraries_step ⟨session, action⟩
      rw [run, ih, contributions_cons, List.flatMap_append, ← List.append_assoc]
      exact congrArg (· ++ _) step

/-- What comes in during a run comes from different places, none of which was attempted before. -/
theorem nodup_contributions (session : Session) (actions : List Action) :
    ((session.contributions actions).map Contribution.location).Nodup ∧
      ∀ contribution ∈ session.contributions actions,
        contribution.location ∉ session.catalog.attempted := by
  induction actions generalizing session with
  | nil => simp [contributions, history]
  | cons action rest ih =>
      have step := Moment.mem_attempted_step ⟨session, action⟩
      obtain ⟨distinct, unknown⟩ := ih (Moment.next ⟨session, action⟩)
      have kept : ∀ contribution ∈ (Moment.next ⟨session, action⟩).contributions rest,
          contribution.location ∉ session.catalog.attempted := fun contribution later before =>
        unknown contribution later ((step _).mpr (.inl before))
      rw [contributions_cons]
      cases came : Moment.contribution? ⟨session, action⟩ with
      | none => exact ⟨distinct, kept⟩
      | some contribution =>
          obtain ⟨reaches, _, first⟩ := Moment.contribution?_eq_some_iff.mp came
          refine ⟨List.nodup_cons.mpr ⟨?_, distinct⟩, List.forall_mem_cons.mpr ⟨first, kept⟩⟩
          intro again
          obtain ⟨other, later, same⟩ := List.mem_map.mp again
          exact unknown other later (same ▸ (step _).mpr (.inr reaches))

end Session

/-- What a moment does, told by the moments before it. -/
structure Moment.Follows (moment : Moment) (earlier : List Moment) : Prop where
  contributes : ∀ location document, moment.contribution? = some ⟨location, document⟩ ↔
    moment.Reaches location ∧ moment.Reads document ∧
      ∀ previous ∈ earlier, ¬ previous.Reaches location
  appends : moment.next.catalog.libraries =
    moment.catalog.libraries ++ moment.contribution?.toList.flatMap Contribution.libraries
  faulty : moment.step.fault? ≠ none → moment.next.catalog.libraries = moment.catalog.libraries
  repeated : ∀ location, moment.Reaches location →
    (∃ previous ∈ earlier, previous.Reaches location) →
      moment.next = moment.toSession ∧ moment.step.fault? = none

namespace Session

variable {actions : List Action} {moment : Moment} {earlier later : List Moment}
  {location : Location} {disk : Disk} {searchPath : List String}

/-- In a run from the start, the places attempted before a moment are those reached earlier. -/
theorem mem_attempted_of_split
    (split : (fresh disk searchPath).history actions = earlier ++ moment :: later) :
    location ∈ moment.catalog.attempted ↔ ∃ previous ∈ earlier, previous.Reaches location := by
  obtain ⟨before, rfl, sameSession⟩ := exists_run_of_split split
  rw [sameSession, mem_attempted_run]
  simp [fresh]

/-- Every moment of a run from the start follows from the moments before it. -/
theorem follows_of_split
    (split : (fresh disk searchPath).history actions = earlier ++ moment :: later) :
    moment.Follows earlier where
  contributes location document := by
    rw [Moment.contribution?_eq_some_iff, mem_attempted_of_split split]
    simp
  appends := moment.libraries_step
  faulty := Moment.libraries_of_fault
  repeated _ reaches again :=
    Moment.repeated_of_mem reaches ((mem_attempted_of_split split).mpr again)

end Session

/-- A run appends the documents that come in, whole and in order, at most one for each place. At
every moment the document that comes in is the one asked for, if its place was not reached before
and it can be read; a fault appends nothing, and a place reached before changes nothing. -/
theorem run_appends_each_document_once (disk : Disk) (searchPath : List String)
    (actions : List Action) :
    ((Session.fresh disk searchPath).run actions).catalog.libraries =
        ((Session.fresh disk searchPath).contributions actions).flatMap Contribution.libraries ∧
      (((Session.fresh disk searchPath).contributions actions).map Contribution.location).Nodup ∧
      ∀ earlier moment later,
        (Session.fresh disk searchPath).history actions = earlier ++ moment :: later →
          moment.Follows earlier := by
  refine ⟨?_, (Session.nodup_contributions _ actions).1, fun _ _ _ => Session.follows_of_split⟩
  rw [Session.libraries_run]
  rfl

/-- A tree with a document of one library, and the tree after another library was written in its
place. -/
def sampleTree : FileTree :=
  FileTree.empty.place "a.json" (.file "[[[\"A\",\"00000000000000000000000000000000\"]]]".toUTF8)

/-- The tree after another library was written in the place of the first. -/
def rewrittenTree : FileTree :=
  sampleTree.place "a.json" (.file "[[[\"B\",\"00000000000000000000000000000000\"]]]".toUTF8)

/-- The first library stays, and the other one is never loaded. -/
theorem run_appends_each_document_once_sampleTree :
    ∃ first change second,
      (Session.fresh sampleTree.disk []).history
          [.load "a.json", .change rewrittenTree.disk, .loadFile "./a.json"] =
        [first, change] ++ second :: [] ∧
      first.Reaches ["work", "a.json"] ∧ second.Reaches ["work", "a.json"] ∧
      second.next = second.toSession ∧ second.step.fault? = none ∧
      second.next.catalog.libraries.map Model.Library.name = ["A"] := by
  obtain ⟨_, _, each⟩ := run_appends_each_document_once sampleTree.disk []
    [.load "a.json", .change rewrittenTree.disk, .loadFile "./a.json"]
  have follows := each [_, _] _ [] rfl
  have first : Moment.Reaches ⟨Session.fresh sampleTree.disk [], .load "a.json"⟩
      ["work", "a.json"] := ⟨"a.json", rfl, rfl⟩
  obtain ⟨unchanged, fine⟩ :=
    follows.repeated ["work", "a.json"] ⟨"./a.json", rfl, rfl⟩ ⟨_, List.mem_cons_self, first⟩
  refine ⟨_, _, _, rfl, first, ⟨"./a.json", rfl, rfl⟩, unchanged, fine, ?_⟩
  rw [unchanged]
  decide +kernel

end IdlBindings.Catalog
