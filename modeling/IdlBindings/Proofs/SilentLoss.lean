import IdlBindings.Proofs.LoadHistory

/-
This file says what it is worth to be told that loading went well. The first attempt on a place
decides: if it went well, the document stays, and if it failed, every later request for the place
goes well without a document.
-/

namespace IdlBindings.Catalog

namespace Moment

/-- The place is reached, but the request ends with a fault. -/
def Fails (moment : Moment) (location : Location) : Prop :=
  moment.Reaches location ∧ moment.step.fault? ≠ none

/-- A document of the place came in by the end of the moment, and its libraries are there. -/
def Keeps (moment : Moment) (earlier : List Moment) (location : Location) : Prop :=
  ∃ source ∈ earlier ++ [moment], ∃ document,
    source.contribution? = some ⟨location, document⟩ ∧
      document.libraries <:+: moment.next.catalog.libraries

variable {moment : Moment} {location : Location}

/-- A request without a fault reaches a place. -/
theorem exists_reaches_of_fine (loads : moment.action.IsLoad) (fine : moment.step.fault? = none) :
    ∃ location, moment.Reaches location := by
  cases moment.course with
  | idle _ _ refused => exact absurd fine (refused loads)
  | unreachable _ _ _ _ _ faulty =>
      rw [faulty] at fine
      cases fine
  | repeated path asked location found _ _ _ => exact ⟨location, path, asked, found⟩
  | failed path asked location found _ _ _ _ _ => exact ⟨location, path, asked, found⟩
  | loaded path asked location found _ _ _ _ _ => exact ⟨location, path, asked, found⟩

/-- The first attempt on a place brings a document exactly if it goes well. -/
theorem exists_contribution?_iff (reaches : moment.Reaches location)
    (unknown : location ∉ moment.catalog.attempted) :
    (∃ document, moment.contribution? = some ⟨location, document⟩) ↔
      moment.step.fault? = none := by
  have brings : (∃ document, moment.contribution? = some ⟨location, document⟩) ↔
      ∃ document, moment.Reads document := by
    simp [contribution?_eq_some_iff, reaches, unknown]
  rw [brings]
  cases moment.course with
  | idle nothing _ _ => exact absurd reaches (not_reaches_of_idle nothing)
  | unreachable _ asked _ lost _ _ =>
      rw [reaches_iff asked, lost] at reaches
      cases reaches
  | repeated _ asked _ found known _ _ =>
      rw [reaches_iff asked, found] at reaches
      cases reaches
      exact absurd known unknown
  | failed path asked _ _ _ fault unread _ faulty => simp [reads_iff asked, unread, faulty]
  | loaded path asked _ _ _ document readable _ fine => simp [reads_iff asked, readable, fine]

/-- A place that fails was not attempted before. -/
theorem Fails.unknown (fails : moment.Fails location) : location ∉ moment.catalog.attempted :=
  fun known => fails.2 (repeated_of_mem fails.1 known).2

end Moment

namespace Session

variable {disk : Disk} {searchPath : List String} {actions : List Action}
  {earlier later : List Moment} {moment : Moment} {location : Location}

/-- At most one moment of a run is the first to reach a place. -/
theorem eq_of_unknown {first second : Moment}
    (ofFirst : first ∈ (fresh disk searchPath).history actions)
    (ofSecond : second ∈ (fresh disk searchPath).history actions)
    (firstReaches : first.Reaches location) (secondReaches : second.Reaches location)
    (firstUnknown : location ∉ first.catalog.attempted)
    (secondUnknown : location ∉ second.catalog.attempted) : first = second := by
  obtain ⟨before, after, split⟩ := List.append_of_mem ofFirst
  rw [split, List.mem_append, List.mem_cons] at ofSecond
  rcases ofSecond with sooner | same | afterwards
  · exact absurd ((mem_attempted_of_split split).mpr ⟨second, sooner, secondReaches⟩) firstUnknown
  · exact same.symm
  · obtain ⟨between, rest, rfl⟩ := List.append_of_mem afterwards
    have secondSplit : (fresh disk searchPath).history actions =
        (before ++ first :: between) ++ second :: rest := by
      rw [split, List.append_assoc, List.cons_append]
    have known := (mem_attempted_of_split secondSplit).mpr
      ⟨first, List.mem_append_right before List.mem_cons_self, firstReaches⟩
    exact absurd known secondUnknown

/-- A place that was attempted was attempted for a first time. -/
theorem exists_first_of_known
    (split : (fresh disk searchPath).history actions = earlier ++ moment :: later)
    (known : location ∈ moment.catalog.attempted) :
    ∃ source ∈ earlier, source.Reaches location ∧ location ∉ source.catalog.attempted := by
  classical
  obtain ⟨previous, member, reaches⟩ := (mem_attempted_of_split split).mp known
  have found : (earlier.find? fun other => other.Reaches location).isSome := by
    rw [List.find?_isSome]
    exact ⟨previous, member, by simpa using reaches⟩
  obtain ⟨source, first⟩ := Option.isSome_iff_exists.mp found
  obtain ⟨sourceReaches, before, after, rfl, none⟩ := List.find?_eq_some_iff_append.mp first
  have sourceSplit : (fresh disk searchPath).history actions =
      before ++ source :: (after ++ moment :: later) := by
    rw [split, List.append_assoc, List.cons_append]
  refine ⟨source, by simp, by simpa using sourceReaches, ?_⟩
  rw [mem_attempted_of_split sourceSplit]
  rintro ⟨other, sooner, otherReaches⟩
  simpa [otherReaches] using none other sooner

/-- What came in before a moment is there at the moment. -/
theorem libraries_infix_of_mem
    (split : (fresh disk searchPath).history actions = earlier ++ moment :: later)
    {source : Moment} (member : source ∈ earlier) {contribution : Contribution}
    (came : source.contribution? = some contribution) :
    contribution.libraries <:+: moment.catalog.libraries := by
  obtain ⟨before, rfl, sameSession⟩ := exists_run_of_split split
  have collected : contribution ∈ (fresh disk searchPath).contributions before :=
    List.mem_filterMap.mpr ⟨source, member, came⟩
  rw [sameSession, libraries_run, List.flatMap_def]
  exact List.infix_of_mem_flatten (List.mem_map_of_mem collected)

/-- After a request that went well the document is there exactly if no request for its place
failed before. -/
theorem keeps_iff
    (split : (fresh disk searchPath).history actions = earlier ++ moment :: later)
    (reaches : moment.Reaches location) (fine : moment.step.fault? = none) :
    moment.Keeps earlier location ↔ ∀ previous ∈ earlier, ¬ previous.Fails location := by
  constructor
  · rintro ⟨source, member, document, came, _⟩ previous sooner fails
    obtain ⟨sourceReaches, _, unknown⟩ := Moment.contribution?_eq_some_iff.mp came
    have ofSource : source ∈ (fresh disk searchPath).history actions := by
      rw [split, List.append_cons]
      exact List.mem_append_left _ member
    have ofPrevious : previous ∈ (fresh disk searchPath).history actions := by
      rw [split]
      exact List.mem_append_left _ sooner
    obtain rfl := eq_of_unknown ofSource ofPrevious sourceReaches fails.1 unknown fails.unknown
    exact fails.2 ((Moment.exists_contribution?_iff sourceReaches unknown).mp ⟨document, came⟩)
  · intro neverFailed
    by_cases known : location ∈ moment.catalog.attempted
    · obtain ⟨source, member, sourceReaches, unknown⟩ := exists_first_of_known split known
      have sourceFine : source.step.fault? = none := by
        by_contra faulty
        exact neverFailed source member ⟨sourceReaches, faulty⟩
      obtain ⟨document, came⟩ :=
        (Moment.exists_contribution?_iff sourceReaches unknown).mpr sourceFine
      refine ⟨source, List.mem_append_left _ member, document, came, ?_⟩
      rw [(Moment.repeated_of_mem reaches known).1]
      exact libraries_infix_of_mem split member came
    · obtain ⟨document, came⟩ := (Moment.exists_contribution?_iff reaches known).mpr fine
      refine ⟨moment, List.mem_append_right _ List.mem_cons_self, document, came, ?_⟩
      have grown : moment.next.catalog.libraries =
          moment.catalog.libraries ++ document.libraries := by
        have step : moment.next.catalog.libraries = _ := moment.libraries_step
        rw [came] at step
        simpa [Contribution.libraries] using step
      rw [grown]
      exact (List.suffix_append _ _).isInfix

/-- Every request that goes well leaves a document of its place in the catalog. -/
def LosesNothing (session : Session) (actions : List Action) : Prop :=
  ∀ earlier moment later, session.history actions = earlier ++ moment :: later →
    moment.action.IsLoad → moment.step.fault? = none →
      ∃ location, moment.Reaches location ∧ moment.Keeps earlier location

end Session

/-- A request that goes well reaches a place. A document of the place is in the catalog then, unless
an earlier request for the place failed: then no request brings one, and none is told. -/
theorem loaded_document_kept_iff_no_earlier_failure {disk : Disk} {searchPath : List String}
    {actions : List Action} {earlier later : List Moment} {moment : Moment}
    (split : (Session.fresh disk searchPath).history actions = earlier ++ moment :: later)
    (loads : moment.action.IsLoad) (fine : moment.step.fault? = none) :
    ∃ location, moment.Reaches location ∧
      (moment.Keeps earlier location ↔ ∀ previous ∈ earlier, ¬ previous.Fails location) := by
  obtain ⟨location, reaches⟩ := Moment.exists_reaches_of_fine loads fine
  exact ⟨location, reaches, Session.keeps_iff split reaches fine⟩

/-- A tree with a document that cannot be parsed. -/
def brokenTree : FileTree := FileTree.empty.place "bad.json" (.file "\x7b".toUTF8)

/-- The document is asked for, and then asked for again. -/
def firstRequest : Moment := ⟨Session.fresh brokenTree.disk [], .loadFile "bad.json"⟩

/-- The same request once more. -/
def secondRequest : Moment := ⟨firstRequest.next, .loadFile "bad.json"⟩

theorem history_brokenTree :
    (Session.fresh brokenTree.disk []).history [.loadFile "bad.json", .loadFile "bad.json"] =
      [firstRequest] ++ secondRequest :: [] := rfl

theorem fault?_firstRequest : firstRequest.step.fault? = some (.unparsable "bad.json") := by
  decide +kernel

theorem fault?_secondRequest : secondRequest.step.fault? = none := by
  decide +kernel

/-- The second request is fine, and no document is kept for it. -/
theorem loaded_document_kept_iff_no_earlier_failure_brokenTree :
    (Session.fresh brokenTree.disk []).history [.loadFile "bad.json", .loadFile "bad.json"] =
        [firstRequest] ++ secondRequest :: [] ∧
      secondRequest.action.IsLoad ∧ secondRequest.step.fault? = none ∧
      ∃ location, secondRequest.Reaches location ∧
        (secondRequest.Keeps [firstRequest] location ↔
          ∀ previous ∈ [firstRequest], ¬ previous.Fails location) :=
  ⟨history_brokenTree, trivial, fault?_secondRequest,
    loaded_document_kept_iff_no_earlier_failure history_brokenTree trivial fault?_secondRequest⟩

/-- The second request goes well, although no document was ever read. -/
theorem document_lost_brokenTree :
    ¬ (Session.fresh brokenTree.disk []).LosesNothing
      [.loadFile "bad.json", .loadFile "bad.json"] := by
  intro losesNothing
  obtain ⟨location, reaches, keeps⟩ := losesNothing [firstRequest] secondRequest []
    history_brokenTree trivial fault?_secondRequest
  have neverFailed :=
    (Session.keeps_iff history_brokenTree reaches fault?_secondRequest).mp keeps
  -- Both requests are for one path on one disk, so that they reach the same place.
  have firstReaches : firstRequest.Reaches location := reaches
  apply neverFailed firstRequest List.mem_cons_self
  refine ⟨firstReaches, ?_⟩
  rw [fault?_firstRequest]
  exact nofun

end IdlBindings.Catalog
