import TreeDump.Proofs.Run.Independence

/-!
# Dry runs

A dry run goes as far as the language of each file and tells of the files that would be parsed.  Up to
there it does not differ from the run that it is a rehearsal of, so both come across the same files and
leave out the same ones; and what it has not done by then, it does not do.

* `Processor.attempt`: what comes of a file whose language is known, once it is to be parsed.
* `Engine.Fate`: what becomes of a file in either run.
* `Engine.Foretells`: what the outcome in the dry run says of the one in the other run.
* `Engine.Runs.pool_eq`: dry runs do not touch the parsers.
* `Engine.dryRun_foretells`: a dry run and the run that it is a rehearsal of.
-/

namespace TreeDump

/-! ## One file -/

namespace Processor

/-- The processor with dry runs turned on or off. -/
def withDryRun (p : Processor) (dryRun : Bool) : Processor :=
  { p with options := { p.options with dryRun } }

/-- What comes of a file whose language is known, once it is to be parsed. -/
def attempt (p : Processor) (fs : FileSystem) (path : String) (binding : Binding) : Outcome :=
  match p.source fs path with
  | .error raised => .failed path (raised.asError path)
  | .ok bytes => p.parsedOutcome path binding bytes (p.grammars.parsed binding.languageId bytes)

/-- An attempt comes to a record in the language of the file, or it fails. -/
theorem attempt_cases (p : Processor) (fs : FileSystem) (path : String) (binding : Binding) :
    (∃ rendered doc,
      p.attempt fs path binding = .success path binding.name rendered (some doc) false) ∨
    ∃ error, p.attempt fs path binding = .failed path error := by
  rw [attempt]
  cases p.source fs path with
  | error raised => exact Or.inr ⟨_, rfl⟩
  | ok bytes =>
    dsimp only
    cases p.grammars.parsed binding.languageId bytes with
    | error raised => exact Or.inr ⟨_, rfl⟩
    | ok tree =>
      cases tree with
      | none => exact Or.inr ⟨_, rfl⟩
      | some tree => exact Or.inl ⟨_, _, rfl⟩

variable {p : Processor} {fs : FileSystem} {path : String} {binding : Binding}

theorem outcome_of_unknown (hClass : p.registry.classify path = none) (dryRun : Bool) :
    outcomeOf p.grammars ((p.withDryRun dryRun).work fs) path = p.unsupported path := by
  have hWork : (p.withDryRun dryRun).work fs path = .finish (.ok (p.unsupported path)) := by
    rw [work, withDryRun, hClass]
    rfl
  rw [outcomeOf, hWork]
  rfl

theorem outcome_of_dry (hClass : p.registry.classify path = some binding) :
    outcomeOf p.grammars ((p.withDryRun true).work fs) path
      = .success path binding.name (notice path binding) none true := by
  rw [outcomeOf, work, withDryRun, hClass]
  rfl

theorem outcome_of_real (hClass : p.registry.classify path = some binding) :
    outcomeOf p.grammars ((p.withDryRun false).work fs) path = p.attempt fs path binding := by
  rw [outcomeOf, work, withDryRun, hClass, attempt, source]
  simp only [Bool.false_eq_true, if_false]
  cases readSource fs (Path.ofString path).text p.options.maxBytes <;> rfl

/-- In a dry run, no work needs a parser. -/
theorem exists_finish_of_dry (hDry : p.options.dryRun = true) (fs : FileSystem) (path : String) :
    ∃ result, p.work fs path = .finish result := by
  rw [work]
  cases p.registry.classify path with
  | none => exact ⟨_, rfl⟩
  | some binding => exact ⟨_, if_pos hDry⟩

end Processor

/-! ## The parsers in a dry run -/

namespace Dispatch

variable {d : Dispatch} {state next : State}

/-- That no worker needs a parser any more. -/
def State.Parserless (state : State) : Prop :=
  ∀ job ∈ state.running, ∃ result, job.stage = .working (.finish result)

/-- As long as no work needs a parser, no step touches the pool. -/
theorem Step.pool_eq (hWork : ∀ path, ∃ result, d.work path = .finish result)
    (hState : state.Parserless) (hStep : d.Step state next) :
    next.Parserless ∧ next.session.pool = state.session.pool := by
  cases hStep with
  | @start path rest hQueue hFree =>
    refine ⟨?_, rfl⟩
    intro job hJob
    rcases List.mem_append.mp hJob with hOld | hNew
    · exact hState job hOld
    · obtain rfl := List.mem_singleton.mp hNew
      obtain ⟨result, hResult⟩ := hWork path
      exact ⟨result, by rw [hResult]⟩
  | @work before after job stage pool hRunning hStep =>
    have hJob : job ∈ state.running := by simp [hRunning]
    obtain ⟨result, hResult⟩ := hState job hJob
    rw [hResult] at hStep
    cases hStep
  | @finish before after path result hRunning =>
    refine ⟨?_, rfl⟩
    intro job hJob
    refine hState job ?_
    rw [hRunning]
    rcases List.mem_append.mp hJob with hBefore | hAfter
    · exact List.mem_append_left _ hBefore
    · exact List.mem_append_right _ (List.mem_cons_of_mem _ hAfter)
  | handle hFinished hHandle => exact ⟨hState, handle_pool hHandle⟩

theorem Steps.pool_eq (hWork : ∀ path, ∃ result, d.work path = .finish result)
    (hState : state.Parserless) (hSteps : d.Steps state next) :
    next.Parserless ∧ next.session.pool = state.session.pool := by
  induction hSteps with
  | none => exact ⟨hState, rfl⟩
  | more _ hStep ih =>
    obtain ⟨hMiddle, hPool⟩ := ih
    obtain ⟨hNext, hSame⟩ := hStep.pool_eq hWork hMiddle
    exact ⟨hNext, hSame.trans hPool⟩

end Dispatch

namespace Engine

variable {engine : Engine} {fs : FileSystem} {s t after : Session} {input path : String}
  {inputs : List String} {handled : List (String × Outcome)}
  {entries : List (List (String × Outcome))} {counts : Counts}

theorem Handles.pool_eq (hDry : engine.processor.options.dryRun = true)
    (h : engine.Handles fs s input handled counts after) : after.pool = s.pool := by
  cases h with
  | nowhere hStat hAsked => rfl
  | @file entry outcome pool after hStat hFile hOutcome hReport =>
    have hPool : pool = s.pool := by
      rw [named] at hOutcome
      split at hOutcome
      · obtain ⟨result, hResult⟩ :=
          Processor.exists_finish_of_dry hDry fs (Path.ofString input).text
        rw [Processor.process, hResult] at hOutcome
        exact (Prod.mk.inj hOutcome).2.symm
      · exact (Prod.mk.inj hOutcome).2.symm
    exact (report_eq_ok hReport).2.trans hPool
  | directory hStat hDirectory hWalk hEnds =>
    cases hEnds with
    | nothing hFiles => rfl
    | done hFiles hSteps hDone =>
      have hNone : ∀ {job : Job}, job ∉ ([] : List Job) := List.not_mem_nil
      exact (hSteps.pool_eq (Processor.exists_finish_of_dry hDry fs) fun job hJob =>
        absurd hJob hNone).2

/-- Dry runs do not touch the parsers. -/
theorem Runs.pool_eq (hDry : engine.processor.options.dryRun = true)
    (h : engine.Runs fs s inputs entries counts after) : after.pool = s.pool := by
  induction h with
  | nil s => rfl
  | cons hInput _ ih => exact ih.trans (hInput.pool_eq hDry)

/-! ## What becomes of a file -/

/-- The engine with dry runs turned on or off. -/
def withDryRun (engine : Engine) (dryRun : Bool) : Engine :=
  { engine with processor := engine.processor.withDryRun dryRun }

/-- What becomes of a file of an input path, in a dry run and otherwise. -/
inductive Fate (engine : Engine) (fs : FileSystem) (input path : String) : Outcome → Outcome → Prop where
  | nowhere {refusal : Refusal} (hTarget : engine.target fs input = .nowhere refusal) :
      Fate engine fs input path (unreachable path refusal) (unreachable path refusal)
  | filtered (hTarget : engine.target fs input = .filtered) :
      Fate engine fs input path (.skipped path "filtered") (.skipped path "filtered")
  | unsupported {paths : List String} (hTarget : engine.target fs input = .files paths)
      (hClass : engine.processor.registry.classify path = none)
      (hLenient : engine.processor.options.strict = false ∨ extensionOf? path = none) :
      Fate engine fs input path (.skipped path "unsupported") (.skipped path "unsupported")
  | rejected {paths : List String} {extension : String}
      (hTarget : engine.target fs input = .files paths)
      (hClass : engine.processor.registry.classify path = none)
      (hStrict : engine.processor.options.strict = true)
      (hExtension : extensionOf? path = some extension) :
      Fate engine fs input path (.failed path (.unsupportedLanguage path extension))
        (.failed path (.unsupportedLanguage path extension))
  | attempted {paths : List String} {binding : Binding}
      (hTarget : engine.target fs input = .files paths)
      (hClass : engine.processor.registry.classify path = some binding) :
      Fate engine fs input path
        (.success path binding.name (Processor.notice path binding) none true)
        (engine.processor.attempt fs path binding)

theorem comesTo_files {paths : List String} (hTarget : engine.target fs input = .files paths)
    (dryRun : Bool) : (engine.withDryRun dryRun).comesTo fs input path
      = outcomeOf engine.processor.grammars ((engine.processor.withDryRun dryRun).work fs) path := by
  have hSame : (engine.withDryRun dryRun).target fs input = .files paths := hTarget
  rw [comesTo, hSame]
  rfl

theorem fate (engine : Engine) (fs : FileSystem) (input path : String) :
    engine.Fate fs input path ((engine.withDryRun true).comesTo fs input path)
      ((engine.withDryRun false).comesTo fs input path) := by
  have hTargets : ∀ dryRun, (engine.withDryRun dryRun).target fs input = engine.target fs input :=
    fun _ => rfl
  cases hTarget : engine.target fs input with
  | nowhere refusal =>
    rw [comesTo, comesTo, hTargets, hTargets, hTarget]
    exact .nowhere hTarget
  | filtered =>
    rw [comesTo, comesTo, hTargets, hTargets, hTarget]
    exact .filtered hTarget
  | files paths =>
    rw [comesTo_files hTarget, comesTo_files hTarget]
    cases hClass : engine.processor.registry.classify path with
    | some binding =>
      rw [Processor.outcome_of_dry hClass, Processor.outcome_of_real hClass]
      exact .attempted hTarget hClass
    | none =>
      rw [Processor.outcome_of_unknown hClass, Processor.outcome_of_unknown hClass,
        Processor.unsupported]
      split
      · rename_i extension hExtension
        cases hStrict : engine.processor.options.strict with
        | true => exact .rejected hTarget hClass hStrict hExtension
        | false => exact .unsupported hTarget hClass (Or.inl hStrict)
      · exact .unsupported hTarget hClass (Or.inr ‹_›)

/-- That a file of an input path is parsed as a language, unless that fails. -/
def Attempts (engine : Engine) (fs : FileSystem) (input path language : String) : Prop :=
  (∃ paths, engine.target fs input = .files paths) ∧
    ∃ binding, engine.processor.registry.classify path = some binding ∧ binding.name = language

/-- What the outcome of a file in a dry run says of its outcome in the other run. -/
structure Foretells (engine : Engine) (fs : FileSystem) (input path : String) (dry real : Outcome) :
    Prop where
  /-- A file is left out of both runs for the same reason, or of neither. -/
  skipped : ∀ reason, dry = .skipped path reason ↔ real = .skipped path reason
  /-- A file is rejected for having no language in both runs, or in neither. -/
  rejected : ∀ extension, engine.processor.options.strict = true →
    engine.processor.registry.classify path = none →
    (dry = .failed path (.unsupportedLanguage path extension) ↔
      real = .failed path (.unsupportedLanguage path extension))
  /-- A language is named in the dry run just if the file is to be parsed as that. -/
  named : ∀ language, (∃ rendered, dry = .success path language rendered none true) ↔
    engine.Attempts fs input path language
  attempted : ∀ language, engine.Attempts fs input path language →
    (∃ rendered doc, real = .success path language rendered (some doc) false) ∨
      ∃ error, real = .failed path error

namespace Fate

variable {dry real : Outcome}

/-- Outcomes that are the same foretell each other if there is nothing to be parsed. -/
theorem foretells_self {outcome : Outcome} (hNone : ∀ language, ¬ engine.Attempts fs input path language)
    (hOther : ∀ language rendered, outcome ≠ .success path language rendered none true) :
    engine.Foretells fs input path outcome outcome where
  skipped := fun _ => Iff.rfl
  rejected := fun _ _ _ => Iff.rfl
  named := by
    intro language
    constructor
    · rintro ⟨rendered, hNamed⟩
      exact absurd hNamed (hOther language rendered)
    · intro hAttempts
      exact absurd hAttempts (hNone language)
  attempted := fun language hAttempts => absurd hAttempts (hNone language)

theorem foretells (h : engine.Fate fs input path dry real) :
    engine.Foretells fs input path dry real := by
  cases h with
  | nowhere hTarget =>
    refine foretells_self ?_ (by simp [unreachable])
    rintro language ⟨⟨paths, hPaths⟩, -⟩
    cases hTarget.symm.trans hPaths
  | filtered hTarget =>
    refine foretells_self ?_ (by simp)
    rintro language ⟨⟨paths, hPaths⟩, -⟩
    cases hTarget.symm.trans hPaths
  | unsupported hTarget hClass hLenient =>
    refine foretells_self ?_ (by simp)
    rintro language ⟨-, binding, hBinding, -⟩
    cases hClass.symm.trans hBinding
  | rejected hTarget hClass hStrict hExtension =>
    refine foretells_self ?_ (by simp)
    rintro language ⟨-, binding, hBinding, -⟩
    cases hClass.symm.trans hBinding
  | @attempted paths binding hTarget hClass =>
    have hComes := engine.processor.attempt_cases fs path binding
    refine ⟨?_, ?_, ?_, ?_⟩
    · intro reason
      rcases hComes with ⟨rendered, doc, hReal⟩ | ⟨error, hReal⟩
      · simp [hReal]
      · simp [hReal]
    · intro extension hStrict hNone
      cases hClass.symm.trans hNone
    · intro language
      constructor
      · rintro ⟨rendered, hNamed⟩
        cases hNamed
        exact ⟨⟨paths, hTarget⟩, binding, hClass, rfl⟩
      · rintro ⟨-, other, hOther, rfl⟩
        obtain rfl := Option.some.inj (hClass.symm.trans hOther)
        exact ⟨_, rfl⟩
    · rintro language ⟨-, other, hOther, rfl⟩
      obtain rfl := Option.some.inj (hClass.symm.trans hOther)
      exact hComes

/-- Outcomes are counted as left out in both runs or in neither, and what is an error in the dry run
is one in the other run. -/
theorem counted (h : engine.Fate fs input path dry real) :
    (Counts.ofOutcome dry).skipped = (Counts.ofOutcome real).skipped ∧
      (Counts.ofOutcome dry).error ≤ (Counts.ofOutcome real).error := by
  cases h with
  | nowhere hTarget => exact ⟨rfl, Int.le_refl _⟩
  | filtered hTarget => exact ⟨rfl, Int.le_refl _⟩
  | unsupported hTarget hClass hLenient => exact ⟨rfl, Int.le_refl _⟩
  | rejected hTarget hClass hStrict hExtension => exact ⟨rfl, Int.le_refl _⟩
  | @attempted paths binding hTarget hClass =>
    rcases engine.processor.attempt_cases fs path binding with
      ⟨rendered, doc, hReal⟩ | ⟨error, hReal⟩
    · rw [hReal]
      exact ⟨rfl, Int.le_refl _⟩
    · rw [hReal]
      exact ⟨rfl, by simp [Counts.ofOutcome]⟩

theorem record?_eq_none (h : engine.Fate fs input path dry real) (options : ReportOptions) :
    (dry.emission? options).bind Emission.record? = none := by
  cases h with
  | attempted hTarget hClass =>
    cases hQuiet : options.quiet <;> simp [Outcome.emission?, hQuiet, Emission.record?]
  | _ => rfl

end Fate

/-! ## Two runs -/

/-- That two runs over input paths, a dry one and the other, handled the same files of each of these, in
whatever order, and that the outcome of each file in the dry run foretells the other one. -/
def Foretold (engine : Engine) (fs : FileSystem) (inputs : List String)
    (entries others : List (List (String × Outcome))) : Prop :=
  ∃ paired : List (List (String × Outcome × Outcome)),
    List.Forall₂ List.Perm entries (paired.map (·.map fun file => (file.1, file.2.1))) ∧
    List.Forall₂ List.Perm others (paired.map (·.map fun file => (file.1, file.2.2))) ∧
    List.Forall₂ (fun input files => ∀ file ∈ files,
      engine.Fate fs input file.1 file.2.1 file.2.2 ∧
      engine.Foretells fs input file.1 file.2.1 file.2.2) inputs paired

/-- The files of an input path with what they come to in either run. -/
def paired (engine : Engine) (fs : FileSystem) (input : String) : List (String × Outcome × Outcome) :=
  (engine.submitted fs input).map fun path =>
    (path, (engine.withDryRun true).comesTo fs input path,
      (engine.withDryRun false).comesTo fs input path)

theorem fate_paired (engine : Engine) (fs : FileSystem) (input : String) :
    ∀ file ∈ engine.paired fs input, engine.Fate fs input file.1 file.2.1 file.2.2 := by
  intro file hFile
  obtain ⟨path, -, rfl⟩ := List.mem_map.mp hFile
  exact engine.fate fs input path

theorem map_paired_dry (engine : Engine) (fs : FileSystem) (inputs : List String) :
    (inputs.map (engine.paired fs)).map (·.map fun file => (file.1, file.2.1))
      = inputs.map ((engine.withDryRun true).due fs) := by
  rw [List.map_map]
  refine List.map_congr_left fun input _ => ?_
  rw [Function.comp_apply, paired, List.map_map]
  rfl

theorem map_paired_real (engine : Engine) (fs : FileSystem) (inputs : List String) :
    (inputs.map (engine.paired fs)).map (·.map fun file => (file.1, file.2.2))
      = inputs.map ((engine.withDryRun false).due fs) := by
  rw [List.map_map]
  refine List.map_congr_left fun input _ => ?_
  rw [Function.comp_apply, paired, List.map_map]
  rfl

/-- The outcomes of files that were told of in any order. -/
theorem outcomes_perm {paired : List (List (String × Outcome × Outcome))}
    (side : Outcome × Outcome → Outcome)
    (hPerm : List.Forall₂ List.Perm entries
      (paired.map (·.map fun file => (file.1, side file.2)))) :
    (entries.flatten.map Prod.snd).Perm (paired.flatten.map fun file => side file.2) := by
  have hFlat := (List.Perm.flatten_congr hPerm).map Prod.snd
  rw [← List.map_flatten, List.map_map] at hFlat
  exact hFlat

/-- Counts of outcomes that are counted alike. -/
theorem counts_paired {files : List (String × Outcome × Outcome)}
    (hFiles : ∀ file ∈ files, (Counts.ofOutcome file.2.1).skipped = (Counts.ofOutcome file.2.2).skipped ∧
      (Counts.ofOutcome file.2.1).error ≤ (Counts.ofOutcome file.2.2).error) :
    let here := Counts.ofOutcomes (files.map (·.2.1))
    let there := Counts.ofOutcomes (files.map (·.2.2))
    here.total = there.total ∧ here.skipped = there.skipped ∧ here.error ≤ there.error := by
  intro here there
  have hTotal : here.total = there.total := by
    rw [Counts.total_ofOutcomes, Counts.total_ofOutcomes, List.length_map, List.length_map]
  refine ⟨hTotal, ?_⟩
  clear hTotal
  induction files with
  | nil => exact ⟨rfl, Int.le_refl _⟩
  | cons file rest ih =>
    obtain ⟨hSkipped, hError⟩ := hFiles file List.mem_cons_self
    obtain ⟨hRest, hRestError⟩ := ih fun other hOther => hFiles other (List.mem_cons_of_mem _ hOther)
    have hCons : ∀ (outcome : Outcome) (outcomes : List Outcome),
        Counts.ofOutcomes (outcome :: outcomes)
          = (Counts.ofOutcome outcome).merge (Counts.ofOutcomes outcomes) := by
      intro outcome outcomes
      rw [← List.singleton_append, Counts.ofOutcomes_concat, Counts.ofOutcomes_singleton]
    simp only [here, there, List.map_cons, hCons, Counts.merge]
    exact ⟨by omega, by omega⟩

/-- What is no record does not touch the sink for records. -/
theorem writeAll_sink {first last : Outputs} {emissions : List Emission}
    (hNone : ∀ emission ∈ emissions, emission.record? = none)
    (hAll : first.writeAll emissions = .ok last) : last.sink = first.sink := by
  induction emissions generalizing first with
  | nil =>
    cases hAll
    rfl
  | cons emission rest ih =>
    obtain ⟨next, hWrite, hRest⟩ := Outputs.writeAll_cons hAll
    have hLast := ih (fun other hOther => hNone other (List.mem_cons_of_mem _ hOther)) hRest
    have hFirst := hNone emission List.mem_cons_self
    cases emission with
    | record text => cases hFirst
    | notice text =>
      obtain ⟨notices, outlets, -, rfl⟩ := Outputs.write?_notice hWrite
      exact hLast

/-- A dry run writes no records, and does not touch the sink for them. -/
theorem dry_written (hSettles : (engine.withDryRun true).Settles fs s inputs entries counts after) :
    (engine.withDryRun true).records entries = [] ∧ after.sink = s.sink := by
  have hEmissions : ∀ emission ∈ (engine.withDryRun true).emissions entries,
      emission.record? = none := by
    intro emission hEmission
    obtain ⟨outcome, hOutcome, hSome⟩ := List.mem_filterMap.mp hEmission
    obtain ⟨⟨path, told⟩, hTold, rfl⟩ := List.mem_map.mp hOutcome
    have hDue := (List.Perm.flatten_congr hSettles.perm).subset hTold
    obtain ⟨due, hInput, hFile⟩ := List.mem_flatten.mp hDue
    obtain ⟨input, -, rfl⟩ := List.mem_map.mp hInput
    obtain ⟨other, -, hSame⟩ := List.mem_map.mp hFile
    obtain ⟨rfl, rfl⟩ := Prod.mk.inj hSame
    have hNone := (engine.fate fs input other).record?_eq_none (engine.withDryRun true).reports
    rw [hSome] at hNone
    exact hNone
  exact ⟨List.filterMap_eq_nil_iff.mpr hEmissions, writeAll_sink hEmissions hSettles.written⟩

/-- If one of the two runs comes to its end, the other one can be brought to its end as well. -/
theorem exists_runs_withDryRun {dryRun : Bool} (other : Bool)
    (h : (engine.withDryRun dryRun).Runs fs s inputs entries counts after) (hSound : t.pool.Sound)
    (hReady : t.toOutputs.Ready) (hThreads : 1 ≤ engine.reports.threads) :
    ∃ others otherCounts otherAfter,
      (engine.withDryRun other).Runs fs t inputs others otherCounts otherAfter := by
  have hExists : ∃ others otherCounts otherAfter,
      Runs { engine.withDryRun dryRun with
        reports := engine.reports, processor := engine.processor.withDryRun other }
        fs t inputs others otherCounts otherAfter := exists_runs h hSound hReady hThreads
  exact hExists

/-- A dry run and the run that it is a rehearsal of, with the same files, input paths, registry and
options, however many workers there are and whatever parsers idle at the start.  Both handle the same
files, and an input path that leads nowhere is an error in both.  A file is left out for the same
reason, or rejected for having no language, in both or in neither; any other file is named along with
its language in the dry run, and in the other run there is an attempt to parse it as that, which comes
to a record in that language or to an error.  So both handle and leave out as many files, and the dry run
has no more errors.  The dry run writes no records and builds no parsers.  If one of the runs comes to
its end, the other one can be brought to its end as well.  Runs that handle one file after the other are
such runs. -/
theorem dryRun_foretells (engine : Engine) (fs : FileSystem) (inputs : List String) {s t : Session}
    (hSound : s.pool.Sound) (hOther : t.pool.Sound) :
    let dry := engine.withDryRun true
    let real := engine.withDryRun false
    (∀ entries counts after, dry.Runs fs s inputs entries counts after →
      dry.records entries = [] ∧ after.sink = s.sink ∧ after.pool = s.pool ∧
      (∀ others otherCounts otherAfter, real.Runs fs t inputs others otherCounts otherAfter →
        engine.Foretold fs inputs entries others ∧ counts.total = otherCounts.total ∧
        counts.skipped = otherCounts.skipped ∧ counts.error ≤ otherCounts.error) ∧
      (t.toOutputs.Ready → 1 ≤ engine.reports.threads →
        ∃ others otherCounts otherAfter, real.Runs fs t inputs others otherCounts otherAfter)) ∧
    (∀ others otherCounts otherAfter, real.Runs fs t inputs others otherCounts otherAfter →
      s.toOutputs.Ready → 1 ≤ engine.reports.threads →
      ∃ entries counts after, dry.Runs fs s inputs entries counts after) ∧
    ∀ dryRun counts after, 1 ≤ engine.reports.threads →
      (engine.withDryRun dryRun).Unchanging fs s.toOutputs inputs →
      ((engine.withDryRun dryRun).runInputs inputs).run.run s = (.ok counts, after) →
      ∃ entries, (engine.withDryRun dryRun).Runs fs s inputs entries counts after := by
  intro dry real
  refine ⟨?_, ?_, ?_⟩
  · intro entries counts after hDry
    have hHere := hDry.settles hSound
    obtain ⟨hRecords, hSink⟩ := dry_written hHere
    refine ⟨hRecords, hSink, hDry.pool_eq rfl, ?_, ?_⟩
    · intro others otherCounts otherAfter hReal
      have hThere := hReal.settles hOther
      have hPerm := hHere.perm
      have hOtherPerm := hThere.perm
      rw [← engine.map_paired_dry fs inputs] at hPerm
      rw [← engine.map_paired_real fs inputs] at hOtherPerm
      refine ⟨⟨_, hPerm, hOtherPerm, ?_⟩, ?_⟩
      · rw [List.forall₂_map_right_iff, List.forall₂_same]
        intro input _ file hFile
        have hFate := engine.fate_paired fs input file hFile
        exact ⟨hFate, hFate.foretells⟩
      · rw [hHere.counts_eq, hThere.counts_eq,
          Counts.ofOutcomes_perm (outcomes_perm Prod.fst hPerm),
          Counts.ofOutcomes_perm (outcomes_perm Prod.snd hOtherPerm)]
        refine counts_paired fun file hFile => ?_
        obtain ⟨files, hFiles, hMem⟩ := List.mem_flatten.mp hFile
        obtain ⟨input, -, rfl⟩ := List.mem_map.mp hFiles
        exact (engine.fate_paired fs input file hMem).counted
    · intro hReady hThreads
      exact exists_runs_withDryRun false hDry hOther hReady hThreads
  · intro others otherCounts otherAfter hReal hReady hThreads
    exact exists_runs_withDryRun true hReal hSound hReady hThreads
  · intro dryRun counts after hThreads hUnchanging hRun
    have hWorkers : 1 ≤ (engine.withDryRun dryRun).reports.threads := hThreads
    obtain ⟨entries, hRuns, -⟩ := runInputs_runs hWorkers hUnchanging hRun
    exact ⟨entries, hRuns⟩

/-- A dry run over a path that leads nowhere and a directory with two files in a language and one in
none, and the run that it is a rehearsal of, in which the second file is told of before the first. -/
theorem dryRun_foretells_mixed :
    let engine : Engine := { processor := .leafy, reports := { threads := 2 } }
    let inputs := ["gone", "d"]
    let s : Session := { outlets := { files := shelf } }
    s.pool.Sound ∧ s.toOutputs.Ready ∧
    (engine.withDryRun true).Unchanging shelf s.toOutputs inputs ∧
    ∃ entries counts after others otherCounts otherAfter,
      ((engine.withDryRun true).runInputs inputs).run.run s = (.ok counts, after) ∧
      (engine.withDryRun true).Runs shelf s inputs entries counts after ∧
      (engine.withDryRun false).Runs shelf s inputs others otherCounts otherAfter ∧
      ¬ (engine.withDryRun false).InOrder shelf inputs others ∧
      engine.Foretold shelf inputs entries others ∧
      counts.total = otherCounts.total ∧ after.pool = s.pool := by
  intro engine inputs s
  have hSink : s.sink.Prints := ⟨rfl, Or.inl rfl⟩
  have hNotices : s.notices.Prints := ⟨rfl, Or.inl rfl⟩
  have hFileless : s.toOutputs.Fileless := ⟨hSink.fileless, hNotices.fileless⟩
  have hUnchanging : (engine.withDryRun true).Unchanging shelf s.toOutputs inputs :=
    unchanging_of_fileless _ hFileless _
  have hSound : s.pool.Sound := Pool.sound_empty _ _
  obtain ⟨counts, after, hRun⟩ := runInputs_of_fileless hFileless (clear_shelf (engine.withDryRun true) rfl)
  obtain ⟨hDry, -, hSequential⟩ := dryRun_foretells engine shelf inputs hSound hSound
  obtain ⟨entries, hEntries⟩ := hSequential true counts after (by decide) hUnchanging hRun
  obtain ⟨-, -, hPool, hTwo, -⟩ := hDry entries counts after hEntries
  obtain ⟨others, otherCounts, otherAfter, hOthers, hOvertaken⟩ :=
    exists_runs_shelf (engine.withDryRun false) rfl (by decide) hSound hFileless.ready
  obtain ⟨hForetold, hTotal, -⟩ := hTwo others otherCounts otherAfter hOthers
  exact ⟨hSound, hFileless.ready, hUnchanging, entries, counts, after, others, otherCounts,
    otherAfter, hRun, hEntries, hOthers, hOvertaken, hForetold, hTotal, hPool⟩

end Engine

end TreeDump
