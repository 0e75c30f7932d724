import TreeDump.Proofs.Run.Dispatch
import TreeDump.Proofs.Run.Inputs
import TreeDump.Proofs.Run.Process

/-!
# The ledger of a run

For each input path, the ledger of a run has the outcomes that the path comes to: one failure if it
leads nowhere, one outcome if it leads to a file, and one for each file that is found in a directory.
A run answers the counts of its ledger, whatever mixture of input paths it is given, and it writes
one record for each file that was parsed.  What the files of a directory come to does not depend on
how many workers there are, nor does what comes after depend on what went before.

* `Engine.ledger`: the outcomes of the input paths of a run, as long as the files stay as they are.
* `Engine.Books`: what a part of a run leaves behind that told of certain outcomes.
* `Engine.runFrom_books`: a run that answers counts told of the outcomes of its ledger.
* `Engine.runInputs_accounts`: runs can be cut into pieces; their counts are those of their ledgers,
  and so are the numbers of records.
-/

namespace TreeDump

/-! ## One after the other, with one pool -/

section

variable {α β : Type} {f g : α → Pool → β × Pool}

/-- Does something with each of a list, with the pool as it was left the time before. -/
def inTurn (f : α → Pool → β × Pool) : List α → Pool → List β × Pool
  | [], pool => ([], pool)
  | a :: rest, pool =>
    let (b, pool) := f a pool
    let (results, pool) := inTurn f rest pool
    (b :: results, pool)

theorem inTurn_cons (f : α → Pool → β × Pool) (a : α) (rest : List α) (pool : Pool) :
    inTurn f (a :: rest) pool
      = ((f a pool).1 :: (inTurn f rest (f a pool).2).1, (inTurn f rest (f a pool).2).2) := rfl

theorem inTurn_congr {list : List α} (hSame : ∀ a ∈ list, f a = g a) (pool : Pool) :
    inTurn f list pool = inTurn g list pool := by
  induction list generalizing pool with
  | nil => rfl
  | cons a rest ih =>
    rw [inTurn_cons, inTurn_cons, hSame a List.mem_cons_self,
      ih fun b hB => hSame b (List.mem_cons_of_mem a hB)]

/-- What does not depend on the pool as long as that is sound, does not depend on it in a row
either. -/
theorem inTurn_sound {result : α → β}
    (hF : ∀ a pool, pool.Sound → (f a pool).1 = result a ∧ (f a pool).2.Sound)
    (list : List α) {pool : Pool} (hSound : pool.Sound) :
    (inTurn f list pool).1 = list.map result ∧ (inTurn f list pool).2.Sound := by
  induction list generalizing pool with
  | nil => exact ⟨rfl, hSound⟩
  | cons a rest ih =>
    obtain ⟨hFirst, hAfter⟩ := hF a pool hSound
    obtain ⟨hRest, hLast⟩ := ih hAfter
    rw [inTurn_cons, hFirst, hRest]
    exact ⟨rfl, hLast⟩

/-- What holds of each result and what it came from, holds in a row. -/
theorem inTurn_forall₂ {R : α → β → Prop} (hF : ∀ a pool, R a (f a pool).1) (list : List α)
    (pool : Pool) : List.Forall₂ R list (inTurn f list pool).1 := by
  induction list generalizing pool with
  | nil => exact .nil
  | cons a rest ih =>
    rw [inTurn_cons]
    exact .cons (hF a pool) (ih _)

end

/-! ## Ledgers -/

namespace Engine

variable (engine : Engine)

theorem task_process (path : String) (s : Session) :
    (engine.task path).run.run s
      = (.ok (engine.processor.process s.outlets.files path s.pool).1,
        { s with pool := (engine.processor.process s.outlets.files path s.pool).2 }) := by
  obtain ⟨outcome, pool, hRun⟩ := engine.processor.work_run s.outlets.files path
    engine.processor.grammars s.pool
  rw [task, Run.get_bind, Processor.process, hRun]
  exact Work.task_run hRun

/-- What an input path leads to. -/
inductive Target where
  | nowhere (refusal : Refusal)
  /-- A file that is left out. -/
  | filtered
  | files (paths : List String)

def Target.paths : Target → List String
  | files paths => paths
  | _ => []

def target (fs : FileSystem) (input : String) : Target :=
  let path := Path.ofString input
  match fs.stat path.text with
  | .error refusal => .nowhere refusal
  | .ok entry =>
    if entry.isDirectory then .files ((walk fs engine.walkOptions path).files.map Path.text)
    else if engine.walkOptions.filter.accepts path.text then .files [path.text]
    else .filtered

/-- The outcomes that an input path comes to, with the parsers of a pool. -/
def inputOutcomes (fs : FileSystem) (input : String) (pool : Pool) : List Outcome × Pool :=
  let path := (Path.ofString input).text
  match engine.target fs input with
  | .nowhere refusal => ([.failed path (.fileAccess path (.refused refusal path))], pool)
  | .filtered => ([.skipped path "filtered"], pool)
  | .files paths => inTurn (engine.processor.process fs) paths pool

/-- The outcomes of each input path, one path after the other. -/
def ledger (fs : FileSystem) (inputs : List String) (pool : Pool) : List (List Outcome) × Pool :=
  inTurn (engine.inputOutcomes fs) inputs pool

/-- That an input path leads to the same in two file systems, and that the files there hold the
same. -/
def LooksSame (before after : FileSystem) (input : String) : Prop :=
  engine.target after input = engine.target before input ∧
    ∀ path ∈ (engine.target before input).paths,
      engine.processor.source after path = engine.processor.source before path

/-- That input paths look the same as in a file system, whatever is written. -/
def Steady (fs : FileSystem) (outputs : Outputs) (inputs : List String) : Prop :=
  outputs.Lastingly fun files => ∀ input ∈ inputs, engine.LooksSame fs files input

/-! ## What a run leaves behind -/

/-- What a part of a run leaves behind that told of certain outcomes. -/
structure Books (first : Outputs) (outcomes : List Outcome) (counts : Counts) (last : Outputs) :
    Prop where
  counts_eq : counts = Counts.ofOutcomes outcomes
  written : first.writeAll (outcomes.filterMap (Outcome.emission? engine.reports)) = .ok last
  records : ∀ outcome ∈ outcomes, outcome.isSuccess →
    outcome.isRecord = !engine.processor.options.dryRun

variable {engine}

namespace Books

variable {first middle last : Outputs} {outcomes others : List Outcome} {counts more : Counts}

theorem nil (outputs : Outputs) : engine.Books outputs [] {} outputs := by
  refine ⟨rfl, rfl, ?_⟩
  intro outcome hOutcome
  cases hOutcome

theorem append (hEarlier : engine.Books first outcomes counts middle)
    (hLater : engine.Books middle others more last) :
    engine.Books first (outcomes ++ others) (counts.merge more) last := by
  refine ⟨?_, ?_, ?_⟩
  · rw [Counts.ofOutcomes_concat, ← hEarlier.counts_eq, ← hLater.counts_eq]
  · rw [List.filterMap_append]
    exact Outputs.writeAll_append hEarlier.written hLater.written
  · exact List.forall_mem_append.mpr ⟨hEarlier.records, hLater.records⟩

/-- A record is written for each file that was parsed, unless in a dry run. -/
theorem sink_written (h : engine.Books first outcomes counts last) :
    last.sink.written = first.sink.written + outcomes.countP Outcome.isRecord ∧
    (outcomes.countP Outcome.isRecord : Int)
      = if engine.processor.options.dryRun then 0 else counts.success := by
  refine ⟨Outputs.writeAll_written _ h.written, ?_⟩
  rw [h.counts_eq, Counts.success_ofOutcomes]
  have hIs : ∀ outcome : Outcome, outcome.isRecord → outcome.isSuccess := by
    intro outcome hRecord
    cases outcome with
    | success path language rendered document dryRun => rfl
    | skipped path reason => cases hRecord
    | failed path error => cases hRecord
  cases hDry : engine.processor.options.dryRun with
  | true =>
    have hNone : outcomes.countP Outcome.isRecord = 0 := by
      rw [List.countP_eq_zero]
      intro outcome hOutcome hRecord
      have hNot := h.records outcome hOutcome (hIs outcome hRecord)
      rw [hDry, hRecord] at hNot
      cases hNot
    rw [if_pos rfl, hNone]
    rfl
  | false =>
    have hAll : outcomes.countP Outcome.isRecord = outcomes.countP Outcome.isSuccess := by
      refine List.countP_congr fun outcome hOutcome => ⟨hIs outcome, fun hSuccess => ?_⟩
      have hRecord := h.records outcome hOutcome hSuccess
      rw [hDry] at hRecord
      exact hRecord
    rw [if_neg (by simp), hAll]

end Books

variable {s after : Session} {counts : Counts}

/-- Telling of an outcome leaves behind what one outcome does. -/
theorem report_books {outcome : Outcome}
    (hReport : (report engine.reports outcome).run.run s = (.ok (), after))
    (hRecord : outcome.isSuccess → outcome.isRecord = !engine.processor.options.dryRun) :
    engine.Books s.toOutputs [outcome] (Counts.ofOutcome outcome) after.toOutputs ∧
      after.pool = s.pool := by
  obtain ⟨hWritten, hPool⟩ := report_eq_ok hReport
  refine ⟨⟨(Counts.ofOutcomes_singleton outcome).symm, ?_, ?_⟩, hPool⟩
  · rw [Outcome.filterMap_emission?_singleton]
    exact hWritten
  · intro other hOther
    obtain rfl := List.mem_singleton.mp hOther
    exact hRecord

/-- Files that are handled one after the other have the outcomes that they come to in turn, as long
as they are read as in `fs`. -/
theorem runFiles_books {total : Nat} {files : List String} {given last : Counts}
    (hRun : (runFiles engine.reports total engine.task given files).run.run s
      = (.ok last, after)) :
    ∃ outcomes counts, engine.Books s.toOutputs outcomes counts after.toOutputs ∧
      last = given.merge counts ∧
      ∀ fs, s.toOutputs.Lastingly (fun now => ∀ path ∈ files,
          engine.processor.source now path = engine.processor.source fs path) →
        inTurn (engine.processor.process fs) files s.pool = (outcomes, after.pool) := by
  induction files generalizing given s with
  | nil =>
    obtain ⟨hLast, rfl⟩ := Prod.mk.inj hRun
    obtain rfl := Except.ok.inj hLast
    refine ⟨[], {}, .nil s.toOutputs, ?_, fun _ _ => rfl⟩
    simp only [Counts.merge, Int.add_zero]
  | cons path rest ih =>
    rw [runFiles] at hRun
    obtain ⟨outcome, tasked, hTask, hRun⟩ := Run.bind_eq_ok hRun
    obtain ⟨⟨⟩, handled, hHandle, hRest⟩ := Run.bind_eq_ok hRun
    have hProcess := Run.tryCatch_ok (f := fun raised => pure (.interrupted path raised))
      (engine.task_process path s)
    obtain ⟨hOutcome, rfl⟩ := Prod.mk.inj (hTask.symm.trans hProcess)
    obtain rfl := Except.ok.inj hOutcome
    rw [handle] at hHandle
    obtain ⟨⟨⟩, reported, hReport, hProgress⟩ := Run.bind_eq_ok hHandle
    obtain ⟨-, rfl⟩ := Prod.mk.inj hProgress
    obtain ⟨hFirst, hPool⟩ := report_books hReport
      (engine.processor.process_comes s.outlets.files path s.pool).isRecord_eq
    obtain ⟨others, counts, hBooks, hLast, hTurns⟩ := ih hRest
    refine ⟨_, _, hFirst.append hBooks, ?_, ?_⟩
    · rw [hLast, Counts.add, Counts.merge_assoc]
    · intro fs hSteady
      have hNow := engine.processor.process_congr (hSteady.now path List.mem_cons_self)
      have hLater := (hSteady.later hFirst.written).mono fun files hFiles other hOther =>
        hFiles other (List.mem_cons_of_mem path hOther)
      have hOthers := hTurns fs hLater
      dsimp only at hOthers
      rw [hPool, hNow] at hOthers
      rw [inTurn_cons, hOthers, hNow]
      rfl

theorem runBatch_books {files : List String}
    (hRun : (runBatch engine.reports engine.task files).run.run s = (.ok counts, after)) :
    ∃ outcomes, engine.Books s.toOutputs outcomes counts after.toOutputs ∧
      ∀ fs, s.toOutputs.Lastingly (fun now => ∀ path ∈ files,
          engine.processor.source now path = engine.processor.source fs path) →
        inTurn (engine.processor.process fs) files s.pool = (outcomes, after.pool) := by
  cases files with
  | nil =>
    obtain ⟨hCounts, rfl⟩ := Prod.mk.inj hRun
    obtain rfl := Except.ok.inj hCounts
    exact ⟨[], .nil s.toOutputs, fun _ _ => rfl⟩
  | cons path rest =>
    rw [runBatch] at hRun
    simp only [List.isEmpty_cons, Bool.false_eq_true, if_false] at hRun
    obtain ⟨⟨⟩, started, hStart, hRun⟩ := Run.bind_eq_ok hRun
    obtain ⟨-, rfl⟩ := Prod.mk.inj hStart
    obtain ⟨reached, done, hFiles, hRun⟩ := Run.bind_eq_ok hRun
    obtain ⟨⟨⟩, told, hEnd, hRun⟩ := Run.bind_eq_ok hRun
    obtain ⟨-, rfl⟩ := Prod.mk.inj hEnd
    obtain ⟨hCounts, rfl⟩ := Prod.mk.inj hRun
    obtain rfl := Except.ok.inj hCounts
    obtain ⟨outcomes, more, hBooks, hLast, hTurns⟩ := runFiles_books hFiles
    rw [Counts.empty_merge] at hLast
    subst hLast
    exact ⟨outcomes, hBooks, hTurns⟩

/-- A file that is named as an input has the outcome that it comes to, unless it is left out. -/
theorem runFile_books {path : Path}
    (hRun : (engine.runFile path).run.run s = (.ok counts, after)) :
    ∃ outcomes, engine.Books s.toOutputs outcomes counts after.toOutputs ∧
      if engine.walkOptions.filter.accepts path.text then
        inTurn (engine.processor.process s.outlets.files) [path.text] s.pool
          = (outcomes, after.pool)
      else outcomes = [.skipped path.text "filtered"] ∧ after.pool = s.pool := by
  rw [runFile] at hRun
  split at hRun
  · rename_i hAccepts
    simp only [if_pos hAccepts]
    obtain ⟨outcome, tasked, hTask, hRun⟩ := Run.bind_eq_ok hRun
    obtain ⟨hOutcome, rfl⟩ := Prod.mk.inj (hTask.symm.trans (engine.task_process path.text s))
    obtain rfl := Except.ok.inj hOutcome
    obtain ⟨⟨⟩, reported, hReport, hRun⟩ := Run.bind_eq_ok hRun
    obtain ⟨hCounts, rfl⟩ := Prod.mk.inj hRun
    obtain rfl := Except.ok.inj hCounts
    obtain ⟨hBooks, hPool⟩ := report_books hReport
      (engine.processor.process_comes s.outlets.files path.text s.pool).isRecord_eq
    refine ⟨_, hBooks, ?_⟩
    rw [hPool]
    rfl
  · rename_i hRejects
    simp only [if_neg hRejects]
    obtain ⟨outcome, chosen, hChosen, hRun⟩ := Run.bind_eq_ok hRun
    obtain ⟨hOutcome, rfl⟩ := Prod.mk.inj hChosen
    obtain rfl := Except.ok.inj hOutcome
    obtain ⟨⟨⟩, reported, hReport, hRun⟩ := Run.bind_eq_ok hRun
    obtain ⟨hCounts, rfl⟩ := Prod.mk.inj hRun
    obtain rfl := Except.ok.inj hCounts
    obtain ⟨hBooks, hPool⟩ := report_books hReport (by simp [Outcome.isSuccess])
    exact ⟨_, hBooks, rfl, hPool⟩

/-- A directory has the outcomes of the files that are found in it. -/
theorem runDirectory_books {directory : Path}
    (hRun : (engine.runDirectory directory).run.run s = (.ok counts, after)) :
    ∃ outcomes, engine.Books s.toOutputs outcomes counts after.toOutputs ∧
      ∀ fs files, files = (walk s.outlets.files engine.walkOptions directory).files.map Path.text →
        s.toOutputs.Lastingly (fun now => ∀ path ∈ files,
          engine.processor.source now path = engine.processor.source fs path) →
        inTurn (engine.processor.process fs) files s.pool = (outcomes, after.pool) := by
  rw [runDirectory, Run.get_bind] at hRun
  dsimp only at hRun
  generalize walk s.outlets.files engine.walkOptions directory = result at hRun ⊢
  obtain ⟨⟨⟩, walked, hLog, hRun⟩ := Run.bind_eq_ok hRun
  obtain ⟨-, rfl⟩ := Prod.mk.inj hLog
  cases hStop : result.interruption with
  | some raised =>
    rw [hStop] at hRun
    cases hRun
  | none =>
    rw [hStop] at hRun
    dsimp only at hRun
    by_cases hEmpty : result.files.isEmpty
    · rw [if_pos hEmpty] at hRun
      obtain ⟨hCounts, rfl⟩ := Prod.mk.inj hRun
      obtain rfl := Except.ok.inj hCounts
      refine ⟨[], .nil s.toOutputs, ?_⟩
      rintro fs files rfl -
      rw [List.isEmpty_iff.mp hEmpty]
      rfl
    · rw [if_neg hEmpty] at hRun
      obtain ⟨log, hLogged⟩ := run_after_log engine.reports.verbose .info
        ("Found " ++ toString result.files.length ++ " files to process")
        (runBatch engine.reports engine.task (result.files.map Path.text))
        { s with log := s.log ++ result.log }
      obtain ⟨outcomes, hBooks, hTurns⟩ := runBatch_books (hLogged.symm.trans hRun)
      refine ⟨outcomes, hBooks, ?_⟩
      rintro fs files rfl hSteady
      exact hTurns fs hSteady

/-- What a steady input path leads to is there to be read all the time. -/
theorem Steady.target_eq {fs : FileSystem} {outputs : Outputs} {input : String}
    (hSteady : engine.Steady fs outputs [input]) :
    engine.target fs input = engine.target outputs.outlets.files input ∧
      outputs.Lastingly fun now => ∀ path ∈ (engine.target outputs.outlets.files input).paths,
        engine.processor.source now path = engine.processor.source fs path := by
  have hTarget := (hSteady.now input List.mem_cons_self).1
  rw [hTarget]
  exact ⟨rfl, hSteady.mono fun files hFiles => (hFiles input List.mem_cons_self).2⟩

/-- An input path that was handled has the outcomes that it comes to. -/
theorem runInput_books {input : String}
    (hRun : (engine.runInput input).run.run s = (.ok counts, after)) :
    ∃ outcomes, engine.Books s.toOutputs outcomes counts after.toOutputs ∧
      ∀ fs, engine.Steady fs s.toOutputs [input] →
        engine.inputOutcomes fs input s.pool = (outcomes, after.pool) := by
  rw [runInput] at hRun
  dsimp only at hRun
  rw [Run.get_bind] at hRun
  cases hStat : s.outlets.files.stat (Path.ofString input).text with
  | error refusal =>
    have hTarget : engine.target s.outlets.files input = .nowhere refusal := by
      rw [target, hStat]
    have hNowhere : counts = Counts.ofOutcome (.failed (Path.ofString input).text
          (.fileAccess (Path.ofString input).text (.refused refusal (Path.ofString input).text))) ∧
        after.toOutputs = s.toOutputs ∧ after.pool = s.pool := by
      rw [hStat] at hRun
      cases refusal with
      | nulByte => cases hRun
      | _ =>
        obtain ⟨hCounts, rfl⟩ := Prod.mk.inj hRun
        exact ⟨(Except.ok.inj hCounts).symm, rfl, rfl⟩
    obtain ⟨rfl, hSame, hPool⟩ := hNowhere
    rw [hSame, hPool]
    refine ⟨_, ⟨(Counts.ofOutcomes_singleton _).symm, rfl, by simp [Outcome.isSuccess]⟩, ?_⟩
    intro fs hSteady
    rw [inputOutcomes, hSteady.target_eq.1, hTarget]
  | ok entry =>
    rw [hStat] at hRun
    dsimp only at hRun
    by_cases hDirectory : entry.isDirectory
    · rw [if_pos hDirectory] at hRun
      have hTarget : engine.target s.outlets.files input = .files
          ((walk s.outlets.files engine.walkOptions (Path.ofString input)).files.map Path.text) := by
        rw [target, hStat]
        exact if_pos hDirectory
      obtain ⟨log, hLogged⟩ := run_after_log engine.reports.verbose .info
        ("Processing directory: " ++ (Path.ofString input).text)
        (engine.runDirectory (Path.ofString input)) s
      obtain ⟨outcomes, hBooks, hTurns⟩ := runDirectory_books (hLogged.symm.trans hRun)
      refine ⟨outcomes, hBooks, ?_⟩
      intro fs hSteady
      obtain ⟨hSame, hSources⟩ := hSteady.target_eq
      rw [hTarget] at hSame hSources
      rw [inputOutcomes, hSame]
      exact hTurns fs _ rfl hSources
    · rw [if_neg hDirectory] at hRun
      obtain ⟨outcomes, hBooks, hTurn⟩ := runFile_books hRun
      refine ⟨outcomes, hBooks, ?_⟩
      intro fs hSteady
      obtain ⟨hSame, hSources⟩ := hSteady.target_eq
      by_cases hAccepts : engine.walkOptions.filter.accepts (Path.ofString input).text
      · have hTarget : engine.target s.outlets.files input
            = .files [(Path.ofString input).text] := by
          rw [target, hStat]
          exact (if_neg hDirectory).trans (if_pos hAccepts)
        rw [if_pos hAccepts] at hTurn
        rw [hTarget] at hSame hSources
        rw [inputOutcomes, hSame, ← hTurn]
        refine inTurn_congr (fun path hPath => ?_) s.pool
        exact (engine.processor.process_congr (hSources.now path hPath)).symm
      · have hTarget : engine.target s.outlets.files input = .filtered := by
          rw [target, hStat]
          exact (if_neg hDirectory).trans (if_neg hAccepts)
        rw [if_neg hAccepts] at hTurn
        obtain ⟨rfl, hPool⟩ := hTurn
        rw [inputOutcomes, hSame, hTarget, hPool]

theorem runFrom_books {inputs : List String} {given last : Counts}
    (hRun : (engine.runFrom given inputs).run.run s = (.ok last, after)) :
    ∃ entries counts, engine.Books s.toOutputs entries.flatten counts after.toOutputs ∧
      last = given.merge counts ∧
      ∀ fs, engine.Steady fs s.toOutputs inputs →
        engine.ledger fs inputs s.pool = (entries, after.pool) := by
  induction inputs generalizing given s with
  | nil =>
    obtain ⟨hLast, rfl⟩ := Prod.mk.inj hRun
    obtain rfl := Except.ok.inj hLast
    refine ⟨[], {}, .nil s.toOutputs, ?_, fun _ _ => rfl⟩
    simp only [Counts.merge, Int.add_zero]
  | cons input rest ih =>
    rw [runFrom] at hRun
    obtain ⟨more, reached, hInput, hRest⟩ := Run.bind_eq_ok hRun
    obtain ⟨outcomes, hFirst, hTurn⟩ := runInput_books hInput
    obtain ⟨entries, counts, hBooks, hLast, hLedger⟩ := ih hRest
    refine ⟨outcomes :: entries, more.merge counts, hFirst.append hBooks, ?_, ?_⟩
    · rw [hLast, Counts.merge_assoc]
    · intro fs hSteady
      have hNow : engine.inputOutcomes fs input s.pool = (outcomes, reached.pool) := by
        refine hTurn fs (hSteady.mono fun files hFiles other hOther => ?_)
        obtain rfl := List.mem_singleton.mp hOther
        exact hFiles other List.mem_cons_self
      have hLater := hLedger fs ((hSteady.later hFirst.written).mono
        fun files hFiles other hOther => hFiles other (List.mem_cons_of_mem input hOther))
      rw [ledger] at hLater
      rw [ledger, inTurn_cons, hNow, hLater]

/-! ## What a ledger has -/

variable (engine)

/-- That outcomes are those of all that an input path leads to: one failure, one outcome of a file,
or one outcome of each file that is found in a directory. -/
def Covers (fs : FileSystem) (input : String) (outcomes : List Outcome) : Prop :=
  let path := Path.ofString input
  match fs.stat path.text with
  | .error refusal =>
    outcomes = [.failed path.text (.fileAccess path.text (.refused refusal path.text))]
  | .ok entry =>
    if entry.isDirectory then
      outcomes.map Outcome.path = (walk fs engine.walkOptions path).files.map Path.text
    else ∃ outcome, outcomes = [outcome] ∧ outcome.path = path.text ∧
      (engine.walkOptions.filter.accepts path.text = false →
        outcome = .skipped path.text "filtered")

theorem inputOutcomes_covers (fs : FileSystem) (input : String) (pool : Pool) :
    engine.Covers fs input (engine.inputOutcomes fs input pool).1 := by
  rw [Covers, inputOutcomes, target]
  cases fs.stat (Path.ofString input).text with
  | error refusal => rfl
  | ok entry =>
    dsimp only
    split
    · generalize (walk fs engine.walkOptions (Path.ofString input)).files.map Path.text = files
      have hPaths := inTurn_forall₂ (R := fun path (outcome : Outcome) => outcome.path = path)
        (fun path pool => (engine.processor.process_comes fs path pool).path_eq) files pool
      rw [← List.forall₂_eq_eq_eq, List.forall₂_map_left_iff]
      exact hPaths.flip
    · cases hAccepts : engine.walkOptions.filter.accepts (Path.ofString input).text with
      | true =>
        refine ⟨_, rfl, (engine.processor.process_comes _ _ _).path_eq, ?_⟩
        intro hRejects
        cases hRejects
      | false => exact ⟨_, rfl, rfl, fun _ => rfl⟩

/-- With a sound pool, it does not matter which one it is. -/
theorem inputOutcomes_sound (fs : FileSystem) (input : String) {pool : Pool}
    (hSound : pool.Sound) :
    (engine.inputOutcomes fs input pool).1 = (engine.inputOutcomes fs input {}).1 ∧
      (engine.inputOutcomes fs input pool).2.Sound := by
  rw [inputOutcomes, inputOutcomes]
  cases engine.target fs input with
  | nowhere refusal => exact ⟨rfl, hSound⟩
  | filtered => exact ⟨rfl, hSound⟩
  | files paths =>
    have hProcess : ∀ path (pool : Pool), pool.Sound → _ ∧ _ := fun path _ hPool =>
      engine.processor.process_sound fs path hPool
    obtain ⟨hOutcomes, hAfter⟩ := inTurn_sound hProcess paths hSound
    obtain ⟨hFresh, -⟩ := inTurn_sound hProcess paths (Pool.sound_empty _ _)
    exact ⟨hOutcomes.trans hFresh.symm, hAfter⟩

theorem ledger_sound (fs : FileSystem) (inputs : List String) {pool : Pool}
    (hSound : pool.Sound) :
    (engine.ledger fs inputs pool).1 = inputs.map (fun input => (engine.inputOutcomes fs input {}).1) ∧
      (engine.ledger fs inputs pool).2.Sound :=
  inTurn_sound (fun input _ hPool => engine.inputOutcomes_sound fs input hPool) inputs hSound

/-! ## Workers -/

/-- The files that an input path leads to, as a batch for workers. -/
def batch (fs : FileSystem) (input : String) : Dispatch :=
  { grammars := engine.processor.grammars
    work := engine.processor.work fs
    options := engine.reports
    files := (engine.target fs input).paths }

/-- However many workers there are, and in whatever order their steps come, they leave behind what
the outcomes of the files do. -/
theorem batch_books {fs : FileSystem} {input : String} (hSound : s.pool.Sound)
    (hReady : s.toOutputs.Ready) {handled : List (String × Outcome)}
    (hEnds : (engine.batch fs input).Ends s handled counts after) :
    engine.Books s.toOutputs (handled.map Prod.snd) counts after.toOutputs ∧
      (handled.map Prod.snd).Perm
        (inTurn (engine.processor.process fs) (engine.target fs input).paths s.pool).1 ∧
      after.pool.Sound := by
  have hTurns := (inTurn_sound (fun path _ hPool => engine.processor.process_sound fs path hPool)
    (engine.target fs input).paths hSound).1
  rw [hTurns]
  cases hEnds with
  | nothing hFiles =>
    have hNone : (engine.target fs input).paths = [] := hFiles
    rw [hNone]
    exact ⟨.nil s.toOutputs, .nil, hSound⟩
  | done hFiles hSteps hDone =>
    rename_i state
    have h := (Dispatch.Invariant.start _ hSound hReady).steps hSteps
    have hPairs := (h.handled_perm hDone).map Prod.snd
    rw [List.map_map] at hPairs
    refine ⟨⟨h.counts, h.told.written, ?_⟩, hPairs, h.sound⟩
    intro outcome hOutcome hSuccess
    obtain ⟨path, -, rfl⟩ := List.mem_map.mp (hPairs.subset hOutcome)
    have hProcess := (engine.processor.process_sound fs path hSound).1
    have hRecord := (engine.processor.process_comes fs path s.pool).isRecord_eq
    rw [hProcess] at hRecord
    exact hRecord hSuccess

/-! ## Runs -/

/-- A run that goes on from counts adds them to its own. -/
theorem runFrom_eq_ok {engine : Engine} {given counts : Counts} {inputs : List String} :
    (engine.runFrom given inputs).run.run s = (.ok counts, after) ↔
      ∃ more, (engine.runInputs inputs).run.run s = (.ok more, after) ∧
        counts = given.merge more := by
  rw [runInputs]
  have hMap : engine.runFrom given inputs
      = engine.runFrom {} inputs >>= fun more => pure (given.merge more) := by
    induction inputs generalizing given with
    | nil => simp [runFrom, Counts.merge]
    | cons input rest ih =>
      rw [runFrom, runFrom, bind_assoc]
      refine bind_congr fun more => ?_
      rw [Counts.empty_merge, ih, @ih more, bind_assoc]
      simp only [pure_bind, Counts.merge_assoc]
  rw [hMap]
  constructor
  · intro hRun
    obtain ⟨more, reached, hMore, hLast⟩ := Run.bind_eq_ok hRun
    obtain ⟨hCounts, rfl⟩ := Prod.mk.inj hLast
    exact ⟨more, hMore, (Except.ok.inj hCounts).symm⟩
  · rintro ⟨more, hMore, rfl⟩
    exact Run.bind_ok hMore

/-- A run over input paths and others after them is a run over the former and then one over the
latter, and has the counts of both. -/
theorem runInputs_append {earlier later : List String} :
    (engine.runInputs (earlier ++ later)).run.run s = (.ok counts, after) ↔
      ∃ first middle second, (engine.runInputs earlier).run.run s = (.ok first, middle) ∧
        (engine.runInputs later).run.run middle = (.ok second, after) ∧
        counts = first.merge second := by
  have hAppend := engine.runFrom_append {} earlier later
  rw [runInputs, hAppend]
  constructor
  · intro hRun
    obtain ⟨first, middle, hFirst, hRest⟩ := Run.bind_eq_ok hRun
    obtain ⟨second, hSecond, hCounts⟩ := runFrom_eq_ok.mp hRest
    exact ⟨first, middle, second, hFirst, hSecond, hCounts⟩
  · rintro ⟨first, middle, second, hFirst, hSecond, hCounts⟩
    have hRest := runFrom_eq_ok.mpr ⟨second, hSecond, hCounts⟩
    exact (Run.bind_ok hFirst).trans hRest

theorem runInputs_books {engine : Engine} {inputs : List String}
    (hRun : (engine.runInputs inputs).run.run s = (.ok counts, after)) :
    ∃ entries, engine.Books s.toOutputs entries.flatten counts after.toOutputs ∧
      ∀ fs, engine.Steady fs s.toOutputs inputs →
        engine.ledger fs inputs s.pool = (entries, after.pool) := by
  obtain ⟨entries, more, hBooks, hCounts, hLedger⟩ := runFrom_books hRun
  rw [Counts.empty_merge] at hCounts
  subst hCounts
  exact ⟨entries, hBooks, hLedger⟩

/-- As long as the sinks write to no file, all input paths stay as they are. -/
theorem steady_of_fileless (engine : Engine) {outputs : Outputs} (hFileless : outputs.Fileless)
    (inputs : List String) : engine.Steady outputs.outlets.files outputs inputs := by
  refine hFileless.lastingly.mono ?_
  rintro files rfl input -
  exact ⟨rfl, fun _ _ => rfl⟩

/-- A run that writes to no file answers counts if none of its input paths is an obstacle. -/
theorem runInputs_of_fileless {engine : Engine} {s : Session} {inputs : List String}
    (hFileless : s.toOutputs.Fileless)
    (hClear : ∀ input ∈ inputs, engine.obstacle? s.outlets.files input = none) :
    ∃ counts after, (engine.runInputs inputs).run.run s = (.ok counts, after) := by
  rcases engine.runFrom_spec {} inputs hFileless.ready with
    ⟨counts, after, hRun, -⟩ | ⟨raised, after, -, hStops⟩
  · exact ⟨counts, after, hRun⟩
  · obtain ⟨earlier, input, later, last, reached, rfl, hEarlier, hObstacle⟩ := hStops
    obtain ⟨entries, counts, hBooks, -⟩ := runFrom_books hEarlier
    have hFiles := hFileless.lastingly _ _ hBooks.written
    rw [hFiles, hClear input (by simp)] at hObstacle
    cases hObstacle

/-- A run over input paths and others after them is a run over the former and then one over the
latter, and its counts are those of both together.  A run answers the counts of its ledger, in which
each input path has one failure, one outcome, or the outcomes of exactly the files that are found in
it; and it writes as many records as files were parsed, or none in a dry run.  With a sound pool,
the counts do not depend on what went before, nor, in a directory, on the order in which any number
of workers come to its files. -/
theorem runInputs_accounts (engine : Engine) (s : Session) :
    (∀ earlier later counts after,
      (engine.runInputs (earlier ++ later)).run.run s = (.ok counts, after) ↔
        ∃ first middle second, (engine.runInputs earlier).run.run s = (.ok first, middle) ∧
          (engine.runInputs later).run.run middle = (.ok second, after) ∧
          counts = first.merge second) ∧
    (∀ inputs counts after, (engine.runInputs inputs).run.run s = (.ok counts, after) →
      (after.sink.written : Int)
          = s.sink.written + (if engine.processor.options.dryRun then 0 else counts.success) ∧
      ∀ fs, engine.Steady fs s.toOutputs inputs →
        ∃ entries, engine.ledger fs inputs s.pool = (entries, after.pool) ∧
          List.Forall₂ (engine.Covers fs) inputs entries ∧
          counts = Counts.ofOutcomes entries.flatten ∧
          after.sink.written = s.sink.written + entries.flatten.countP Outcome.isRecord ∧
          (s.pool.Sound → after.pool.Sound ∧
            ∀ other otherCounts otherAfter, other.pool.Sound →
              engine.Steady fs other.toOutputs inputs →
              (engine.runInputs inputs).run.run other = (.ok otherCounts, otherAfter) →
              otherCounts = counts)) ∧
    ∀ fs input, s.pool.Sound → s.toOutputs.Ready → ∀ handled counts after,
      (engine.batch fs input).Ends s handled counts after →
        (handled.map Prod.snd).Perm
            (inTurn (engine.processor.process fs) (engine.target fs input).paths s.pool).1 ∧
        counts = Counts.ofOutcomes
            (inTurn (engine.processor.process fs) (engine.target fs input).paths s.pool).1 ∧
        (after.sink.written : Int)
          = s.sink.written + (if engine.processor.options.dryRun then 0 else counts.success) := by
  have hRecords : ∀ {outcomes : List Outcome} {counts : Counts} {after : Session},
      engine.Books s.toOutputs outcomes counts after.toOutputs → (after.sink.written : Int)
        = s.sink.written + (if engine.processor.options.dryRun then 0 else counts.success) := by
    intro outcomes counts after hBooks
    rw [hBooks.sink_written.1, Int.natCast_add, hBooks.sink_written.2]
  refine ⟨fun earlier later counts after => engine.runInputs_append, ?_, ?_⟩
  · intro inputs counts after hRun
    obtain ⟨entries, hBooks, hLedger⟩ := runInputs_books hRun
    refine ⟨hRecords hBooks, ?_⟩
    intro fs hSteady
    have hEntries := hLedger fs hSteady
    refine ⟨entries, hEntries, ?_, hBooks.counts_eq, hBooks.sink_written.1, ?_⟩
    · have hCovers := inTurn_forall₂ (engine.inputOutcomes_covers fs) inputs s.pool
      rw [← ledger, hEntries] at hCovers
      exact hCovers
    · intro hSound
      obtain ⟨hHere, hAfter⟩ := engine.ledger_sound fs inputs hSound
      rw [hEntries] at hHere hAfter
      refine ⟨hAfter, ?_⟩
      intro other otherCounts otherAfter hOther hOtherSteady hOtherRun
      obtain ⟨others, hOtherBooks, hOtherLedger⟩ := runInputs_books hOtherRun
      have hThere := (engine.ledger_sound fs inputs hOther).1
      rw [hOtherLedger fs hOtherSteady] at hThere
      have hSame : others = entries := hThere.trans hHere.symm
      rw [hOtherBooks.counts_eq, hBooks.counts_eq, hSame]
  · intro fs input hSound hReady handled counts after hEnds
    obtain ⟨hBooks, hPerm, -⟩ := engine.batch_books hSound hReady hEnds
    refine ⟨hPerm, ?_, hRecords hBooks⟩
    rw [hBooks.counts_eq]
    exact Counts.ofOutcomes_perm hPerm

/-- An input path that leads nowhere is one failure, and the file after it has its record. -/
theorem runInputs_accounts_mixed :
    let engine : Engine := { processor := .leafy, reports := { threads := 1 } }
    let s : Session := { outlets := { files := Processor.twoFiles } }
    ∃ after, (engine.runInputs ["gone", "solo.go"]).run.run s = (.ok ⟨1, 1, 0⟩, after) ∧
      s.pool.Sound ∧ engine.Steady Processor.twoFiles s.toOutputs ["gone", "solo.go"] ∧
      after.sink.written = 1 := by
  intro engine s
  have hTexts : (Path.ofString "gone").text = "gone" ∧
      (Path.ofString "solo.go").text = "solo.go" := by decide
  obtain ⟨hGone, hSolo⟩ := hTexts
  have hStat := Processor.stat_twoFiles
  have hSink : s.sink.Prints := ⟨rfl, Or.inl rfl⟩
  have hNotices : s.notices.Prints := ⟨rfl, Or.inl rfl⟩
  have hFileless : s.toOutputs.Fileless := ⟨hSink.fileless, hNotices.fileless⟩
  have hSteady : engine.Steady Processor.twoFiles s.toOutputs ["gone", "solo.go"] :=
    engine.steady_of_fileless hFileless _
  have hSound : s.pool.Sound := Pool.sound_empty _ _
  have hClear : ∀ input ∈ ["gone", "solo.go"], engine.obstacle? s.outlets.files input = none := by
    simp [obstacle?, hGone, hSolo, hStat, s, Entry.isDirectory]
  obtain ⟨counts, after, hRun⟩ := runInputs_of_fileless hFileless hClear
  obtain ⟨hRecords, hLedger⟩ := (runInputs_accounts engine s).2.1 _ _ _ hRun
  obtain ⟨entries, hEntries, hCovers, hCounts, -⟩ := hLedger Processor.twoFiles hSteady
  have hAccepts : engine.walkOptions.filter.accepts "solo.go" = true := Filter.accepts_empty _
  obtain ⟨language, rendered, document, hProcess⟩ := Processor.leafy_process
  have hTurns : (engine.ledger Processor.twoFiles ["gone", "solo.go"] s.pool).1
      = [[.failed "gone" (.fileAccess "gone" (.refused .notFound "gone"))],
          [.success "solo.go" language rendered (some document) false]] := by
    simp [ledger, inTurn, inputOutcomes, target, hGone, hSolo, hStat, hAccepts, Entry.isDirectory,
      s, engine, hProcess]
  rw [hEntries] at hTurns
  obtain rfl : counts = ⟨1, 1, 0⟩ := by
    rw [hCounts, show entries = _ from hTurns]
    rfl
  exact ⟨after, hRun, hSound, hSteady, Int.ofNat_inj.mp hRecords⟩

end Engine

end TreeDump
