import TreeDump.Proofs.Run.Ledger
import TreeDump.Run.Workers

/-!
# One file after the other is a run with workers

A run that handles one file after the other does what a run with workers may do if only one of them
is ever busy and each file is told of before the next one is taken.  So what holds of all runs with
workers holds of it, and it tells of the files in the order in which they are handed over.

* `State.withJob_work`: the steps of one worker do the work on a file as it is done in one go.
* `Dispatch.steps_next`: as soon as a worker is free, the next file may be told of before any other.
* `Engine.runFiles_steps`: files that are handled one after the other.
* `Engine.runInputs_runs`: runs over input paths, as long as what they read stays as it is.
-/

namespace TreeDump

namespace Dispatch

variable {d : Dispatch}

theorem Steps.trans {first middle last : State} (hEarlier : d.Steps first middle)
    (hLater : d.Steps middle last) : d.Steps first last := by
  induction hLater with
  | none => exact hEarlier
  | more _ hStep ih => exact ih.more hStep

/-! ## One worker among others -/

namespace State

/-- A state in which one more worker is busy. -/
def withJob (state : State) (path : String) (stage : Stage) (pool : Pool) : State :=
  { state with
    running := state.running ++ [⟨path, stage⟩]
    session := { state.session with pool } }

variable (state : State) (path language : String) (bytes : ByteArray)
  (resume : Except Raised (Option SyntaxTree) → Work)

theorem withJob_step {stage next : Stage} {pool after : Pool}
    (hStep : stage.step d.grammars pool = some (next, after)) :
    d.Steps (state.withJob path stage pool) (state.withJob path next after) :=
  .more .none
    (@Step.work d (state.withJob path stage pool) state.running [] ⟨path, stage⟩ next after rfl
      hStep)

/-- With a parser in hand, the worker uses it, and puts it back unless the use failed. -/
theorem withJob_use (parser : Nat) (pool : Pool) :
    d.Steps (state.withJob path (.holding language parser bytes resume) pool)
      (match pool.action d.grammars language parser bytes with
        | .ok tree =>
          state.withJob path (.working (resume (.ok tree))) (pool.release language parser)
        | .error raised => state.withJob path (.working (resume (.error raised))) pool) := by
  cases hAction : pool.action d.grammars language parser bytes with
  | ok tree =>
    have hUsed : (Stage.holding language parser bytes resume).step d.grammars pool
        = some (.returning language parser tree resume, pool) := by
      rw [Stage.step, hAction]
    exact (state.withJob_step path hUsed).trans (state.withJob_step path rfl)
  | error raised =>
    have hFailed : (Stage.holding language parser bytes resume).step d.grammars pool
        = some (.working (resume (.error raised)), pool) := by
      rw [Stage.step, hAction]
    exact state.withJob_step path hFailed

theorem withJob_parse (pool : Pool) :
    d.Steps (state.withJob path (.working (.parse language bytes resume)) pool)
      (state.withJob path (.working (resume (pool.parse d.grammars language bytes).1))
        (pool.parse d.grammars language bytes).2) := by
  rw [Pool.parse, Pool.borrow, Pool.acquire]
  cases hTake : pool.take language with
  | mk found taken =>
    cases found with
    | some parser =>
      have hTaken : (Stage.working (.parse language bytes resume)).step d.grammars pool
          = some (.holding language parser bytes resume, taken) := by
        rw [Stage.step, hTake]
      have hUse := state.withJob_use (d := d) path language bytes resume parser taken
      dsimp only
      cases hAction : taken.action d.grammars language parser bytes with
      | ok tree =>
        rw [hAction] at hUse
        exact (state.withJob_step path hTaken).trans hUse
      | error raised =>
        rw [hAction] at hUse
        exact (state.withJob_step path hTaken).trans hUse
    | none =>
      have hMissed : (Stage.working (.parse language bytes resume)).step d.grammars pool
          = some (.building language bytes resume, taken) := by
        rw [Stage.step, hTake]
      dsimp only
      cases hBuild : taken.build d.grammars language with
      | mk answer built =>
        cases answer with
        | ok parser =>
          have hBuilt : (Stage.building language bytes resume).step d.grammars taken
              = some (.holding language parser bytes resume, built) := by
            rw [Stage.step, hBuild]
          have hUse := state.withJob_use (d := d) path language bytes resume parser built
          have hHeld := (state.withJob_step path hMissed).trans (state.withJob_step path hBuilt)
          dsimp only
          cases hAction : built.action d.grammars language parser bytes with
          | ok tree =>
            rw [hAction] at hUse
            exact hHeld.trans hUse
          | error raised =>
            rw [hAction] at hUse
            exact hHeld.trans hUse
        | error raised =>
          have hRefused : (Stage.building language bytes resume).step d.grammars taken
              = some (.working (resume (.error raised)), built) := by
            rw [Stage.step, hBuild]
          exact (state.withJob_step path hMissed).trans (state.withJob_step path hRefused)

/-- The steps of a worker do the work on a file as it is done in one go. -/
theorem withJob_work (work : Work) (pool : Pool) :
    d.Steps (state.withJob path (.working work) pool)
      (state.withJob path (.working (.finish (work.run d.grammars pool).1))
        (work.run d.grammars pool).2) := by
  induction work generalizing pool with
  | finish result => exact .none
  | parse language bytes resume ih =>
    rw [Work.run]
    exact (state.withJob_parse path language bytes resume pool).trans (ih _ _)

end State

/-- As soon as a worker is free, the file that is next in the queue may be worked on and told of
before any other, those included that are being worked on. -/
theorem steps_next {state : State} {path : String} {rest : List String} {after : Session}
    {result : Except Raised Outcome} {pool : Pool} (hQueue : state.queue = path :: rest)
    (hFree : state.running.length < d.options.threads)
    (hWork : (d.work path).run d.grammars state.session.pool = (result, pool))
    (hHandle : (handle d.options d.files.length (.ofResult path result)).run.run
      { state.session with pool } = (.ok (), after)) :
    d.Steps state { state with
      session := after
      queue := rest
      handled := state.handled ++ [(path, .ofResult path result)]
      counts := state.counts.add (.ofResult path result) } := by
  let taken : State := { state with queue := rest }
  have hTaken : d.Steps state (taken.withJob path (.working (d.work path)) state.session.pool) :=
    .more .none (.start hQueue hFree)
  have hDone := hTaken.trans (taken.withJob_work path (d.work path) state.session.pool)
  rw [hWork] at hDone
  have hFinished := hDone.more (@Step.finish d _ state.running [] path result rfl)
  have hTold := hFinished.more
    (@Step.handle d _ state.finished [] path (.ofResult path result) after rfl hHandle)
  simp only [List.append_nil] at hTold
  exact hTold

end Dispatch

/-! ## Files that stay as they are -/

namespace Engine

variable (engine : Engine)

/-- That an input path, the walk from it and the files there are in one file system what they are in
another. -/
structure SeesSame (fs now : FileSystem) (input : String) : Prop where
  stat_eq : (now.stat (Path.ofString input).text).map Entry.isDirectory
    = (fs.stat (Path.ofString input).text).map Entry.isDirectory
  walk_eq : walk now engine.walkOptions (Path.ofString input)
    = walk fs engine.walkOptions (Path.ofString input)
  source_eq : ∀ path ∈ engine.submitted fs input,
    engine.processor.source now path = engine.processor.source fs path

/-- That all that a run reads stays as it is in a file system, whatever is written. -/
def Unchanging (fs : FileSystem) (outputs : Outputs) (inputs : List String) : Prop :=
  outputs.Lastingly fun now => ∀ input ∈ inputs, engine.SeesSame fs now input

/-- As long as the sinks write to no file, nothing changes that a run reads. -/
theorem unchanging_of_fileless {outputs : Outputs} (hFileless : outputs.Fileless)
    (inputs : List String) : engine.Unchanging outputs.outlets.files outputs inputs := by
  refine hFileless.lastingly.mono ?_
  rintro files rfl input -
  exact ⟨rfl, rfl, fun _ _ => rfl⟩

variable {engine} {fs : FileSystem} {s after : Session} {counts : Counts}

/-- Files that are handled one after the other are handled as by one worker. -/
theorem runFiles_steps {all files : List String} (handled : List (String × Outcome))
    {given last : Counts} (hThreads : 1 ≤ engine.reports.threads)
    (hRun : (runFiles engine.reports all.length engine.task given files).run.run s
      = (.ok last, after))
    (hSteady : s.toOutputs.Lastingly fun now => ∀ path ∈ files,
      engine.processor.source now path = engine.processor.source fs path) :
    ∃ more, more.map Prod.fst = files ∧
      (engine.shared fs all).Steps { session := s, queue := files, handled, counts := given }
        { session := after, queue := [], handled := handled ++ more, counts := last } := by
  induction files generalizing given s handled with
  | nil =>
    obtain ⟨hLast, rfl⟩ := Prod.mk.inj hRun
    obtain rfl := Except.ok.inj hLast
    exact ⟨[], rfl, by rw [List.append_nil]; exact .none⟩
  | cons path rest ih =>
    rw [runFiles] at hRun
    obtain ⟨outcome, tasked, hTask, hRun⟩ := Run.bind_eq_ok hRun
    obtain ⟨⟨⟩, told, hHandle, hRest⟩ := Run.bind_eq_ok hRun
    have hProcess := Run.tryCatch_ok (f := fun raised => pure (.interrupted path raised))
      (engine.task_process path s)
    obtain ⟨hOutcome, rfl⟩ := Prod.mk.inj (hTask.symm.trans hProcess)
    obtain rfl := Except.ok.inj hOutcome
    have hWritten : ∃ emissions, s.toOutputs.writeAll emissions = .ok told.toOutputs := by
      rw [handle] at hHandle
      obtain ⟨⟨⟩, reported, hReport, hProgress⟩ := Run.bind_eq_ok hHandle
      obtain ⟨-, rfl⟩ := Prod.mk.inj hProgress
      exact ⟨_, (report_eq_ok hReport).1⟩
    obtain ⟨emissions, hWritten⟩ := hWritten
    have hLater := (hSteady.later hWritten).mono fun files hFiles other hOther =>
      hFiles other (List.mem_cons_of_mem path hOther)
    rw [engine.processor.process_congr (hSteady.now path List.mem_cons_self)] at hHandle hRest
    let told : String × Outcome := (path, (engine.processor.process fs path s.pool).1)
    let waiting : Dispatch.State :=
      { session := s, queue := path :: rest, handled, counts := given }
    have hFree : (waiting.running.length : Int) < engine.reports.threads := by
      rw [show waiting.running.length = 0 from rfl]
      omega
    have hNext := @Dispatch.steps_next (engine.shared fs all) waiting path rest _ _ _ rfl hFree rfl
      hHandle
    obtain ⟨more, hPaths, hSteps⟩ := ih (handled ++ [told]) hRest hLater
    refine ⟨told :: more, congrArg (path :: ·) hPaths, hNext.trans ?_⟩
    rw [← List.append_cons] at hSteps
    exact hSteps

/-- A batch of files that are handled one after the other ends as one with workers may end. -/
theorem runBatch_ends {files : List String} (hThreads : 1 ≤ engine.reports.threads)
    (hRun : (runBatch engine.reports engine.task files).run.run s = (.ok counts, after))
    (hSteady : s.toOutputs.Lastingly fun now => ∀ path ∈ files,
      engine.processor.source now path = engine.processor.source fs path) :
    ∃ handled, handled.map Prod.fst = files ∧
      (engine.shared fs files).Ends s handled counts after := by
  cases files with
  | nil =>
    obtain ⟨hCounts, rfl⟩ := Prod.mk.inj hRun
    obtain rfl := Except.ok.inj hCounts
    exact ⟨[], rfl, .nothing rfl⟩
  | cons path rest =>
    rw [runBatch] at hRun
    simp only [List.isEmpty_cons, Bool.false_eq_true, if_false] at hRun
    obtain ⟨⟨⟩, started, hStart, hRun⟩ := Run.bind_eq_ok hRun
    obtain ⟨-, rfl⟩ := Prod.mk.inj hStart
    obtain ⟨reached, done, hFiles, hRun⟩ := Run.bind_eq_ok hRun
    obtain ⟨⟨⟩, told, hEnd, hRun⟩ := Run.bind_eq_ok hRun
    obtain ⟨-, rfl⟩ := Prod.mk.inj hEnd
    obtain ⟨hCounts, rfl⟩ := Prod.mk.inj hRun
    obtain rfl := Except.ok.inj hCounts
    obtain ⟨handled, hPaths, hSteps⟩ := runFiles_steps [] hThreads hFiles hSteady
    exact ⟨handled, hPaths, .done (List.cons_ne_nil _ _) hSteps ⟨rfl, rfl, rfl⟩⟩

/-! ## Input paths -/

theorem runFile_handles {input : String} {entry : Entry}
    (hStat : fs.stat (Path.ofString input).text = .ok entry) (hFile : entry.isDirectory = false)
    (hSame : engine.processor.source s.outlets.files (Path.ofString input).text
      = engine.processor.source fs (Path.ofString input).text)
    (hRun : (engine.runFile (Path.ofString input)).run.run s = (.ok counts, after)) :
    ∃ outcome, engine.Handles fs s input [((Path.ofString input).text, outcome)] counts after := by
  have hTold : ∀ outcome pool, engine.named fs (Path.ofString input).text s.pool = (outcome, pool) →
      (report engine.reports outcome >>= fun _ => pure (Counts.ofOutcome outcome)).run.run
        { s with pool } = (.ok counts, after) →
      ∃ outcome, engine.Handles fs s input [((Path.ofString input).text, outcome)] counts after := by
    intro outcome pool hNamed hRun
    obtain ⟨⟨⟩, reported, hReport, hRun⟩ := Run.bind_eq_ok hRun
    obtain ⟨hCounts, rfl⟩ := Prod.mk.inj hRun
    obtain rfl := Except.ok.inj hCounts
    exact ⟨outcome, .file hStat hFile hNamed hReport⟩
  rw [runFile] at hRun
  split at hRun
  · rename_i hAccepts
    refine hTold _ _ ?_ ((Run.bind_ok (engine.task_process _ s)).symm.trans hRun)
    rw [named, if_pos hAccepts, engine.processor.process_congr hSame]
  · rename_i hRejects
    have hNamed : engine.named fs (Path.ofString input).text s.pool
        = (.skipped (Path.ofString input).text "filtered", s.pool) := by
      rw [named, if_neg hRejects]
    exact hTold _ _ hNamed hRun

theorem runDirectory_handles {input : String} {entry : Entry}
    (hThreads : 1 ≤ engine.reports.threads)
    (hStat : fs.stat (Path.ofString input).text = .ok entry) (hDirectory : entry.isDirectory = true)
    (hSteady : engine.Unchanging fs s.toOutputs [input])
    {log : List LogRecord}
    (hRun : (engine.runDirectory (Path.ofString input)).run.run { s with log }
      = (.ok counts, after)) :
    ∃ handled, handled.map Prod.fst = engine.submitted fs input ∧
      engine.Handles fs s input handled counts after := by
  have hFiles : engine.submitted fs input
      = (walk fs engine.walkOptions (Path.ofString input)).files.map Path.text := by
    rw [submitted, hStat]
    exact if_pos hDirectory
  have hSources : s.toOutputs.Lastingly fun now => ∀ path ∈ engine.submitted fs input,
      engine.processor.source now path = engine.processor.source fs path :=
    hSteady.mono fun now hNow => (hNow input List.mem_cons_self).source_eq
  rw [runDirectory, Run.get_bind] at hRun
  dsimp only at hRun
  rw [(hSteady.now input List.mem_cons_self).walk_eq] at hRun
  obtain ⟨⟨⟩, walked, hLog, hRun⟩ := Run.bind_eq_ok hRun
  obtain ⟨-, rfl⟩ := Prod.mk.inj hLog
  cases hStop : (walk fs engine.walkOptions (Path.ofString input)).interruption with
  | some raised =>
    rw [hStop] at hRun
    cases hRun
  | none =>
    rw [hStop] at hRun
    dsimp only at hRun
    split at hRun
    · rename_i hEmpty
      obtain ⟨hCounts, rfl⟩ := Prod.mk.inj hRun
      obtain rfl := Except.ok.inj hCounts
      rw [List.isEmpty_iff.mp hEmpty] at hFiles
      exact ⟨[], hFiles.symm, .directory hStat hDirectory hStop
        (.nothing (congrArg (List.map Path.text) (List.isEmpty_iff.mp hEmpty)))⟩
    · obtain ⟨told, hTold⟩ := run_after_log engine.reports.verbose .info
        ("Found " ++ toString (walk fs engine.walkOptions (Path.ofString input)).files.length
          ++ " files to process")
        (runBatch engine.reports engine.task
          ((walk fs engine.walkOptions (Path.ofString input)).files.map Path.text))
        { s with log := log ++ (walk fs engine.walkOptions (Path.ofString input)).log }
      rw [hFiles] at hSources ⊢
      obtain ⟨handled, hPaths, hEnds⟩ := runBatch_ends hThreads (hTold.symm.trans hRun) hSources
      exact ⟨handled, hPaths, .directory hStat hDirectory hStop hEnds⟩

theorem runInput_handles {input : String} (hThreads : 1 ≤ engine.reports.threads)
    (hSteady : engine.Unchanging fs s.toOutputs [input])
    (hRun : (engine.runInput input).run.run s = (.ok counts, after)) :
    ∃ handled, handled.map Prod.fst = engine.submitted fs input ∧
      engine.Handles fs s input handled counts after := by
  have hSame := hSteady.now input List.mem_cons_self
  have hStatEq := hSame.stat_eq
  rw [runInput] at hRun
  dsimp only at hRun
  rw [Run.get_bind] at hRun
  cases hStat : fs.stat (Path.ofString input).text with
  | error refusal =>
    have hHere : s.outlets.files.stat (Path.ofString input).text = .error refusal := by
      rw [hStat] at hStatEq
      cases hNow : s.outlets.files.stat (Path.ofString input).text with
      | error other =>
        rw [hNow] at hStatEq
        exact congrArg Except.error (Except.error.inj hStatEq)
      | ok entry =>
        rw [hNow] at hStatEq
        cases hStatEq
    have hSubmitted : engine.submitted fs input = [(Path.ofString input).text] := by
      rw [submitted, hStat]
    rw [hHere] at hRun
    rw [hSubmitted]
    refine ⟨[((Path.ofString input).text, unreachable (Path.ofString input).text refusal)], rfl, ?_⟩
    cases refusal with
    | nulByte => cases hRun
    | _ =>
      obtain ⟨hCounts, rfl⟩ := Prod.mk.inj hRun
      rw [← Except.ok.inj hCounts]
      exact .nowhere hStat (by simp)
  | ok entry =>
    rw [hStat] at hStatEq
    cases hHere : s.outlets.files.stat (Path.ofString input).text with
    | error refusal =>
      rw [hHere] at hStatEq
      cases hStatEq
    | ok here =>
      have hKind : here.isDirectory = entry.isDirectory := by
        rw [hHere] at hStatEq
        exact Except.ok.inj hStatEq
      rw [hHere] at hRun
      dsimp only at hRun
      rw [hKind] at hRun
      cases hDirectory : entry.isDirectory with
      | true =>
        rw [hDirectory, if_pos rfl] at hRun
        obtain ⟨log, hLogged⟩ := run_after_log engine.reports.verbose .info
          ("Processing directory: " ++ (Path.ofString input).text)
          (engine.runDirectory (Path.ofString input)) s
        exact runDirectory_handles hThreads hStat hDirectory hSteady (hLogged.symm.trans hRun)
      | false =>
        rw [hDirectory, if_neg Bool.false_ne_true] at hRun
        have hSubmitted : engine.submitted fs input = [(Path.ofString input).text] := by
          rw [submitted, hStat]
          exact if_neg (by rw [hDirectory]; exact Bool.false_ne_true)
        have hSource := hSame.source_eq (Path.ofString input).text
          (by rw [hSubmitted]; exact List.mem_cons_self)
        obtain ⟨outcome, hHandles⟩ := runFile_handles hStat hDirectory hSource hRun
        exact ⟨[(_, outcome)], hSubmitted.symm, hHandles⟩

/-- As long as what it reads stays as it is, a run over input paths is one that may come about with
workers, with the files told of in the order in which they are handed over. -/
theorem runInputs_runs {inputs : List String} (hThreads : 1 ≤ engine.reports.threads)
    (hSteady : engine.Unchanging fs s.toOutputs inputs)
    (hRun : (engine.runInputs inputs).run.run s = (.ok counts, after)) :
    ∃ entries, engine.Runs fs s inputs entries counts after ∧ engine.InOrder fs inputs entries := by
  induction inputs generalizing s counts with
  | nil =>
    obtain ⟨hCounts, rfl⟩ := Prod.mk.inj hRun
    obtain rfl := Except.ok.inj hCounts
    exact ⟨[], .nil s, rfl⟩
  | cons input rest ih =>
    rw [runInputs, runFrom] at hRun
    obtain ⟨first, middle, hInput, hRest⟩ := Run.bind_eq_ok hRun
    rw [Counts.empty_merge] at hRest
    obtain ⟨more, hMore, rfl⟩ := runFrom_eq_ok.mp hRest
    obtain ⟨_, hBooks, -⟩ := runInput_books hInput
    have hHere : engine.Unchanging fs s.toOutputs [input] :=
      hSteady.mono fun now hNow other hOther => by
        obtain rfl := List.mem_singleton.mp hOther
        exact hNow other List.mem_cons_self
    have hLater : engine.Unchanging fs middle.toOutputs rest :=
      (hSteady.later hBooks.written).mono fun now hNow other hOther =>
        hNow other (List.mem_cons_of_mem input hOther)
    obtain ⟨handled, hPaths, hHandles⟩ := runInput_handles hThreads hHere hInput
    obtain ⟨entries, hRuns, hOrder⟩ := ih hLater hMore
    refine ⟨handled :: entries, .cons hHandles hRuns, ?_⟩
    rw [InOrder, List.map_cons, List.map_cons, hPaths, hOrder]

end Engine

end TreeDump
