import TreeDump.Proofs.Run.Borrowings
import TreeDump.Proofs.Run.Submission

/-!
# What is told does not matter

How many workers there are, what is told and shown meanwhile, and which parsers idle at the start:
none of these has a part in what files come to.  A batch of files takes the same steps with any
sinks, so the steps with sinks that take everything say what it comes to; and what an input path
comes to is settled by the files, the registry and the options of the walk and of the processing.

* `Dispatch.Steps.shadow`: the same steps with other sinks.
* `Dispatch.Steps.written`: what the steps of a batch write.
* `Dispatch.exists_overtaken`: with two workers, files need not be told of in their order.
* `Engine.due`: the files of an input path with what they come to.
* `Engine.Handles.settles`, `Engine.Runs.settles`: what all runs have in common.
* `Engine.exists_runs`: there is a run with other reports, and with any processor, if there is one at
  all.
* `Engine.runs_independent`: two runs that differ in their reports, workers and parsers.
-/

namespace TreeDump

namespace Dispatch

variable {d : Dispatch} {state next last : State} {s t : Session}

/-! ## The same steps with other sinks -/

/-- A step can be taken with any sinks that take everything, as long as the pool is the same. -/
theorem Step.shadow (hStep : d.Step state next) (hPool : t.pool = state.session.pool)
    (hReady : t.toOutputs.Ready) :
    ∃ after, d.Step { state with session := t } { next with session := after } ∧
      after.pool = next.session.pool ∧ after.toOutputs.Ready := by
  cases hStep with
  | start hQueue hFree => exact ⟨t, .start hQueue hFree, hPool, hReady⟩
  | @work before after job stage pool hRunning hStep =>
    rw [← hPool] at hStep
    exact ⟨{ t with pool }, .work hRunning hStep, rfl, hReady⟩
  | finish hRunning => exact ⟨t, .finish hRunning, hPool, hReady⟩
  | @handle before after path outcome session hFinished hHandle =>
    obtain ⟨told, hTold, -, hAfter, hSame⟩ := handle_spec d.options d.files.length outcome hReady
    refine ⟨told, .handle hFinished hTold, ?_, hAfter⟩
    exact (hSame.trans hPool).trans (handle_pool hHandle).symm

theorem Steps.shadow (hSteps : d.Steps state last) (hPool : t.pool = state.session.pool)
    (hReady : t.toOutputs.Ready) :
    ∃ after, d.Steps { state with session := t } { last with session := after } ∧
      after.pool = last.session.pool ∧ after.toOutputs.Ready := by
  induction hSteps with
  | none => exact ⟨t, .none, hPool, hReady⟩
  | more _ hStep ih =>
    obtain ⟨middle, hEarlier, hMiddle, hMiddleReady⟩ := ih
    obtain ⟨after, hLater, hAfter⟩ := hStep.shadow hMiddle hMiddleReady
    exact ⟨after, hEarlier.more hLater, hAfter⟩

/-- Whatever the sinks take, each file of a batch that is done was told of once, with the outcome that
it has by itself. -/
theorem Steps.accounts (hSound : s.pool.Sound) (hSteps : d.Steps (d.start s) state)
    (hDone : state.Done) :
    state.handled.Perm (d.files.map fun path => (path, d.outcome path)) ∧
      state.counts = Counts.ofOutcomes (state.handled.map Prod.snd) ∧ state.session.pool.Sound := by
  let fresh : Session := { pool := s.pool }
  have hReady : fresh.toOutputs.Ready := ⟨Or.inr rfl, Or.inr rfl⟩
  obtain ⟨after, hShadow, hPool, -⟩ :=
    hSteps.shadow (t := opened d.options d.files.length fresh) rfl hReady
  have h := (Invariant.start d (s := fresh) hSound hReady).steps hShadow
  exact ⟨h.handled_perm hDone, h.counts, hPool ▸ h.sound⟩

/-! ## What is written -/

theorem Step.written (hStep : d.Step state next) :
    ∃ more, next.handled = state.handled ++ more ∧
      state.session.toOutputs.writeAll ((more.map Prod.snd).filterMap (Outcome.emission? d.options))
        = .ok next.session.toOutputs := by
  cases hStep with
  | start hQueue hFree => exact ⟨[], (List.append_nil _).symm, rfl⟩
  | work hRunning hStep => exact ⟨[], (List.append_nil _).symm, rfl⟩
  | finish hRunning => exact ⟨[], (List.append_nil _).symm, rfl⟩
  | @handle before after path outcome session hFinished hHandle =>
    refine ⟨[(path, outcome)], rfl, ?_⟩
    rw [TreeDump.handle] at hHandle
    obtain ⟨⟨⟩, reported, hReport, hProgress⟩ := Run.bind_eq_ok hHandle
    obtain ⟨-, rfl⟩ := Prod.mk.inj hProgress
    rw [List.map_singleton, Outcome.filterMap_emission?_singleton]
    exact (report_eq_ok hReport).1

/-- What was told of on the way is what was written. -/
theorem Steps.written (hSteps : d.Steps state last) :
    ∃ more, last.handled = state.handled ++ more ∧
      state.session.toOutputs.writeAll ((more.map Prod.snd).filterMap (Outcome.emission? d.options))
        = .ok last.session.toOutputs := by
  induction hSteps with
  | none => exact ⟨[], (List.append_nil _).symm, rfl⟩
  | more _ hStep ih =>
    obtain ⟨earlier, hEarlier, hWritten⟩ := ih
    obtain ⟨later, hLater, hMore⟩ := hStep.written
    refine ⟨earlier ++ later, ?_, ?_⟩
    · rw [hLater, hEarlier, List.append_assoc]
    · rw [List.map_append, List.filterMap_append]
      exact Outputs.writeAll_append hWritten hMore

/-! ## Overtaking -/

/-- With two workers or more, the second file of a batch may be told of before the first one. -/
theorem exists_overtaken {first second : String} {rest : List String}
    (hFiles : d.files = first :: second :: rest) (hThreads : 2 ≤ d.options.threads)
    (hSound : s.pool.Sound) (hReady : s.toOutputs.Ready) :
    ∃ state more, d.Steps (d.start s) state ∧ state.Done ∧
      state.handled = (second, d.outcome second) :: more := by
  -- The second file is taken while the first one is being worked on, and told of at once.
  let taken : State := { d.start s with
    queue := second :: rest, running := [⟨first, .working (d.work first)⟩] }
  have hIdle : ((d.start s).running.length : Int) < d.options.threads := by
    rw [show (d.start s).running.length = 0 from rfl]
    omega
  have hFree : (taken.running.length : Int) < d.options.threads := by
    rw [show taken.running.length = 1 from rfl]
    omega
  have hTaken : d.Steps (d.start s) taken := .more .none (.start hFiles hIdle)
  have hBefore := (Invariant.start d hSound hReady).steps hTaken
  cases hWork : (d.work second).run d.grammars taken.session.pool with
  | mk result pool =>
    obtain ⟨told, hTold, -⟩ := handle_spec d.options d.files.length (.ofResult second result)
      (s := { taken.session with pool }) hBefore.ready
    have hSecond := hTaken.trans (@steps_next d taken second rest told _ _ rfl hFree hWork hTold)
    have hAfter := (Invariant.start d hSound hReady).steps hSecond
    obtain ⟨last, hLater, hDone⟩ := hAfter.exists_done (by omega) .none
    obtain ⟨more, hHandled, -⟩ := hLater.written
    have hOutcome := hAfter.outcomes (second, .ofResult second result) (by simp)
    refine ⟨last, more, hSecond.trans hLater, hDone, ?_⟩
    rw [hHandled, ← hOutcome]
    rfl

end Dispatch

/-! ## What input paths come to -/

/-- Pairs with a function of their first parts are known by these, if it is known which there are. -/
theorem eq_map_of_perm {α β : Type} {f : α → β} {pairs : List (α × β)} {firsts : List α}
    (hPerm : pairs.Perm (firsts.map fun a => (a, f a))) (hFirsts : pairs.map Prod.fst = firsts) :
    pairs = firsts.map fun a => (a, f a) := by
  have hPairs : ∀ pair ∈ pairs, (pair.1, f pair.1) = pair := by
    intro pair hPair
    obtain ⟨a, -, rfl⟩ := List.mem_map.mp (hPerm.subset hPair)
    rfl
  rw [← hFirsts, List.map_map]
  exact ((List.map_congr_left hPairs).trans (List.map_id _)).symm

namespace Engine

variable (engine : Engine) (fs : FileSystem)

/-- What a file comes to that is told of for an input path. -/
def comesTo (input path : String) : Outcome :=
  match engine.target fs input with
  | .nowhere refusal => unreachable path refusal
  | .filtered => .skipped path "filtered"
  | .files _ => outcomeOf engine.processor.grammars (engine.processor.work fs) path

/-- The files of an input path, each with what it comes to. -/
def due (input : String) : List (String × Outcome) :=
  (engine.submitted fs input).map fun path => (path, engine.comesTo fs input path)

/-- The texts that are written of files that were told of. -/
def emissions (entries : List (List (String × Outcome))) : List Emission :=
  (entries.flatten.map Prod.snd).filterMap (Outcome.emission? engine.reports)

/-- The records among the texts that are written of files that were told of. -/
def records (entries : List (List (String × Outcome))) : List String :=
  (engine.emissions entries).filterMap Emission.record?

/-- What a part of a run has to come to that handles input paths and goes on with a sound pool. -/
structure Settles (s : Session) (inputs : List String) (entries : List (List (String × Outcome)))
    (counts : Counts) (after : Session) : Prop where
  perm : List.Forall₂ List.Perm entries (inputs.map (engine.due fs))
  counts_eq : counts = Counts.ofOutcomes (entries.flatten.map Prod.snd)
  written : s.toOutputs.writeAll (engine.emissions entries) = .ok after.toOutputs
  sound : after.pool.Sound

variable {engine fs} {s middle after : Session} {input : String} {inputs : List String}
  {handled : List (String × Outcome)} {entries : List (List (String × Outcome))}
  {counts more : Counts}

theorem Settles.cons (hInput : engine.Settles fs s [input] [handled] counts middle)
    (hRest : engine.Settles fs middle inputs entries more after) :
    engine.Settles fs s (input :: inputs) (handled :: entries) (counts.merge more) after := by
  have hPerm := hInput.perm
  have hCounts := hInput.counts_eq
  have hWritten := hInput.written
  rw [List.map_singleton, List.forall₂_cons] at hPerm
  rw [emissions, List.flatten_singleton] at hWritten
  rw [List.flatten_singleton] at hCounts
  refine ⟨.cons hPerm.1 hRest.perm, ?_, ?_, hRest.sound⟩
  · rw [hCounts, hRest.counts_eq, ← Counts.ofOutcomes_concat, ← List.map_append, List.flatten_cons]
  · rw [emissions, List.flatten_cons, List.map_append, List.filterMap_append]
    exact Outputs.writeAll_append hWritten hRest.written

/-- An input path that one outcome is told of has settled if it is the one that is due. -/
theorem settles_one {path : String} {outcome : Outcome}
    (hDue : engine.due fs input = [(path, outcome)])
    (hWritten : s.toOutputs.writeAll (outcome.emission? engine.reports).toList
      = .ok after.toOutputs)
    (hSound : after.pool.Sound) :
    engine.Settles fs s [input] [[(path, outcome)]] (.ofOutcome outcome) after := by
  refine ⟨?_, (Counts.ofOutcomes_singleton outcome).symm, ?_, hSound⟩
  · rw [List.map_singleton, hDue]
    exact .cons (.refl _) .nil
  · rw [emissions, List.flatten_singleton, List.map_singleton, Outcome.filterMap_emission?_singleton]
    exact hWritten

/-- However the files of an input path were handled, what is due was told of. -/
theorem Handles.settles (h : engine.Handles fs s input handled counts after)
    (hSound : s.pool.Sound) : engine.Settles fs s [input] [handled] counts after := by
  cases h with
  | @nowhere refusal log hStat hAsked =>
    refine settles_one ?_ rfl hSound
    rw [due, submitted, hStat, List.map_singleton, comesTo, target, hStat]
  | @file entry outcome pool after hStat hFile hOutcome hReport =>
    obtain ⟨hWritten, hPool⟩ := report_eq_ok hReport
    have hComes : engine.comesTo fs input (Path.ofString input).text = outcome ∧ pool.Sound := by
      rw [comesTo, target, hStat]
      simp only [hFile, Bool.false_eq_true, if_false]
      rw [named] at hOutcome
      split at hOutcome
      · rename_i hAccepts
        rw [if_pos hAccepts]
        have hProcess := engine.processor.process_sound fs (Path.ofString input).text hSound
        rw [hOutcome] at hProcess
        exact ⟨hProcess.1.symm, hProcess.2⟩
      · rename_i hRejects
        rw [if_neg hRejects]
        obtain ⟨rfl, rfl⟩ := Prod.mk.inj hOutcome
        exact ⟨rfl, hSound⟩
    refine settles_one ?_ hWritten (hPool ▸ hComes.2)
    rw [due, submitted, hStat]
    simp only [hFile, Bool.false_eq_true, if_false, List.map_singleton, hComes.1]
  | @directory entry log handled counts after hStat hDirectory hWalk hEnds =>
    have hDue : engine.due fs input
        = ((walk fs engine.walkOptions (Path.ofString input)).files.map Path.text).map fun path =>
            (path, outcomeOf engine.processor.grammars (engine.processor.work fs) path) := by
      have hTarget : engine.target fs input
          = .files ((walk fs engine.walkOptions (Path.ofString input)).files.map Path.text) := by
        rw [target, hStat]
        exact if_pos hDirectory
      rw [due, submitted, hStat]
      simp only [hDirectory, if_true, comesTo, hTarget]
    cases hEnds with
    | nothing hFiles =>
      have hNone : (walk fs engine.walkOptions (Path.ofString input)).files.map Path.text = [] :=
        hFiles
      rw [hNone] at hDue
      refine ⟨?_, rfl, rfl, hSound⟩
      rw [List.map_singleton, hDue]
      exact .cons .nil .nil
    | @done state hFiles hSteps hDone =>
      obtain ⟨hPerm, hCounts, hAfter⟩ :=
        Dispatch.Steps.accounts (s := { s with log }) hSound hSteps hDone
      obtain ⟨told, hTold, hWritten⟩ := hSteps.written
      rw [show state.handled = told from hTold] at hPerm hCounts ⊢
      refine ⟨?_, ?_, ?_, hAfter⟩
      · rw [List.map_singleton, hDue]
        exact .cons hPerm .nil
      · rw [List.flatten_singleton]
        exact hCounts
      · rw [emissions, List.flatten_singleton]
        exact hWritten

/-- So whatever comes about with workers, a run comes to what is due. -/
theorem Runs.settles (h : engine.Runs fs s inputs entries counts after) (hSound : s.pool.Sound) :
    engine.Settles fs s inputs entries counts after := by
  induction h with
  | nil s => exact ⟨.nil, rfl, rfl, hSound⟩
  | cons hInput _ ih =>
    have hFirst := hInput.settles hSound
    exact hFirst.cons (ih hFirst.sound)

namespace Settles

/-- Files that were told of in order are those that are due, in that order. -/
theorem entries_eq (h : engine.Settles fs s inputs entries counts after)
    (hOrder : engine.InOrder fs inputs entries) : entries = inputs.map (engine.due fs) := by
  have hPerm := h.perm
  clear h
  rw [InOrder] at hOrder
  induction inputs generalizing entries with
  | nil =>
    cases hPerm
    rfl
  | cons input rest ih =>
    cases hPerm with
    | cons hFirst hRest =>
      obtain ⟨hPaths, hOrder⟩ := List.cons.inj hOrder
      rw [List.map_cons, ← ih hOrder hRest, due, ← eq_map_of_perm hFirst hPaths]

end Settles

/-! ## Records of two runs -/

/-- What is written of an outcome is its record whatever else is told. -/
theorem record?_emission? (options others : ReportOptions) (outcome : Outcome) :
    (outcome.emission? options).bind Emission.record?
      = (outcome.emission? others).bind Emission.record? := by
  cases outcome with
  | success path language rendered document dryRun =>
    cases dryRun with
    | true => cases hHere : options.quiet <;> cases hThere : others.quiet <;>
        simp [Outcome.emission?, hHere, hThere, Emission.record?]
    | false => rfl
  | skipped path reason => rfl
  | failed path error => rfl

theorem records_reports (engine : Engine) (reports : ReportOptions)
    (entries : List (List (String × Outcome))) :
    ({ engine with reports } : Engine).records entries = engine.records entries := by
  rw [records, records, emissions, emissions, List.filterMap_filterMap, List.filterMap_filterMap]
  exact List.filterMap_congr fun outcome _ => record?_emission? _ _ outcome

/-- Records of the same files are the same, but for their order. -/
theorem records_perm {others : List (List (String × Outcome))}
    (hPerm : others.flatten.Perm entries.flatten) :
    (engine.records others).Perm (engine.records entries) :=
  ((hPerm.map Prod.snd).filterMap _).filterMap _

/-! ## Runs with other reports -/

variable {t : Session} {reports : ReportOptions} {processor : Processor}

theorem exists_handles (h : engine.Handles fs s input handled counts after)
    (hSound : t.pool.Sound) (hReady : t.toOutputs.Ready) (hThreads : 1 ≤ reports.threads) :
    ∃ others otherCounts otherAfter,
      Handles { engine with reports, processor } fs t input others otherCounts otherAfter ∧
        otherAfter.toOutputs.Ready := by
  cases h with
  | nowhere hStat hAsked => exact ⟨_, _, t, .nowhere hStat hAsked, hReady⟩
  | @file entry outcome pool after hStat hFile hOutcome hReport =>
    cases hNamed : Engine.named { engine with reports, processor } fs (Path.ofString input).text
      t.pool with
    | mk outcome pool =>
      obtain ⟨told, hTold, -, hTold', -, -⟩ :=
        report_spec reports outcome (s := { t with pool }) hReady
      exact ⟨_, _, told, .file hStat hFile hNamed hTold, hTold'⟩
  | @directory entry log handled counts after hStat hDirectory hWalk hEnds =>
    let d := ({ engine with reports, processor } : Engine).shared fs
      ((walk fs engine.walkOptions (Path.ofString input)).files.map Path.text)
    by_cases hFiles : d.files = []
    · exact ⟨_, _, t, .directory hStat hDirectory hWalk (.nothing hFiles), hReady⟩
    · have hStart := Dispatch.Invariant.start d hSound hReady
      obtain ⟨last, hSteps, hDone⟩ := hStart.exists_done hThreads .none
      exact ⟨_, _, _, .directory hStat hDirectory hWalk (.done hFiles hSteps hDone),
        (hStart.steps hSteps).ready⟩

/-- With two workers or more, the second file of a directory may be told of before the first one. -/
theorem exists_handles_overtaken {entry : Entry} {first second : String} {rest : List String}
    (hStat : fs.stat (Path.ofString input).text = .ok entry) (hDirectory : entry.isDirectory = true)
    (hWalk : (walk fs engine.walkOptions (Path.ofString input)).interruption = none)
    (hFiles : (walk fs engine.walkOptions (Path.ofString input)).files.map Path.text
      = first :: second :: rest)
    (hThreads : 2 ≤ engine.reports.threads) (hSound : s.pool.Sound) (hReady : s.toOutputs.Ready) :
    ∃ outcome more counts after,
      engine.Handles fs s input ((second, outcome) :: more) counts after := by
  obtain ⟨state, more, hSteps, hDone, hHandled⟩ :=
    Dispatch.exists_overtaken (d := engine.shared fs _) hFiles hThreads hSound hReady
  have hSome : (engine.shared fs ((walk fs engine.walkOptions (Path.ofString input)).files.map
      Path.text)).files ≠ [] := by
    rw [shared, hFiles]
    exact List.cons_ne_nil _ _
  have hEnds := Dispatch.Ends.done hSome hSteps hDone
  rw [hHandled] at hEnds
  exact ⟨_, more, _, _, @Handles.directory _ _ s input entry s.log _ _ _ hStat hDirectory hWalk hEnds⟩

/-- There is a run with other reports, and with any processor, if there is one at all. -/
theorem exists_runs (h : engine.Runs fs s inputs entries counts after)
    (hSound : t.pool.Sound) (hReady : t.toOutputs.Ready) (hThreads : 1 ≤ reports.threads) :
    ∃ others otherCounts otherAfter,
      Runs { engine with reports, processor } fs t inputs others otherCounts otherAfter := by
  induction h generalizing t with
  | nil s => exact ⟨[], {}, t, .nil t⟩
  | cons hInput _ ih =>
    obtain ⟨first, counts, middle, hFirst, hMiddle⟩ :=
      exists_handles hInput hSound hReady hThreads
    obtain ⟨rest, more, last, hRest⟩ := ih (hFirst.settles hSound).sound hMiddle
    exact ⟨_, _, _, .cons hFirst hRest⟩

/-! ## Files that are told of out of order -/

/-- A directory with two source files and a file in no language. -/
def shelf : FileSystem :=
  ⟨.directory [("d", .directory [("a.go", .file .empty), ("b.go", .file .empty),
    ("c", .file .empty)])], []⟩

theorem stat_shelf :
    shelf.stat "gone" = .error .notFound ∧
    shelf.stat "d" = .ok (.directory [("a.go", .file .empty), ("b.go", .file .empty),
      ("c", .file .empty)]) ∧
    shelf.stat "d/.astgenignore" = .error .notFound :=
  ⟨FileSystem.stat_of_along rfl (by decide) rfl, FileSystem.stat_of_along rfl (by decide) rfl,
    FileSystem.stat_of_along rfl (by decide) rfl⟩

open Walk in
theorem walk_shelf :
    (walk shelf {} (Path.ofString "d")).files.map Path.text = ["d/a.go", "d/b.go", "d/c"] ∧
      (walk shelf {} (Path.ofString "d")).interruption = none := by
  obtain ⟨-, hStat, hIgnore⟩ := stat_shelf
  have hRoot : Path.ofString "d" = ⟨.relative, ["d"]⟩ := by decide
  have hTexts : Path.text ⟨.relative, ["d"]⟩ = "d" ∧
      (Path.join ⟨.relative, ["d"]⟩ (Path.ofString ".astgenignore")).text = "d/.astgenignore" ∧
      Path.text ⟨.relative, ["d", "a.go"]⟩ = "d/a.go" ∧
      Path.text ⟨.relative, ["d", "b.go"]⟩ = "d/b.go" ∧
      Path.text ⟨.relative, ["d", "c"]⟩ = "d/c" := by decide
  have hScope : loadScope .gitignore shelf {} ⟨.relative, ["d"]⟩ = .ok none := by
    simp [loadScope, defaultIgnoreFileName, hTexts, FileSystem.isFile, hIgnore, Refusal.meansAbsent]
  have hList : shelf.list "d" = .ok [("a.go", .file .empty), ("b.go", .file .empty),
      ("c", .file .empty)] := by
    rw [FileSystem.list, hStat]
  have hSorted : byName [("a.go", .file .empty), ("b.go", .file .empty), ("c", .file .empty)]
      = [("a.go", .file .empty), ("b.go", .file .empty), ("c", .file .empty)] := by
    rw [byName, List.mergeSort_of_pairwise]
    simp
  have hDepth : 1 ≤ defaultMaxDepth := by decide
  have hRead : readDirectory shelf {} [placeOf shelf ⟨.relative, ["d"]⟩]
      (⟨⟨.relative, ["d"]⟩, 0, []⟩ : Pending .gitignore)
      = { files := [⟨.relative, ["d", "a.go"]⟩, ⟨.relative, ["d", "b.go"]⟩, ⟨.relative, ["d", "c"]⟩],
          visited := [placeOf shelf ⟨.relative, ["d"]⟩] } := by
    simp [readDirectory, hDepth, hTexts, hList, hSorted, visitEntries, visitEntry, kindOf,
      Entry.isLink, Kind.ofEntry, Entry.isDirectory, Entry.isFile, Path.child, isIgnored, isListed,
      defaultIgnoreFileName]
  have hNul : ¬ "d".contains '\x00' = true := by simp
  rw [walk, walkWith, hRoot, hTexts.1, if_neg hNul, hScope]
  simp [readStack, hRead, hTexts]

/-- A path that leads nowhere and the directory bring no run to a stop. -/
theorem clear_shelf (engine : Engine) (hOptions : engine.walkOptions = {}) :
    ∀ input ∈ ["gone", "d"], engine.obstacle? shelf input = none := by
  obtain ⟨hGone, hStat, -⟩ := stat_shelf
  have hTexts : (Path.ofString "gone").text = "gone" ∧ (Path.ofString "d").text = "d" := by decide
  simp [obstacle?, hOptions, hTexts, hGone, hStat, Entry.isDirectory, walk_shelf.2]

/-- With two workers or more, a run over both may tell of the files of the directory out of order. -/
theorem exists_runs_shelf (engine : Engine) (hOptions : engine.walkOptions = {})
    (hThreads : 2 ≤ engine.reports.threads) (hSound : s.pool.Sound) (hReady : s.toOutputs.Ready) :
    ∃ entries counts after, engine.Runs shelf s ["gone", "d"] entries counts after ∧
      ¬ engine.InOrder shelf ["gone", "d"] entries := by
  have hTexts : (Path.ofString "gone").text = "gone" ∧ (Path.ofString "d").text = "d" := by decide
  have hGone : shelf.stat (Path.ofString "gone").text = .error .notFound := by
    rw [hTexts.1, stat_shelf.1]
  have hStat := stat_shelf.2.1
  rw [← hTexts.2] at hStat
  obtain ⟨hFiles, hWalk⟩ := walk_shelf
  rw [← hOptions] at hFiles hWalk
  obtain ⟨outcome, more, counts, after, hDirectory⟩ : ∃ outcome more counts after,
      engine.Handles shelf s "d" (("d/b.go", outcome) :: more) counts after :=
    exists_handles_overtaken hStat rfl hWalk hFiles hThreads hSound hReady
  have hNowhere := @Handles.nowhere engine shelf s "gone" .notFound s.log hGone (by decide)
  refine ⟨_, _, after, .cons hNowhere (.cons hDirectory (.nil after)), ?_⟩
  intro hOrder
  have hSubmitted : engine.submitted shelf "d" = ["d/a.go", "d/b.go", "d/c"] := by
    simp [submitted, hStat, Entry.isDirectory, hFiles]
  simp [InOrder, hSubmitted] at hOrder

/-! ## Two runs -/

/-- What is told meanwhile, how many workers there are, and how many parsers the pool keeps and has at
the start: none of these has a part in what a run comes to.  Two runs over the same input paths that
differ in no more than that answer equal counts and write the same records, but for their order, and in
the same order if both tell of the files in the order in which they are handed to workers.  If one of
them comes to its end, the other one can be brought to its end as well.  The run that handles one file
after the other is such a run, and tells of the files in that order. -/
theorem runs_independent (engine : Engine) (reports : ReportOptions) (fs : FileSystem)
    (inputs : List String) {s t : Session} (hSound : s.pool.Sound) (hOther : t.pool.Sound) :
    let other : Engine := { engine with reports }
    (∀ entries counts after, engine.Runs fs s inputs entries counts after →
      s.toOutputs.writeAll (engine.emissions entries) = .ok after.toOutputs ∧
      (∀ others otherCounts otherAfter, other.Runs fs t inputs others otherCounts otherAfter →
        t.toOutputs.writeAll (other.emissions others) = .ok otherAfter.toOutputs ∧
        otherCounts = counts ∧
        (other.records others).Perm (engine.records entries) ∧
        (engine.InOrder fs inputs entries → other.InOrder fs inputs others →
          other.records others = engine.records entries)) ∧
      (t.toOutputs.Ready → 1 ≤ reports.threads →
        ∃ others otherCounts otherAfter, other.Runs fs t inputs others otherCounts otherAfter)) ∧
    ∀ counts after, 1 ≤ engine.reports.threads → engine.Unchanging fs s.toOutputs inputs →
      (engine.runInputs inputs).run.run s = (.ok counts, after) →
      ∃ entries, engine.Runs fs s inputs entries counts after ∧
        engine.InOrder fs inputs entries := by
  intro other
  refine ⟨?_, fun counts after hThreads hUnchanging hRun =>
    runInputs_runs hThreads hUnchanging hRun⟩
  intro entries counts after hRuns
  have hHere := hRuns.settles hSound
  refine ⟨hHere.written, ?_, fun hReady hThreads => exists_runs hRuns hOther hReady hThreads⟩
  intro others otherCounts otherAfter hOtherRuns
  have hThere := hOtherRuns.settles hOther
  have hFlat : others.flatten.Perm entries.flatten :=
    (List.Perm.flatten_congr hThere.perm).trans (List.Perm.flatten_congr hHere.perm).symm
  refine ⟨hThere.written, ?_, ?_, ?_⟩
  · rw [hThere.counts_eq, hHere.counts_eq]
    exact Counts.ofOutcomes_perm (hFlat.map Prod.snd)
  · rw [records_reports]
    exact records_perm hFlat
  · intro hOrder hOtherOrder
    have hSame : others = entries :=
      (hThere.entries_eq hOtherOrder).trans (hHere.entries_eq hOrder).symm
    rw [records_reports, hSame]

/-- A run with one worker and a run with four of them and a parser that idles, over a path that leads
nowhere and a directory.  The latter run tells of the second file of the directory before the first. -/
theorem runs_independent_mixed :
    let engine : Engine := { processor := .leafy, reports := { threads := 1 } }
    let reports : ReportOptions :=
      { threads := 4, forceProgress := true, quiet := true, verbose := true }
    let other : Engine := { engine with reports }
    let inputs := ["gone", "d"]
    let s : Session := { outlets := { files := shelf } }
    let t : Session := { s with pool := ⟨0, [("go", [0])], ["go"]⟩ }
    s.pool.Sound ∧ t.pool.Sound ∧ t.toOutputs.Ready ∧ 1 ≤ reports.threads ∧
    engine.Unchanging shelf s.toOutputs inputs ∧
    ∃ entries counts after others otherAfter,
      (engine.runInputs inputs).run.run s = (.ok counts, after) ∧
      engine.Runs shelf s inputs entries counts after ∧
      engine.InOrder shelf inputs entries ∧
      other.Runs shelf t inputs others counts otherAfter ∧
      ¬ other.InOrder shelf inputs others ∧
      (other.records others).Perm (engine.records entries) := by
  intro engine reports other inputs s t
  have hSink : s.sink.Prints := ⟨rfl, Or.inl rfl⟩
  have hNotices : s.notices.Prints := ⟨rfl, Or.inl rfl⟩
  have hFileless : s.toOutputs.Fileless := ⟨hSink.fileless, hNotices.fileless⟩
  have hUnchanging : engine.Unchanging shelf s.toOutputs inputs :=
    engine.unchanging_of_fileless hFileless _
  have hSound : s.pool.Sound := Pool.sound_empty _ _
  have hOther : t.pool.Sound :=
    @Pool.Sound.withIdle _ (Pool.sound_empty 0 ["go"]) "go" [0] (by
      intro parser hParser
      obtain rfl := List.mem_singleton.mp hParser
      rfl)
  obtain ⟨counts, after, hRun⟩ := runInputs_of_fileless hFileless (clear_shelf engine rfl)
  obtain ⟨hRuns, hSequential⟩ := runs_independent engine reports shelf inputs hSound hOther
  obtain ⟨entries, hEntries, hOrder⟩ := hSequential counts after (by decide) hUnchanging hRun
  obtain ⟨-, hTwo, -⟩ := hRuns entries counts after hEntries
  obtain ⟨others, otherCounts, otherAfter, hOthers, hOvertaken⟩ :=
    exists_runs_shelf other rfl (by decide) hOther hFileless.ready
  obtain ⟨-, rfl, hPerm, -⟩ := hTwo others otherCounts otherAfter hOthers
  exact ⟨hSound, hOther, hFileless.ready, by decide, hUnchanging, entries, _, after, others,
    otherAfter, hRun, hEntries, hOrder, hOthers, hOvertaken, hPerm⟩

end Engine

end TreeDump
