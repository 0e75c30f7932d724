import TreeDump.Proofs.Files.Place
import TreeDump.Proofs.Run.Batch
import TreeDump.Proofs.Walk.Turns
import TreeDump.Run.Inputs

/-!
# What brings a run to a stop

A file that cannot be processed is an error that is counted, and so is an input path that leads
nowhere.  A run is brought to a stop only by what an input path is before any file of it is
processed: a path that cannot even be asked for, or a directory with an ignore file, at any depth,
that cannot be made sense of.

* `Walk.walkWith_interrupted`: what interrupts a walk.
* `Engine.obstacle?`: what an input path brings a run to a stop with, if anything.
* `Engine.runInput_ok`, `Engine.runInput_error`: an input path is handled just when it is no
  obstacle.
* `Engine.runInputs_ends`: a run ends with counts unless it stops at an obstacle, and then it handles
  none of the input paths after that.
* `Engine.not_runInputs_ok`: a run that is brought to a stop by a line of an ignore file.
-/

namespace TreeDump

namespace Walk

/-! ## What interrupts a walk -/

section

variable {language : RuleLanguage} {fs : FileSystem} {options : WalkOptions}
  {parent : Pending language} {raised : Raised}

theorem Visit.interrupted_of {found after : Found language} {name : String} {kind : Kind}
    (hVisit : Visit fs options parent found name kind after) (hOn : found.interruption = none)
    (hStop : after.interruption = some raised) :
    loadScope language fs options (parent.directory.child name) = .error raised := by
  cases hVisit with
  | interrupted other hLoad =>
    obtain rfl := Option.some.inj hStop
    exact hLoad
  | passed hPassed => cases hOn.symm.trans hStop
  | listed hListed => cases hOn.symm.trans hStop
  | entered hPruned hDeep hNew hLoads => cases hOn.symm.trans hStop

/-- Reading a directory is interrupted only by the ignore file of a directory in it. -/
theorem readDirectory_interrupted {visited : List Place}
    (hStop : (readDirectory fs options visited parent).interruption = some raised) :
    ∃ name, loadScope language fs options (parent.directory.child name) = .error raised := by
  revert hStop
  rw [readDirectory]
  split
  · intro hStop
    cases hStop
  · split
    · intro hStop
      cases hStop
    · refine visitEntries_induction (P := fun found _ => found.interruption = some raised →
        ∃ name, loadScope language fs options (parent.directory.child name) = .error raised)
        ?_ ?_ rfl ?_
      · intro found entry rest hOn _ hStop
        have hVisit := visitEntry_visit fs options parent found entry.1 entry.2
        exact ⟨entry.1, hVisit.interrupted_of hOn hStop⟩
      · intro found rest _ hFound
        exact hFound
      · intro hStop
        cases hStop

/-- A walk is interrupted only by a starting directory that cannot be asked for, or by the ignore
file of a directory. -/
theorem walkWith_interrupted {root : Path}
    (hStop : (walkWith language fs options root).interruption = some raised) :
    (root.text.contains '\x00' ∧ raised = .refused .nulByte root.text) ∨
      ∃ directory, loadScope language fs options directory = .error raised := by
  rw [walkWith] at hStop
  split at hStop
  · rename_i hNul
    exact Or.inl ⟨hNul, (Option.some.inj hStop).symm⟩
  right
  split at hStop
  · rename_i other hLoad
    obtain rfl := Option.some.inj hStop
    exact ⟨root, hLoad⟩
  · rw [readStack_eq_turns] at hStop
    obtain ⟨turn, hTurn, hFound⟩ := List.exists_of_findSome?_eq_some hStop
    obtain ⟨before, hRead⟩ := exists_readDirectory fs options hTurn
    rw [hRead] at hFound
    obtain ⟨name, hLoad⟩ := readDirectory_interrupted hFound
    exact ⟨turn.directory.directory.child name, hLoad⟩

end

/-- What can be wrong with an ignore file: its path may be too long, or a line may be no rule or
stand for a pattern that is none. -/
inductive RuleFault : Raised → Prop where
  | longName (path : String) : RuleFault (.refused .nameTooLong path)
  | invalidRule (line : String) : RuleFault (.invalidRule line)
  | pattern (fault : PatternFault) : RuleFault (.pattern fault)

theorem ofLine?_ruleFault {line : List Char} {raised : Raised}
    (h : IgnoreRule.ofLine? line = .error raised) : RuleFault raised := by
  rw [IgnoreRule.ofLine?] at h
  dsimp only at h
  split at h
  · cases h
  split at h
  · obtain rfl := Except.error.inj h
    exact .invalidRule _
  split at h
  · cases h
  · obtain rfl := Except.error.inj h
    exact .invalidRule _
  split at h
  · cases h
  · obtain rfl := Except.error.inj h
    exact .pattern _

theorem ofLines_ruleFault {lines : List (List Char)} {raised : Raised}
    (h : IgnoreRule.ofLines lines = .error raised) : RuleFault raised := by
  induction lines with
  | nil => cases h
  | cons line rest ih =>
    rw [IgnoreRule.ofLines] at h
    rcases Raised.bind_eq_error.mp h with hLine | ⟨rule, -, h⟩
    · exact ofLine?_ruleFault hLine
    rcases Raised.bind_eq_error.mp h with hRest | ⟨rules, -, h⟩
    · exact ih hRest
    · cases h

theorem loadScope_ruleFault {fs : FileSystem} {options : WalkOptions} {directory : Path}
    {raised : Raised} (h : loadScope .gitignore fs options directory = .error raised) :
    RuleFault raised := by
  rw [loadScope] at h
  split at h
  · cases h
  · cases h
  dsimp only at h
  split at h
  · rename_i refusal hFile
    obtain rfl := Except.error.inj h
    rw [FileSystem.isFile_error hFile]
    exact .longName _
  · cases h
  split at h
  · cases h
  split at h
  · cases h
  split at h
  · rename_i fault hCompile
    obtain rfl := Except.error.inj h
    exact ofLines_ruleFault hCompile
  · cases h

end Walk

/-! ## Input paths -/

/-- The work on a path always comes to an outcome. -/
theorem Processor.work_run (p : Processor) (fs : FileSystem) (path : String)
    (grammars : GrammarSource) (pool : Pool) :
    ∃ outcome after, (p.work fs path).run grammars pool = (.ok outcome, after) := by
  rw [work]
  split
  · exact ⟨_, _, rfl⟩
  split
  · exact ⟨_, _, rfl⟩
  split
  · exact ⟨_, _, rfl⟩
  · exact ⟨_, _, rfl⟩

namespace Engine

variable (engine : Engine)

/-- Processing a file is never interrupted, and changes nothing but the pool. -/
theorem task_spec (path : String) (s : Session) :
    ∃ outcome pool, (engine.task path).run.run s = (.ok outcome, { s with pool }) := by
  obtain ⟨outcome, pool, hRun⟩ := engine.processor.work_run s.outlets.files path
    engine.processor.grammars s.pool
  refine ⟨outcome, pool, ?_⟩
  rw [task, Run.get_bind]
  exact Work.task_run hRun

/-- With ready sinks, a file is handled without interruption. -/
theorem runFile_spec (path : Path) {s : Session} (hReady : s.toOutputs.Ready) :
    ∃ counts after, (engine.runFile path).run.run s = (.ok counts, after) ∧
      after.toOutputs.Ready := by
  have hReport : ∀ (outcome : Outcome) (pool : Pool), ∃ after,
      (report engine.reports outcome >>= fun _ => pure (Counts.ofOutcome outcome)).run.run
        { s with pool } = (.ok (Counts.ofOutcome outcome), after) ∧ after.toOutputs.Ready := by
    intro outcome pool
    obtain ⟨after, hReport, -, hAfter, -, -⟩ :=
      report_spec engine.reports outcome (s := { s with pool }) hReady
    refine ⟨after, ?_, hAfter⟩
    rw [Run.bind_ok hReport]
    rfl
  rw [runFile]
  split
  · obtain ⟨outcome, pool, hTask⟩ := engine.task_spec path.text s
    obtain ⟨after, hReported, hAfter⟩ := hReport outcome pool
    refine ⟨.ofOutcome outcome, after, ?_, hAfter⟩
    rw [Run.bind_ok hTask]
    exact hReported
  · obtain ⟨after, hReported, hAfter⟩ := hReport (.skipped path.text "filtered") s.pool
    exact ⟨_, after, hReported, hAfter⟩

/-- With ready sinks, files are handled without interruption. -/
theorem runFiles_spec (total : Nat) (files : List String) (counts : Counts) {s : Session}
    (hReady : s.toOutputs.Ready) :
    ∃ last after, (runFiles engine.reports total engine.task counts files).run.run s
        = (.ok last, after) ∧ after.toOutputs.Ready := by
  induction files generalizing counts s with
  | nil => exact ⟨counts, s, rfl, hReady⟩
  | cons path rest ih =>
    obtain ⟨outcome, pool, hTask⟩ := engine.task_spec path s
    have hIsolated : (isolated engine.task path).run.run s = (.ok outcome, { s with pool }) :=
      Run.tryCatch_ok hTask
    obtain ⟨handled, hHandle, -, hHandled, -⟩ :=
      handle_spec engine.reports total outcome (s := { s with pool }) hReady
    obtain ⟨last, after, hRest, hAfter⟩ := ih (counts.add outcome) hHandled
    refine ⟨last, after, ?_, hAfter⟩
    rw [runFiles, Run.bind_ok hIsolated, Run.bind_ok hHandle, hRest]

theorem runBatch_ready (files : List String) {s : Session} (hReady : s.toOutputs.Ready) :
    ∃ counts after, (runBatch engine.reports engine.task files).run.run s = (.ok counts, after) ∧
      after.toOutputs.Ready := by
  cases files with
  | nil => exact ⟨{}, s, rfl, hReady⟩
  | cons path rest =>
    obtain ⟨counts, after, hFiles, hAfter⟩ := engine.runFiles_spec (path :: rest).length
      (path :: rest) {} (s := opened engine.reports (path :: rest).length s) hReady
    have hOpen : (modify (opened engine.reports (path :: rest).length) : Run Unit).run.run s
        = (.ok (), opened engine.reports (path :: rest).length s) := rfl
    refine ⟨counts, closed engine.reports (path :: rest).length counts after, ?_, hAfter⟩
    rw [runBatch]
    simp only [List.isEmpty_cons, Bool.false_eq_true, if_false]
    rw [Run.bind_ok hOpen, Run.bind_ok hFiles]
    rfl

/-- What comes after a line of the log that is written on a condition. -/
theorem run_after_log {α : Type} (condition : Bool) (level : LogLevel) (message : String)
    (x : Run α) (s : Session) :
    ∃ log, (if condition then Run.log level message >>= fun _ => x else x).run.run s
      = x.run.run { s with log } := by
  cases condition with
  | true => exact ⟨s.log ++ [⟨level, message⟩], rfl⟩
  | false => exact ⟨s.log, rfl⟩

/-- A directory is handled unless something interrupts the walk. -/
theorem runDirectory_spec (directory : Path) {s : Session} (hReady : s.toOutputs.Ready) :
    match (walk s.outlets.files engine.walkOptions directory).interruption with
    | some raised => ∃ after, (engine.runDirectory directory).run.run s = (.error raised, after)
    | none => ∃ counts after, (engine.runDirectory directory).run.run s = (.ok counts, after) ∧
        after.toOutputs.Ready := by
  rw [runDirectory, Run.get_bind]
  dsimp only
  generalize walk s.outlets.files engine.walkOptions directory = result
  have hLog : (modify fun s => { s with log := s.log ++ result.log } : Run Unit).run.run s
      = (.ok (), { s with log := s.log ++ result.log }) := rfl
  rw [Run.bind_ok hLog]
  cases result.interruption with
  | some raised => exact ⟨_, rfl⟩
  | none =>
    dsimp only
    split
    · exact ⟨_, _, rfl, hReady⟩
    · obtain ⟨log, hLogged⟩ := run_after_log engine.reports.verbose .info
        ("Found " ++ toString result.files.length ++ " files to process")
        (runBatch engine.reports engine.task (result.files.map Path.text))
        { s with log := s.log ++ result.log }
      obtain ⟨counts, after, hBatch, hAfter⟩ := engine.runBatch_ready
        (result.files.map Path.text) (s := { s with log }) hReady
      exact ⟨counts, after, hLogged.trans hBatch, hAfter⟩

/-! ## Obstacles -/

/-- What an input path brings a run to a stop with, if anything. -/
def obstacle? (fs : FileSystem) (input : String) : Option Raised :=
  let path := Path.ofString input
  match fs.stat path.text with
  | .error .nulByte => some (.refused .nulByte path.text)
  | .error _ => none
  | .ok entry =>
    if entry.isDirectory then (walk fs engine.walkOptions path).interruption else none

theorem runInput_spec (input : String) {s : Session} (hReady : s.toOutputs.Ready) :
    match engine.obstacle? s.outlets.files input with
    | some raised => ∃ after, (engine.runInput input).run.run s = (.error raised, after)
    | none => ∃ counts after, (engine.runInput input).run.run s = (.ok counts, after) ∧
        after.toOutputs.Ready := by
  rw [runInput, obstacle?]
  dsimp only
  rw [Run.get_bind]
  cases s.outlets.files.stat (Path.ofString input).text with
  | error refusal =>
    cases refusal with
    | nulByte => exact ⟨s, rfl⟩
    | notFound => exact ⟨_, _, rfl, hReady⟩
    | notDirectory => exact ⟨_, _, rfl, hReady⟩
    | isDirectory => exact ⟨_, _, rfl, hReady⟩
    | nameTooLong => exact ⟨_, _, rfl, hReady⟩
    | tooManyLinks => exact ⟨_, _, rfl, hReady⟩
  | ok entry =>
    cases hKind : entry.isDirectory with
    | false =>
      simp only [hKind, Bool.false_eq_true, if_false]
      exact engine.runFile_spec (Path.ofString input) hReady
    | true =>
      obtain ⟨log, hLogged⟩ := run_after_log engine.reports.verbose .info
        ("Processing directory: " ++ (Path.ofString input).text)
        (engine.runDirectory (Path.ofString input)) s
      simp only [hKind, if_true, hLogged]
      exact engine.runDirectory_spec (Path.ofString input) (s := { s with log }) hReady

/-- An obstacle is a path that cannot be asked for, or a directory with an ignore file that cannot
be made sense of. -/
theorem obstacle?_cause {fs : FileSystem} {input : String} {raised : Raised}
    (h : engine.obstacle? fs input = some raised) :
    ((Path.ofString input).text.contains '\x00' ∧
        raised = .refused .nulByte (Path.ofString input).text) ∨ Walk.RuleFault raised := by
  rw [obstacle?] at h
  split at h
  · rename_i hStat
    exact Or.inl ⟨FileSystem.contains_of_stat hStat, (Option.some.inj h).symm⟩
  · cases h
  split at h
  · rcases Walk.walkWith_interrupted h with hNul | ⟨directory, hLoad⟩
    · exact Or.inl hNul
    · exact Or.inr (Walk.loadScope_ruleFault hLoad)
  · cases h

/-! ## Runs -/

theorem runFrom_append (counts : Counts) (earlier later : List String) :
    engine.runFrom counts (earlier ++ later)
      = engine.runFrom counts earlier >>= fun last => engine.runFrom last later := by
  induction earlier generalizing counts with
  | nil => simp [runFrom]
  | cons input rest ih => simp [runFrom, ih]

/-- That a run comes to an obstacle, after it handled the input paths before. -/
def StopsAt (s : Session) (counts : Counts) (inputs : List String) (raised : Raised) : Prop :=
  ∃ earlier input later last reached, inputs = earlier ++ input :: later ∧
    (engine.runFrom counts earlier).run.run s = (.ok last, reached) ∧
    engine.obstacle? reached.outlets.files input = some raised

/-- A run handles all input paths, or comes to an obstacle and stops there. -/
theorem runFrom_spec (counts : Counts) (inputs : List String) {s : Session}
    (hReady : s.toOutputs.Ready) :
    (∃ last after, (engine.runFrom counts inputs).run.run s = (.ok last, after) ∧
        after.toOutputs.Ready) ∨
      ∃ raised after, (engine.runFrom counts inputs).run.run s = (.error raised, after) ∧
        engine.StopsAt s counts inputs raised := by
  induction inputs generalizing counts s with
  | nil => exact Or.inl ⟨counts, s, rfl, hReady⟩
  | cons input rest ih =>
    have hInput := engine.runInput_spec input hReady
    cases hObstacle : engine.obstacle? s.outlets.files input with
    | some raised =>
      rw [hObstacle] at hInput
      obtain ⟨after, hStop⟩ := hInput
      right
      refine ⟨raised, after, ?_, [], input, rest, counts, s, rfl, rfl, hObstacle⟩
      rw [runFrom, Run.bind_error hStop]
    | none =>
      rw [hObstacle] at hInput
      obtain ⟨more, reached, hOn, hReached⟩ := hInput
      -- The obstacle may only come later, so the path that was handled joins those before it.
      have hRun : ∀ inputs, (engine.runFrom counts (input :: inputs)).run.run s
          = (engine.runFrom (counts.merge more) inputs).run.run reached := by
        intro inputs
        rw [runFrom, Run.bind_ok hOn]
      rcases ih (counts.merge more) hReached with ⟨last, after, hRest, hAfter⟩ | hStops
      · exact Or.inl ⟨last, after, (hRun rest).trans hRest, hAfter⟩
      · obtain ⟨raised, after, hRest, earlier, obstacle, later, last, before, rfl, hEarlier,
          hRaised⟩ := hStops
        right
        exact ⟨raised, after, (hRun _).trans hRest, input :: earlier, obstacle, later, last, before,
          rfl, (hRun earlier).trans hEarlier, hRaised⟩

/-- At an obstacle a run stops, whatever comes after it. -/
theorem runFrom_stopsAt {counts : Counts} {inputs : List String} {s : Session} {raised : Raised}
    (hReady : s.toOutputs.Ready) (hStops : engine.StopsAt s counts inputs raised) :
    ∃ after, (engine.runFrom counts inputs).run.run s = (.error raised, after) := by
  obtain ⟨earlier, input, later, last, reached, rfl, hEarlier, hObstacle⟩ := hStops
  -- A run that answered did not stop, and left its sinks ready.
  have hReached : reached.toOutputs.Ready := by
    rcases engine.runFrom_spec counts earlier hReady with ⟨_, _, hRun, hAfter⟩ | ⟨_, _, hRun, -⟩
    · cases hRun.symm.trans hEarlier
      exact hAfter
    · cases hRun.symm.trans hEarlier
  have hInput := engine.runInput_spec input hReached
  rw [hObstacle] at hInput
  obtain ⟨after, hStop⟩ := hInput
  refine ⟨after, ?_⟩
  rw [runFrom_append, Run.bind_ok hEarlier, runFrom, Run.bind_error hStop]

/-- With sinks that take everything, a run answers counts unless it comes to an obstacle.  Then it
is interrupted by what the obstacle is, and handles none of the input paths after it.  Obstacles are
paths that cannot be asked for, and directories with an ignore file, at any depth, that cannot be
made sense of. -/
theorem runInputs_ends (engine : Engine) (inputs : List String) (s : Session)
    (hReady : s.toOutputs.Ready) :
    ((∃ counts after, (engine.runInputs inputs).run.run s = (.ok counts, after)) ↔
      ∀ raised, ¬ engine.StopsAt s {} inputs raised) ∧
    (∀ raised, (∃ after, (engine.runInputs inputs).run.run s = (.error raised, after)) ↔
      engine.StopsAt s {} inputs raised) ∧
    ∀ raised, engine.StopsAt s {} inputs raised →
      (∃ input ∈ inputs, (Path.ofString input).text.contains '\x00' ∧
        raised = .refused .nulByte (Path.ofString input).text) ∨ Walk.RuleFault raised := by
  have hEnds := engine.runFrom_spec {} inputs hReady
  refine ⟨⟨?_, ?_⟩, fun raised => ⟨?_, engine.runFrom_stopsAt hReady⟩, ?_⟩
  · rintro ⟨counts, after, hRun⟩ raised hStops
    obtain ⟨_, hStop⟩ := engine.runFrom_stopsAt hReady hStops
    cases hRun.symm.trans hStop
  · intro hClear
    rcases hEnds with ⟨counts, after, hRun, -⟩ | ⟨raised, after, -, hStops⟩
    · exact ⟨counts, after, hRun⟩
    · exact absurd hStops (hClear raised)
  · rintro ⟨after, hRun⟩
    rcases hEnds with ⟨_, _, hOk, -⟩ | ⟨other, _, hError, hStops⟩
    · cases hOk.symm.trans hRun
    · cases hError.symm.trans hRun
      exact hStops
  · rintro raised ⟨earlier, input, later, last, reached, rfl, -, hObstacle⟩
    rcases engine.obstacle?_cause hObstacle with hNul | hFault
    · exact Or.inl ⟨input, by simp, hNul⟩
    · exact Or.inr hFault

/-! ## Two obstacles -/

/-- An engine without grammars. -/
def ungrounded : Engine :=
  { processor := { grammars := fun name => .error (.foreign "LookupError" name) }
    reports := { threads := 1 } }

/-- A path with a NUL character is an obstacle to the paths after it. -/
theorem runInputs_ends_nul :
    let s : Session := {}
    s.toOutputs.Ready ∧ ∃ after, (ungrounded.runInputs ["a\x00.rs", "solo.go"]).run.run s
      = (.error (.refused .nulByte "a\x00.rs"), after) := by
  intro s
  have hReady : s.toOutputs.Ready := ⟨Or.inr rfl, Or.inr rfl⟩
  have hObstacle : ungrounded.obstacle? s.outlets.files "a\x00.rs"
      = some (.refused .nulByte "a\x00.rs") := by
    have hText : (Path.ofString "a\x00.rs").text = "a\x00.rs" := by decide
    have hStat : s.outlets.files.stat "a\x00.rs" = .error .nulByte := by
      simp [FileSystem.stat, FileSystem.locate, FileSystem.resolve]
    rw [obstacle?, hText, hStat]
  refine ⟨hReady, ((runInputs_ends ungrounded _ s hReady).2.1 _).mpr ?_⟩
  exact ⟨[], "a\x00.rs", ["solo.go"], {}, s, rfl, rfl, hObstacle⟩

/-- A directory with an ignore file whose only line is no rule, and a file beside it. -/
def unruled : FileSystem :=
  ⟨.directory [("bad", .directory [(".astgenignore", .file "!".toByteArray)]),
    ("solo.go", .file .empty)], []⟩

theorem stat_unruled : unruled.stat "bad" = .ok (.directory [(".astgenignore", .file "!".toByteArray)]) ∧
    unruled.stat "bad/.astgenignore" = .ok (.file "!".toByteArray) :=
  ⟨FileSystem.stat_of_along rfl (by decide) rfl, FileSystem.stat_of_along rfl (by decide) rfl⟩

theorem obstacle?_unruled : ungrounded.obstacle? unruled "bad" = some (.invalidRule "!") := by
  have hPath : Path.ofString "bad" = ⟨.relative, ["bad"]⟩ ∧
      Path.text ⟨.relative, ["bad"]⟩ = "bad" ∧
      (Path.join ⟨.relative, ["bad"]⟩ (Path.ofString ".astgenignore")).text
        = "bad/.astgenignore" := by decide
  have hLines : IgnoreRule.ruleLines (Utf8.decodeLossy "!".toByteArray) = [['!']] := by decide +kernel
  have hRules : IgnoreRule.ofLines [['!']] = .error (.invalidRule "!") := by decide
  have hRead : unruled.isFile "bad/.astgenignore" = .ok true ∧
      unruled.read "bad/.astgenignore" = .ok "!".toByteArray := by
    rw [FileSystem.isFile, FileSystem.read, stat_unruled.2]
    exact ⟨rfl, rfl⟩
  have hLoad : Walk.loadScope .gitignore unruled ungrounded.walkOptions ⟨.relative, ["bad"]⟩
      = .error (.invalidRule "!") := by
    simp [Walk.loadScope, ungrounded, defaultIgnoreFileName, hPath, hRead, hLines,
      RuleLanguage.gitignore, hRules]
  have hWalk : (walk unruled ungrounded.walkOptions ⟨.relative, ["bad"]⟩).interruption
      = some (.invalidRule "!") := by
    rw [walk, walkWith, hPath.2.1, if_neg (by simp), hLoad]
  rw [obstacle?, hPath.1, hPath.2.1, stat_unruled.1]
  exact hWalk

/-- There is a run that a line of an ignore file brings to a stop. -/
theorem not_runInputs_ok :
    ¬ ∃ counts after, (ungrounded.runInputs ["bad", "solo.go"]).run.run
      { outlets := { files := unruled } } = (.ok counts, after) := by
  rintro ⟨counts, after, hRun⟩
  let s : Session := { outlets := { files := unruled } }
  have hReady : s.toOutputs.Ready := ⟨Or.inr rfl, Or.inr rfl⟩
  have hStops : ungrounded.StopsAt s {} ["bad", "solo.go"] (.invalidRule "!") :=
    ⟨[], "bad", ["solo.go"], {}, s, rfl, rfl, obstacle?_unruled⟩
  obtain ⟨_, hStop⟩ := ungrounded.runFrom_stopsAt hReady hStops
  cases hRun.symm.trans hStop

end Engine

end TreeDump
