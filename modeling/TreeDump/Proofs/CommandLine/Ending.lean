import TreeDump.CommandLine.Perform
import TreeDump.Proofs.Run.Ledger
import TreeDump.Proofs.Run.Lines
import TreeDump.Proofs.Settings.Configuration

/-!
# How a command ends

A command settles its settings before it does anything.  If they are faulty, or if there are no
files to run on, it ends there with status 2, and has changed and written nothing.  If it runs, its
status tells whether there are errors among its counts, which are also the ones in the summary, and
all records are in the output by then.

* `Outputs.writeAll_printed`, `Outputs.writeAll_holds`: what is on standard output, and in a file,
  after texts were written.
* `RunCommand.IsRefused`, `RunCommand.status_eq_two_iff`: what ends before it begins.
* `RunSettings.perform_finished`, `RunSettings.Leaves`: what is left of a run that came to its end,
  and what is in its output.
* `perform_ends`: how commands end, and with which status.
* `not_status_eq_two_undecodable`: a command that has no files to run on, and does not end with
  status 2.
-/

namespace TreeDump

/-! ## Texts on standard output and in a file -/

def Emission.text : Emission → String
  | record text => text
  | notice text => text

def Emission.notice? : Emission → Option String
  | record _ => none
  | notice text => some text

theorem unlines_append (lines more : List String) :
    unlines (lines ++ more) = unlines lines ++ unlines more := by
  rw [unlines, List.map_append, String.join_append]
  rfl

theorem unlines_cons (line : String) (rest : List String) :
    unlines (line :: rest) = line ++ "\n" ++ unlines rest := by
  rw [unlines, List.map_cons, String.join_cons]
  rfl

namespace Outputs

variable {first last : Outputs}

/-- With both sinks on standard output, all texts are there, line by line. -/
theorem writeAll_printed {emissions : List Emission} (hSink : first.sink.Prints)
    (hNotices : first.notices.Prints) (hAll : first.writeAll emissions = .ok last) :
    last.outlets.printed = first.outlets.printed ++ unlines (emissions.map Emission.text) := by
  induction emissions generalizing first with
  | nil =>
    cases hAll
    exact (String.append_empty).symm
  | cons emission rest ih =>
    obtain ⟨next, hWrite, hRest⟩ := writeAll_cons hAll
    have hNext : next.sink.Prints ∧ next.notices.Prints ∧
        next.outlets.printed = first.outlets.printed ++ (emission.text ++ "\n") := by
      cases emission with
      | record text =>
        obtain ⟨sink, hText, hAfter⟩ := hSink.write? text first.outlets
        rw [write?, hText] at hWrite
        cases hWrite
        exact ⟨hAfter, hNotices, rfl⟩
      | notice text =>
        obtain ⟨notices, hText, hAfter⟩ := hNotices.write? text first.outlets
        rw [write?, hText] at hWrite
        cases hWrite
        exact ⟨hSink, hAfter, rfl⟩
    obtain ⟨hNextSink, hNextNotices, hPrinted⟩ := hNext
    rw [ih hNextSink hNextNotices hRest, hPrinted, List.map_cons, unlines_cons, String.append_assoc]

/-- With one sink on a file, the records are at its end, line by line, and only the notices are on
standard output. -/
theorem writeAll_holds {path : Path} {place : Place} {content : ByteArray}
    {emissions : List Emission} (hSink : first.sink.WritesTo path place)
    (hNotices : first.notices.Prints) (hHolds : first.outlets.files.Holds path.text place content)
    (hAll : first.writeAll emissions = .ok last) :
    (∃ final, last.outlets.files.Holds path.text place final ∧
      final.toList = content.toList ++ (emissions.filterMap Emission.record?).flatMap lineBytes) ∧
    last.outlets.printed
      = first.outlets.printed ++ unlines (emissions.filterMap Emission.notice?) := by
  induction emissions generalizing first content with
  | nil =>
    cases hAll
    exact ⟨⟨content, hHolds, (List.append_nil _).symm⟩, (String.append_empty).symm⟩
  | cons emission rest ih =>
    obtain ⟨next, hWrite, hRest⟩ := writeAll_cons hAll
    have hNext : next.sink.WritesTo path place ∧ next.notices.Prints ∧
        (∃ more, next.outlets.files.Holds path.text place more ∧
          more.toList = content.toList ++ emission.record?.toList.flatMap lineBytes) ∧
        next.outlets.printed = first.outlets.printed ++ unlines emission.notice?.toList := by
      cases emission with
      | record text =>
        obtain ⟨sink, files, more, hText, hAfter, hMore, hBytes, -⟩ := hSink.write? hHolds text
        rw [write?, hText] at hWrite
        cases hWrite
        refine ⟨hAfter, hNotices, ⟨more, hMore, ?_⟩, (String.append_empty).symm⟩
        rw [hBytes, Emission.record?, Option.toList_some, List.flatMap_singleton]
      | notice text =>
        obtain ⟨notices, hText, hAfter⟩ := hNotices.write? text first.outlets
        rw [write?, hText] at hWrite
        cases hWrite
        exact ⟨hSink, hAfter, ⟨content, hHolds, (List.append_nil _).symm⟩, rfl⟩
    obtain ⟨hNextSink, hNextNotices, ⟨more, hMore, hBytes⟩, hPrinted⟩ := hNext
    obtain ⟨⟨final, hFinal, hFinalBytes⟩, hLast⟩ := ih hNextSink hNextNotices hMore hRest
    refine ⟨⟨final, hFinal, ?_⟩, ?_⟩
    · have hRecords : (emission :: rest).filterMap Emission.record?
          = emission.record?.toList ++ rest.filterMap Emission.record? := by
        cases emission <;> rfl
      rw [hFinalBytes, hBytes, hRecords, List.flatMap_append, List.append_assoc]
    · have hTexts : (emission :: rest).filterMap Emission.notice?
          = emission.notice?.toList ++ rest.filterMap Emission.notice? := by
        cases emission <;> rfl
      rw [hLast, hPrinted, hTexts, unlines_append, String.append_assoc]

end Outputs

/-! ## Settings -/

namespace RunCommand

variable {command : RunCommand} {around : Surroundings} {settings : RunSettings}
  {registry : Registry}

/-- The files to run on are those that were asked for. -/
theorem settle_files (h : command.settle around = .ok (settings, registry)) :
    settings.files = command.request.files := by
  rw [Settings.settle_eq] at h
  obtain ⟨file, -, h⟩ := Raised.bind_eq_ok.mp h
  obtain ⟨checked, hCheck, h⟩ := Raised.bind_eq_ok.mp h
  obtain ⟨registered, -, h⟩ := Raised.bind_eq_ok.mp h
  obtain ⟨rfl, rfl⟩ := Prod.mk.inj (Except.ok.inj h)
  obtain ⟨rfl, -⟩ := RunSettings.check_ok_iff.mp hCheck
  rfl

/-- That the settings of a command are faulty, or that there is nothing to run on. -/
def IsRefused (command : RunCommand) (around : Surroundings) : Prop :=
  (∃ raised, command.settle around = .error raised ∧ raised.IsConfiguration) ∨
    (∃ settled, command.settle around = .ok settled) ∧ command.request.files = []

theorem perform_refused (h : command.IsRefused around) :
    ∃ fault, command.perform around = .ofEnding around.files (.refused fault) := by
  rcases h with ⟨raised, hSettle, reason, rfl⟩ | ⟨⟨⟨settings, registry⟩, hSettle⟩, hNone⟩
  · refine ⟨.settings reason, ?_⟩
    rw [perform, hSettle]
    rfl
  · refine ⟨.noFiles, ?_⟩
    rw [perform, hSettle]
    dsimp only
    rw [settle_files hSettle, hNone]
    rfl

theorem perform_escaped {raised : Raised} (hSettle : command.settle around = .error raised)
    (hOther : ¬ raised.IsConfiguration) :
    command.perform around = .ofEnding around.files (.escaped raised) := by
  have hEnding : Ending.ofRaised raised = .escaped raised := by
    unfold Ending.ofRaised
    split
    · exact absurd ⟨_, rfl⟩ hOther
    · rfl
  rw [perform, hSettle, ← hEnding]

theorem perform_begun (hSettle : command.settle around = .ok (settings, registry))
    (hFiles : command.request.files ≠ []) :
    command.perform around = settings.perform registry command.summary around := by
  rw [perform, hSettle]
  dsimp only
  rw [settle_files hSettle, if_neg (by simpa using hFiles)]

end RunCommand

/-! ## Runs -/

namespace RunSettings

variable {settings : RunSettings} {registry : Registry} {around : Surroundings} {sink : Sink}
  {outlets : Outlets} {counts : Counts} {after : Session}

/-- A run that is begun is not refused any more. -/
theorem perform_status_ne (settings : RunSettings) (registry : Registry) (summary : Bool)
    (around : Surroundings) : (settings.perform registry summary around).ending.status ≠ 2 := by
  rw [perform]
  split
  · simp [Ending.status]
  · rename_i counts session hState
    show (if counts.hasErrors then 1 else 0) ≠ 2
    split <;> decide

/-- The session of a run once its sink is open. -/
def opened (settings : RunSettings) (around : Surroundings) (sink : Sink) (outlets : Outlets) :
    Session := { settings.session around.files with sink, outlets }

/-- A run that came to its end with some counts. -/
def finished (settings : RunSettings) (counts : Counts) (summary : Bool) : FinishedRun :=
  { counts, verbose := settings.verbose, quiet := settings.quiet
    summary := if summary then some settings.format else none }

theorem finished_summaryLines (settings : RunSettings) (counts : Counts) (summary : Bool) :
    (settings.finished counts summary).summaryLines
      = if summary then [settings.format.render counts.summary] else [] := by
  cases summary <;> rfl

theorem finished_status (settings : RunSettings) (counts : Counts) (summary : Bool) :
    (Ending.finished (settings.finished counts summary)).status
      = if 0 < counts.error then 1 else 0 := by
  show (if decide (0 < counts.error) = true then 1 else 0) = _
  by_cases hErrors : 0 < counts.error <;> simp [hErrors]

/-- A run whose sink opens and that answers counts comes to its end, and its sink is closed. -/
theorem perform_finished (summary : Bool)
    (hOpen : (settings.session around.files).sink.open? { files := around.files }
      = .ok (sink, outlets))
    (hRun : ((settings.engine registry around).runInputs (settings.files.map Path.text)).run.run
      (settings.opened around sink outlets) = (.ok counts, after)) :
    settings.perform registry summary around =
      { ending := .finished (settings.finished counts summary)
        session := { after with sink := after.sink.close }
        level := shownLevel settings.verbose settings.quiet } := by
  have hHandle : (settings.handle (settings.engine registry around)).run.run
      (settings.session around.files)
        = (.ok counts, { after with sink := after.sink.close }) := by
    have hSession : (settings.session around.files).sink.open?
        (settings.session around.files).outlets = .ok (sink, outlets) := hOpen
    have hSet : (set { settings.session around.files with sink, outlets } : Run Unit).run.run
        (settings.session around.files) = (.ok (), settings.opened around sink outlets) := rfl
    rw [handle, Run.get_bind, hSession, Run.bind_ok hSet, Run.bind_ok hRun]
    rfl
  have hState : StateT.run (ExceptT.run (settings.handle (settings.engine registry around)))
      (settings.session around.files)
        = (.ok counts, { after with sink := after.sink.close }) := hHandle
  rw [perform, hState]
  rfl

/-- What is in the output of a run after texts were written: without a file for the output,
they are all on standard output, and no file has changed; with one, the records are at its end, and
the notices alone are on standard output. -/
def Leaves (settings : RunSettings) (files : FileSystem) (emissions : List Emission)
    (outlets : Outlets) : Prop :=
  match settings.output with
  | none => outlets.printed = unlines (emissions.map Emission.text) ∧ outlets.files = files
  | some path => ∃ initial final,
      (files.read path.text = .ok initial ∨
        files.read path.text = .error .notFound ∧ initial = .empty) ∧
      outlets.files.read path.text = .ok final ∧
      final.toList = initial.toList ++ (emissions.filterMap Emission.record?).flatMap lineBytes ∧
      outlets.printed = unlines (emissions.filterMap Emission.notice?)

theorem writeAll_leaves {emissions : List Emission} {last : Outputs}
    (hOpen : (settings.session around.files).sink.open? { files := around.files }
      = .ok (sink, outlets))
    (hAll : (settings.opened around sink outlets).toOutputs.writeAll emissions = .ok last) :
    settings.Leaves around.files emissions last.outlets := by
  have hNotices : (settings.opened around sink outlets).notices.Prints := ⟨rfl, Or.inl rfl⟩
  have hSink : (settings.session around.files).sink = { path := settings.output } := rfl
  rw [hSink] at hOpen
  rw [Leaves]
  cases hOutput : settings.output with
  | none =>
    rw [hOutput] at hOpen
    obtain ⟨rfl, rfl⟩ := Prod.mk.inj (Except.ok.inj hOpen)
    have hPrints : Sink.Prints { destination := some .standardOutput } := ⟨rfl, Or.inr rfl⟩
    refine ⟨?_, ?_⟩
    · rw [Outputs.writeAll_printed hPrints hNotices hAll]
      exact String.empty_append
    · exact Outputs.Fileless.lastingly ⟨hPrints.fileless, hNotices.fileless⟩ _ _ hAll
  | some path =>
    rw [hOutput, Sink.open?] at hOpen
    dsimp only at hOpen
    split at hOpen
    · rename_i place files hFile
      obtain ⟨rfl, rfl⟩ := Prod.mk.inj (Except.ok.inj hOpen)
      obtain ⟨initial, hHolds, hInitial⟩ := FileSystem.openFile_holds hFile
      obtain ⟨⟨final, hFinal, hBytes⟩, hPrinted⟩ :=
        Outputs.writeAll_holds ⟨rfl, Or.inr rfl⟩ hNotices hHolds hAll
      refine ⟨initial, final, ?_, hFinal.read_eq, hBytes, ?_⟩
      · rcases hInitial with rfl | hMade
        · exact Or.inl hHolds.read_eq
        · exact Or.inr hMade
      · rw [hPrinted]
        exact String.empty_append
    · cases hOpen

end RunSettings

/-! ## Two commands -/

/-- A directory with a source file, and parsers that find one leaf in every file. -/
def leafyDirectory : Surroundings where
  files := Processor.twoFiles
  home := {}
  grammars := Processor.leafy.grammars

/-- No settings file is found in the directory. -/
theorem loadDefault_leafyDirectory :
    FileSettings.loadDefault leafyDirectory.files leafyDirectory.home = .ok {} := by
  have hTexts : (Path.child ⟨.root, []⟩ FileSettings.defaultName).text = "/.astgenrc" ∧
      (Path.child {} FileSettings.defaultName).text = ".astgenrc" := by decide
  have hStat : Processor.twoFiles.stat "/.astgenrc" = .error .notFound ∧
      Processor.twoFiles.stat ".astgenrc" = .error .notFound :=
    ⟨FileSystem.stat_of_along rfl (by decide) rfl, FileSystem.stat_of_along rfl (by decide) rfl⟩
  have hNone : FileSettings.findDefault leafyDirectory.files leafyDirectory.home = .ok none := by
    simp [FileSettings.findDefault, FileSettings.defaultPaths, FileSettings.firstFile?,
      leafyDirectory, show Processor.twoFiles.working = [] from rfl, hTexts, FileSystem.isFile, hStat,
      Refusal.meansAbsent]
  rw [FileSettings.loadDefault, hNone]
  rfl

theorem ofArguments_leafyDirectory :
    Command.ofArguments ["--summary", "solo.go"] = .ok (.run
      { request := { maxDepth := some defaultMaxDepth, files := [.ofString "solo.go"] }
        summary := true }) := by
  let sorted : Arguments := { switches := [(.summary, "")], files := ["solo.go"] }
  have hRead : Arguments.read ["--summary", "solo.go"] = .ok sorted := by decide
  have hGiven : sorted.given = [.summary] := by decide
  have hPath : RunCommand.readPath "solo.go" = .ok (.ofString "solo.go") := by
    simp [RunCommand.readPath]
  rw [Command.ofArguments, hRead]
  dsimp only
  rw [Command.ofSorted, RunCommand.ofArguments, hGiven, List.mapM_cons, hPath]
  rfl

theorem ofArguments_undecodable :
    Command.ofArguments ["-c", "c"] = .ok (.run { config := some (.ofString "c") }) := by
  let sorted : Arguments := { switches := [(.config, "c")] }
  have hRead : Arguments.read ["-c", "c"] = .ok sorted := by decide
  have hGiven : sorted.given = [.config] := by decide
  have hValues : sorted.values .config = ["c"] := by decide
  have hPath : RunCommand.readPath (["c"].getLastD "") = .ok (.ofString "c") := by
    simp [RunCommand.readPath]
  rw [Command.ofArguments, hRead]
  dsimp only
  rw [Command.ofSorted, RunCommand.ofArguments, hGiven, RunCommand.setAll, hValues, RunCommand.set,
    hPath]
  rfl

/-! ## Commands -/

theorem RunCommand.status_eq_two_iff {command : RunCommand} {around : Surroundings} :
    (command.perform around).ending.status = 2 ↔ command.IsRefused around := by
  constructor
  · intro hStatus
    cases hSettle : command.settle around with
    | error raised =>
      by_cases hConfiguration : raised.IsConfiguration
      · exact Or.inl ⟨raised, hSettle, hConfiguration⟩
      · rw [perform_escaped hSettle hConfiguration] at hStatus
        cases hStatus
    | ok settled =>
      obtain ⟨settings, registry⟩ := settled
      by_cases hFiles : command.request.files = []
      · exact Or.inr ⟨⟨_, hSettle⟩, hFiles⟩
      · rw [perform_begun hSettle hFiles] at hStatus
        exact absurd hStatus (settings.perform_status_ne registry command.summary around)
  · intro hRefused
    obtain ⟨fault, hPerform⟩ := perform_refused hRefused
    rw [hPerform]
    rfl

/-- A command ends with status 2 just if its settings are faulty or it has no files, and then it
has done and written nothing; nor has it if its settings fail with something else, which ends it with
status 1.  A run whose sink opens and that answers counts ends with status 1 if there are errors
among them and with status 0 if there are none.  Then its records are all in the output, one for each
file that was parsed, and after the log there is one summary on standard error, if it was asked for,
with those counts and their sum. -/
theorem perform_ends {around : Surroundings} {arguments : List String} {command : RunCommand}
    (hCommand : Command.ofArguments arguments = .ok (.run command)) :
    let done := perform around arguments
    (done.ending.status = 2 ↔ command.IsRefused around) ∧
    (command.IsRefused around →
      done.standardOutput = "" ∧ done.session = { outlets := { files := around.files } }) ∧
    (∀ raised, command.settle around = .error raised → ¬ raised.IsConfiguration →
      done.ending = .escaped raised ∧ done.ending.status = 1 ∧
      done.session = { outlets := { files := around.files } }) ∧
    ∀ settings registry sink outlets counts after,
      command.settle around = .ok (settings, registry) → command.request.files ≠ [] →
      (settings.session around.files).sink.open? { files := around.files } = .ok (sink, outlets) →
      ((settings.engine registry around).runInputs (settings.files.map Path.text)).run.run
        (settings.opened around sink outlets) = (.ok counts, after) →
      let run := settings.finished counts command.summary
      done.ending = .finished run ∧
      done.ending.status = (if 0 < counts.error then 1 else 0) ∧
      (∀ duration, done.standardError duration
        = unlines ((after.log.filter fun r => done.level.rank ≤ r.level.rank).map LogRecord.line)
          ++ unlines (run.durationLines duration
            ++ (if command.summary then [settings.format.render (.obj [("summary", .obj
                  [("files_processed", .int counts.success), ("errors", .int counts.error),
                    ("skipped", .int counts.skipped),
                    ("total", .int (counts.success + counts.error + counts.skipped))])])]
                else [])
            ++ run.failureLines)) ∧
      ∃ entries : List (List Outcome),
        (∀ fs, (settings.engine registry around).Steady fs
            (settings.opened around sink outlets).toOutputs (settings.files.map Path.text) →
          ((settings.engine registry around).ledger fs (settings.files.map Path.text)
            { capacity := settings.poolSize }).1 = entries) ∧
        counts = Counts.ofOutcomes entries.flatten ∧
        (entries.flatten.countP Outcome.isRecord : Int)
          = (if settings.dryRun then 0 else counts.success) ∧
        settings.Leaves around.files (entries.flatten.filterMap
          (Outcome.emission? (settings.engine registry around).reports)) done.session.outlets := by
  intro done
  have hDone : done = command.perform around := by
    show perform around arguments = _
    rw [perform, hCommand]
    rfl
  rw [hDone]
  refine ⟨command.status_eq_two_iff, ?_, ?_, ?_⟩
  · intro hRefused
    obtain ⟨fault, hPerform⟩ := RunCommand.perform_refused hRefused
    rw [hPerform]
    exact ⟨rfl, rfl⟩
  · intro raised hSettle hOther
    rw [RunCommand.perform_escaped hSettle hOther]
    exact ⟨rfl, rfl, rfl⟩
  · intro settings registry sink outlets counts after hSettle hFiles hOpen hRun run
    obtain ⟨entries, hBooks, hLedger⟩ := Engine.runInputs_books hRun
    have hLeaves := RunSettings.writeAll_leaves hOpen hBooks.written
    rw [RunCommand.perform_begun hSettle hFiles,
      RunSettings.perform_finished command.summary hOpen hRun]
    refine ⟨rfl, settings.finished_status counts command.summary, ?_, entries, ?_,
      hBooks.counts_eq, hBooks.sink_written.2, hLeaves⟩
    · intro duration
      rw [Performance.standardError, Ending.notices, settings.finished_summaryLines]
      rfl
    · intro fs hSteady
      exact congrArg Prod.fst (hLedger fs hSteady)

/-- The source file is parsed, its record is written, and the summary comes after the log. -/
theorem perform_ends_summary :
    let done := perform leafyDirectory ["--summary", "solo.go"]
    ∃ record log, done.ending.status = 0 ∧ done.standardOutput = record ++ "\n" ∧
      done.standardError ""
        = unlines (log ++ [OutputFormat.json.render (Counts.summary ⟨1, 0, 0⟩)]) := by
  intro done
  let request : Request :=
    { maxDepth := some defaultMaxDepth, files := [.ofString "solo.go"] }
  let settings := RunSettings.merge {} request
  let engine := settings.engine .default leafyDirectory
  let s := settings.opened leafyDirectory { destination := some .standardOutput }
    { files := leafyDirectory.files }
  have hSettle : RunCommand.settle { request, summary := true } leafyDirectory
      = .ok (settings, .default) := by
    have hCheck : settings.check leafyDirectory.files = .ok settings := rfl
    have hFile : Settings.settingsFile leafyDirectory none = .ok {} := loadDefault_leafyDirectory
    rw [Settings.settle_eq, Raised.bind_of_ok hFile, RunSettings.resolve, Raised.bind_of_ok hCheck]
    rfl
  have hInputs : settings.files.map Path.text = ["solo.go"] := by decide
  have hStat := Processor.stat_twoFiles.2.1
  have hText : (Path.ofString "solo.go").text = "solo.go" := by decide
  have hSink : s.sink.Prints := ⟨rfl, Or.inr rfl⟩
  have hNotices : s.notices.Prints := ⟨rfl, Or.inl rfl⟩
  have hFileless : s.toOutputs.Fileless := ⟨hSink.fileless, hNotices.fileless⟩
  have hClear : ∀ input ∈ settings.files.map Path.text,
      engine.obstacle? s.outlets.files input = none := by
    rw [hInputs]
    intro input hInput
    obtain rfl := List.mem_singleton.mp hInput
    show engine.obstacle? Processor.twoFiles "solo.go" = none
    rw [Engine.obstacle?, hText, hStat]
    rfl
  obtain ⟨counts, after, hRun⟩ := Engine.runInputs_of_fileless hFileless hClear
  obtain ⟨-, hStatus, hError, entries, hLedger, hCounts, -, hLeaves⟩ :=
    (perform_ends ofArguments_leafyDirectory).2.2.2 settings .default _ _ counts after hSettle
      (List.cons_ne_nil _ _) rfl hRun
  obtain ⟨language, record, document, hProcess⟩ := Processor.leafy_process
  have hEntries : entries = [[.success "solo.go" language record (some document) false]] := by
    have hAccepts : engine.walkOptions.filter.accepts "solo.go" = true := Filter.accepts_empty _
    have hEngine : engine.processor = .leafy := rfl
    rw [← hLedger _ (engine.steady_of_fileless hFileless _), hInputs]
    show (engine.ledger Processor.twoFiles ["solo.go"] {}).1 = _
    simp [Engine.ledger, inTurn, Engine.inputOutcomes, Engine.target, hText, hStat, hAccepts,
      Entry.isDirectory, hEngine, hProcess]
  rw [hEntries] at hCounts hLeaves
  obtain rfl : counts = ⟨1, 0, 0⟩ := hCounts
  exact ⟨record, _, hStatus, hLeaves.1, (hError "").trans (unlines_append _ _).symm⟩

/-- There is a command that has no files to run on, and does not end with status 2. -/
theorem not_status_eq_two_undecodable :
    ¬ ∀ around arguments command, Command.ofArguments arguments = .ok (.run command) →
      ((∃ raised, command.settle around = .error raised ∧ raised.IsConfiguration) ∨
        command.request.files = []) →
      (perform around arguments).ending.status = 2 := by
  intro hAll
  have hText : (Path.ofString "c").text = "c" := by decide
  have hFile : FileSettings.Escape Settings.undecodable.files (.ofString "c")
      (.undecodable ⟨4, 0, 0xff, .startByte⟩) :=
    .undecodable (hText ▸ Settings.read_undecodable) Settings.decode_undecodable
  have hSettle : RunCommand.settle { config := some (.ofString "c") } Settings.undecodable
      = .error (.undecodable ⟨4, 0, 0xff, .startByte⟩) := by
    rw [Settings.settle_eq]
    exact Raised.bind_of_error hFile.load_eq
  have hStatus := hAll Settings.undecodable _ _ ofArguments_undecodable (Or.inr rfl)
  rw [perform, ofArguments_undecodable] at hStatus
  dsimp only at hStatus
  rw [Command.perform, RunCommand.perform_escaped hSettle hFile.not_isConfiguration] at hStatus
  cases hStatus

end TreeDump
