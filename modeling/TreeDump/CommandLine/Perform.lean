import TreeDump.CommandLine.Command
import TreeDump.CommandLine.Help
import TreeDump.Run.Inputs
import TreeDump.Settings.Run

/-!
# Performing commands

A run first settles its settings, and only then are files looked at.  It ends with status 0, with
1 if a file failed or something unexpected came up, and with 2 if there was nothing to be done.

* `perform` performs the command of some arguments; `Performance.standardOutput`,
  `standardError` and `Ending.status` are what is left of it.
-/

namespace TreeDump

/-- What a command finds around it. -/
structure Surroundings where
  files : FileSystem
  home : Path
  grammars : GrammarSource
  processors : Option Int := none
  /-- The version of the grammars, if they are installed. -/
  grammarVersion : Option String := none

/-- A run that came to its end. -/
structure FinishedRun where
  counts : Counts
  verbose : Bool
  quiet : Bool
  /-- The format in which the counts are told, if they are. -/
  summary : Option OutputFormat
deriving Repr, DecidableEq

/-- How a command ends. -/
inductive Ending where
  | shown
  | finished (run : FinishedRun)
  | refused (fault : UsageFault)
  | escaped (raised : Raised)
deriving Repr, DecidableEq

structure Performance where
  ending : Ending
  session : Session
  level : LogLevel := .warning

namespace Ending

def status : Ending → Nat
  | shown => 0
  | finished run => if run.counts.hasErrors then 1 else 0
  | refused _ => 2
  | escaped _ => 1

end Ending

namespace FinishedRun

/-- The last record of the log, which tells how long the run took. -/
def durationLines (run : FinishedRun) (duration : String) : List String :=
  if run.verbose then
    ["[INFO] Processed " ++ toString run.counts.success ++ " files with "
      ++ toString run.counts.error ++ " errors in " ++ duration]
  else []

def summaryLines (run : FinishedRun) : List String :=
  run.summary.toList.map fun format => format.render run.counts.summary

def failureLines (run : FinishedRun) : List String :=
  if run.counts.hasErrors && !run.quiet then
    ["❌ " ++ toString run.counts.error ++ " file(s) failed to process",
      "   Run with --verbose for details"]
  else []

end FinishedRun

/-- What is written to standard error at the end. -/
def Ending.notices (duration : String) : Ending → String
  | shown | escaped _ => ""
  | finished run => unlines (run.durationLines duration ++ run.summaryLines ++ run.failureLines)
  | refused fault => fault.text

def LogRecord.line (r : LogRecord) : String := "[" ++ r.level.name ++ "] " ++ r.message

namespace Performance

def standardOutput (p : Performance) : String := p.session.outlets.printed

/-- What was written to standard error, if the run took as long as `duration` says. -/
def standardError (p : Performance) (duration : String) : String :=
  let shown := p.session.log.filter fun r => p.level.rank ≤ r.level.rank
  unlines (shown.map LogRecord.line) ++ p.ending.notices duration

/-- A text that is shown, and nothing else. -/
def ofText (files : FileSystem) (text : String) : Performance :=
  { ending := .shown, session := { outlets := { files, printed := text } } }

def ofEnding (files : FileSystem) (ending : Ending) : Performance :=
  { ending, session := { outlets := { files } } }

end Performance

/-! ## Runs -/

/-- Why a run is not begun: settings that cannot be used are a fault of usage. -/
def Ending.ofRaised : Raised → Ending
  | .error (.configuration reason) => .refused (.settings reason)
  | raised => .escaped raised

def RunCommand.settle (command : RunCommand) (around : Surroundings) :
    Except Raised (RunSettings × Registry) := do
  let file ← match command.config with
    | some path => FileSettings.load around.files path
    | none => FileSettings.loadDefault around.files around.home
  let settings ← RunSettings.resolve around.files file command.request
  return (settings, ← settings.registry)

def RunSettings.engine (s : RunSettings) (registry : Registry) (around : Surroundings) : Engine where
  processor := { registry, grammars := around.grammars, options := s.processOptions }
  walkOptions := s.walkOptions
  reports :=
    { threads := threadCount s.threads around.processors, forceProgress := s.progress
      quiet := s.quiet, verbose := s.verbose }

def RunSettings.session (s : RunSettings) (files : FileSystem) : Session where
  outlets := { files }
  sink := { path := s.output }
  pool := { capacity := s.poolSize }

/-- Opens the sink, handles the files and closes the sink. -/
def RunSettings.handle (s : RunSettings) (engine : Engine) : Run Counts := do
  let session ← get
  match session.sink.open? session.outlets with
  | .error raised => throw raised
  | .ok (sink, outlets) => set { session with sink, outlets }
  let counts ← engine.runInputs (s.files.map Path.text)
  modify fun session => { session with sink := session.sink.close }
  return counts

def shownLevel (verbose quiet : Bool) : LogLevel :=
  if verbose then .info else if quiet then .error else .warning

def RunSettings.perform (s : RunSettings) (registry : Registry) (summary : Bool)
    (around : Surroundings) : Performance :=
  let level := shownLevel s.verbose s.quiet
  match StateT.run (ExceptT.run (s.handle (s.engine registry around))) (s.session around.files) with
  | (.error raised, session) => { ending := .escaped raised, session, level }
  | (.ok counts, session) =>
    { ending := .finished
        { counts, verbose := s.verbose, quiet := s.quiet
          summary := if summary then some s.format else none }
      session, level }

def RunCommand.perform (command : RunCommand) (around : Surroundings) : Performance :=
  match command.settle around with
  | .error raised => .ofEnding around.files (.ofRaised raised)
  | .ok (settings, registry) =>
    if settings.files.isEmpty then .ofEnding around.files (.refused .noFiles)
    else settings.perform registry command.summary around

def Command.perform (around : Surroundings) : Command → Performance
  | .showHelp => .ofText around.files helpText
  | .showVersion => .ofText around.files versionText
  | .listLanguages => .ofText around.files (unlines (languageListing around.grammarVersion).lines)
  | .run command => command.perform around

/-- Performs the command that arguments ask for. -/
def perform (around : Surroundings) (arguments : List String) : Performance :=
  match Command.ofArguments arguments with
  | .ok command => command.perform around
  | .error (.usage fault) => .ofEnding around.files (.refused fault)
  | .error (.raised raised) => .ofEnding around.files (.escaped raised)

end TreeDump
