import TreeDump.Run.Batch
import TreeDump.Run.Process
import TreeDump.Walk.Directories

/-!
# Runs over input paths

An input path leads to a file, which is processed, or to a directory, which is walked and whose
files are processed together.  A path that leads nowhere is an error that is counted.

* `runInputs` handles the input paths one after the other and answers the counts of all.
-/

namespace TreeDump

/-- All that settles what a run does. -/
structure Engine where
  processor : Processor
  walkOptions : WalkOptions := {}
  reports : ReportOptions

namespace Engine

/-- Processes a file in the file system as it is by then. -/
def task (engine : Engine) : Task := fun path => do
  let s ← get
  Work.task engine.processor.grammars (engine.processor.work s.outlets.files) path

/-- Handles a file that was named as an input. -/
def runFile (engine : Engine) (path : Path) : Run Counts := do
  let outcome ←
    if engine.walkOptions.filter.accepts path.text then engine.task path.text
    else pure (.skipped path.text "filtered")
  report engine.reports outcome
  return Counts.ofOutcome outcome

def runDirectory (engine : Engine) (directory : Path) : Run Counts := do
  let result := walk (← get).outlets.files engine.walkOptions directory
  modify fun s => { s with log := s.log ++ result.log }
  match result.interruption with
  | some raised => throw raised
  | none => pure ()
  if result.files.isEmpty then
    Run.log .warning ("No matching files found in directory: " ++ directory.text)
    return {}
  if engine.reports.verbose then
    Run.log .info ("Found " ++ toString result.files.length ++ " files to process")
  runBatch engine.reports engine.task (result.files.map Path.text)

def runInput (engine : Engine) (input : String) : Run Counts := do
  let path := Path.ofString input
  match (← get).outlets.files.stat path.text with
  | .error .nulByte => throw (.refused .nulByte path.text)
  | .error refusal =>
    Run.log .error ("Cannot access " ++ path.text ++ ": " ++ refusal.reason)
    return Counts.ofOutcome
      (.failed path.text (.fileAccess path.text (.refused refusal path.text)))
  | .ok entry =>
    if entry.isDirectory then
      if engine.reports.verbose then
        Run.log .info ("Processing directory: " ++ path.text)
      engine.runDirectory path
    else engine.runFile path

/-- Handles input paths one after the other and adds their counts. -/
def runFrom (engine : Engine) (counts : Counts) : List String → Run Counts
  | [] => pure counts
  | input :: rest => do
    let more ← engine.runInput input
    engine.runFrom (counts.merge more) rest

/-- Handles input paths and answers the counts of all. -/
def runInputs (engine : Engine) (inputs : List String) : Run Counts := engine.runFrom {} inputs

end Engine

end TreeDump
