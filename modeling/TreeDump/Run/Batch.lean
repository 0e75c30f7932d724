import TreeDump.Grammar.Pool
import TreeDump.Run.Outcome
import TreeDump.Run.Sink

/-!
# Runs over many files

A run hands files to a task one after the other and reports each outcome: records go to the sink,
notices of dry runs to a sink of their own, and failures to the log.

* `Session` is all that a run can change.
* `report` tells of one outcome, and `runBatch` runs a task on a list of files and counts the
  outcomes.  A task that is interrupted counts as one failure and does not disturb the others.
-/

namespace TreeDump

/-- A call on the display of progress. -/
inductive ProgressCall where
  | start (description : String) (total : Nat)
  /-- So many files more, perhaps with another description. -/
  | update (advance : Nat) (description : Option String)
deriving Repr, DecidableEq

/-- A text that a run writes: the record of a file, or the notice of a dry run. -/
inductive Emission where
  | record (text : String)
  | notice (text : String)
deriving Repr, DecidableEq

/-- What a run writes with: records go to one sink and notices to another. -/
structure Outputs where
  outlets : Outlets := {}
  sink : Sink := {}
  notices : Sink := {}
deriving Inhabited

/-- Writes a text to the sink that it is for. -/
def Outputs.write? (outputs : Outputs) : Emission → Except Raised Outputs
  | .record text =>
    match outputs.sink.write? text outputs.outlets with
    | .ok (sink, outlets) => .ok { outputs with sink, outlets }
    | .error raised => .error raised
  | .notice text =>
    match outputs.notices.write? text outputs.outlets with
    | .ok (notices, outlets) => .ok { outputs with notices, outlets }
    | .error raised => .error raised

/-- All that a run can change. -/
structure Session extends Outputs where
  pool : Pool := {}
  log : List LogRecord := []
  progress : List ProgressCall := []
deriving Inhabited

/-- Steps of a run.  What changed before an interruption stays changed. -/
abbrev Run := ExceptT Raised (StateM Session)

structure ReportOptions where
  threads : Int
  /-- Whether progress is always shown. -/
  forceProgress : Bool := false
  quiet : Bool := false
  verbose : Bool := false
deriving Repr, DecidableEq

def maxThreads : Int := 64

/-- The number of threads: the one asked for, or that of the processors, between one and the
largest number. -/
def threadCount (asked processors : Option Int) : Int :=
  let n := match asked with
    | some n => n
    | none => match processors with
      | some n => if n = 0 then 1 else n
      | none => 1
  max 1 (min n maxThreads)

/-- The number of files above which progress is shown. -/
def progressThreshold : Int := 10

/-- Whether progress is shown for a number of files. -/
def ReportOptions.showsProgress (options : ReportOptions) (files : Int) : Bool :=
  options.forceProgress || (!options.quiet && progressThreshold < files)

namespace Run

def log (level : LogLevel) (message : String) : Run Unit :=
  modify fun s => { s with log := s.log ++ [⟨level, message⟩] }

def progress (calls : List ProgressCall) : Run Unit :=
  modify fun s => { s with progress := s.progress ++ calls }

def emit (emission : Emission) : Run Unit := do
  let s ← get
  match s.toOutputs.write? emission with
  | .ok outputs => set { s with toOutputs := outputs }
  | .error raised => throw raised

end Run

open Run in
def report (options : ReportOptions) (outcome : Outcome) : Run Unit := do
  match outcome with
  | .success _ _ rendered _ true => if !options.quiet then emit (.notice rendered)
  | .success path _ rendered _ false =>
    emit (.record rendered)
    if options.verbose then log .info ("Parsed file: " ++ path)
  | .failed path error => log .error ("Error parsing file " ++ path ++ ": " ++ error.message)
  | .skipped path reason =>
    if options.verbose then log .warning ("Skipped " ++ path ++ " (" ++ reason ++ ")")

abbrev Task := String → Run Outcome

/-- The outcome of a file whose work was interrupted. -/
def Outcome.interrupted (path : String) (raised : Raised) : Outcome :=
  .failed path (.parseFailed path raised.description)

/-- The outcome of a task on a file; an interruption is a failure of that file. -/
def isolated (task : Task) (path : String) : Run Outcome :=
  tryCatch (task path) fun raised => pure (.interrupted path raised)

/-- The calls that move the display of progress on, after a file of `total`. -/
def progressCalls (options : ReportOptions) (total : Nat) (path : String) : List ProgressCall :=
  if !options.showsProgress total then []
  else if options.verbose then
    [.update 1 (some ("Processing " ++ (Path.ofString path).name))]
  else [.update 1 none]

/-- Tells of the outcome of a file of `total`, and moves the display of progress on. -/
def handle (options : ReportOptions) (total : Nat) (outcome : Outcome) : Run Unit := do
  report options outcome
  Run.progress (progressCalls options total outcome.path)

/-- Runs a task on files one after the other, out of `total`, and adds their outcomes to counts. -/
def runFiles (options : ReportOptions) (total : Nat) (task : Task) (counts : Counts) :
    List String → Run Counts
  | [] => pure counts
  | path :: rest => do
    let outcome ← isolated task path
    handle options total outcome
    runFiles options total task (counts.add outcome) rest

/-- What is told before the first file of `total`. -/
def opened (options : ReportOptions) (total : Nat) (s : Session) : Session :=
  { s with
    log := s.log ++ [⟨.info, "Processing " ++ toString total ++ " file(s) with "
      ++ toString options.threads ++ " thread(s)"⟩]
    progress := s.progress ++
      if options.showsProgress total then [.start "Processing files" total] else [] }

/-- What is told after the last file of `total`. -/
def closed (options : ReportOptions) (total : Nat) (counts : Counts) (s : Session) : Session :=
  { s with
    log := s.log ++
      if options.verbose then
        [⟨.info, "Successfully processed " ++ toString counts.success ++ " files, "
          ++ toString counts.error ++ " errors"⟩]
      else []
    progress := s.progress ++
      if options.showsProgress total then [.update 0 (some "Complete")] else [] }

/-- Runs a task on files and answers the counts of their outcomes. -/
def runBatch (options : ReportOptions) (task : Task) (files : List String) : Run Counts := do
  if files.isEmpty then return {}
  modify (opened options files.length)
  let counts ← runFiles options files.length task {} files
  modify (closed options files.length counts)
  return counts

end TreeDump
