import TreeDump.Run.Dispatch
import TreeDump.Run.Inputs

/-!
# Runs with workers

A run goes over its input paths one after the other and hands the files of each directory to workers,
whose steps may come in any order.  Files are read from a file system that stays as it is.  The lines
of the log, apart from those about single files, are left open.

* `Engine.Handles`: what an input path may come to.
* `Engine.Runs`: what a run over input paths may come to, if it comes to its end.
* `Engine.submitted`: the files of an input path in the order in which they are handed to workers.
-/

namespace TreeDump.Engine

variable (engine : Engine) (fs : FileSystem)

/-- Files as they are handed to workers. -/
def shared (files : List String) : Dispatch where
  grammars := engine.processor.grammars
  work := engine.processor.work fs
  options := engine.reports
  files := files

/-- The outcome of a file that was named as an input, with the parsers of a pool. -/
def named (path : String) (pool : Pool) : Outcome × Pool :=
  if engine.walkOptions.filter.accepts path then engine.processor.process fs path pool
  else (.skipped path "filtered", pool)

/-- The outcome of an input path that leads nowhere. -/
def unreachable (path : String) (refusal : Refusal) : Outcome :=
  .failed path (.fileAccess path (.refused refusal path))

/-- What an input path may come to: the files that were told of, in that order, each with its outcome,
the counts, and the session. -/
inductive Handles (s : Session) (input : String) :
    List (String × Outcome) → Counts → Session → Prop where
  | nowhere {refusal : Refusal} {log : List LogRecord}
      (hStat : fs.stat (Path.ofString input).text = .error refusal) (hAsked : refusal ≠ .nulByte) :
      Handles s input
        [((Path.ofString input).text, unreachable (Path.ofString input).text refusal)]
        (.ofOutcome (unreachable (Path.ofString input).text refusal)) { s with log }
  | file {entry : Entry} {outcome : Outcome} {pool : Pool} {after : Session}
      (hStat : fs.stat (Path.ofString input).text = .ok entry) (hFile : entry.isDirectory = false)
      (hOutcome : engine.named fs (Path.ofString input).text s.pool = (outcome, pool))
      (hReport : (report engine.reports outcome).run.run { s with pool } = (.ok (), after)) :
      Handles s input [((Path.ofString input).text, outcome)] (.ofOutcome outcome) after
  /-- The files of a directory are handed to workers. -/
  | directory {entry : Entry} {log : List LogRecord} {handled : List (String × Outcome)}
      {counts : Counts} {after : Session}
      (hStat : fs.stat (Path.ofString input).text = .ok entry)
      (hDirectory : entry.isDirectory = true)
      (hWalk : (walk fs engine.walkOptions (Path.ofString input)).interruption = none)
      (hEnds : (engine.shared fs
        ((walk fs engine.walkOptions (Path.ofString input)).files.map Path.text)).Ends
          { s with log } handled counts after) :
      Handles s input handled counts after

/-- What a run over input paths may come to: what each of them came to, the counts of all, and the
session. -/
inductive Runs : Session → List String → List (List (String × Outcome)) → Counts → Session → Prop where
  | nil (s : Session) : Runs s [] [] {} s
  | cons {s middle last : Session} {input : String} {inputs : List String}
      {handled : List (String × Outcome)} {entries : List (List (String × Outcome))}
      {counts more : Counts} (hInput : engine.Handles fs s input handled counts middle)
      (hRest : Runs middle inputs entries more last) :
      Runs s (input :: inputs) (handled :: entries) (counts.merge more) last

/-- The files of an input path, in the order in which they are handed to workers. -/
def submitted (input : String) : List String :=
  let path := Path.ofString input
  match fs.stat path.text with
  | .error _ => [path.text]
  | .ok entry =>
    if entry.isDirectory then (walk fs engine.walkOptions path).files.map Path.text
    else [path.text]

/-- That files were told of in the order in which they were handed to workers. -/
def InOrder (inputs : List String) (entries : List (List (String × Outcome))) : Prop :=
  entries.map (·.map Prod.fst) = inputs.map (engine.submitted fs)

end TreeDump.Engine
