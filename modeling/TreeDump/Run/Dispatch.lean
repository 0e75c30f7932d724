import TreeDump.Run.Work

/-!
# Dispatching files to workers

A number of workers take files from a queue and work on them at the same time, with parsers of
one pool, while a coordinator tells of the outcomes, one by one, as they come in.  The pool is
locked while a parser is taken out or put back, but not while one is built or used, so the steps of
several workers may come in any order.

* `Stage.step` is the next step of one worker.
* `Dispatch.Step` is a step of any of them, or of the coordinator.
* `Dispatch.Ends` says what a batch of files may end with.
-/

namespace TreeDump

/-! ## Workers -/

/-- Where the work on a file stands. -/
inductive Stage where
  | working (work : Work)
  /-- No parser was idle, so one is to be built. -/
  | building (language : String) (bytes : ByteArray)
      (resume : Except Raised (Option SyntaxTree) → Work)
  | holding (language : String) (parser : Nat) (bytes : ByteArray)
      (resume : Except Raised (Option SyntaxTree) → Work)
  /-- The parsing is done, and the parser is to be put back. -/
  | returning (language : String) (parser : Nat) (tree : Option SyntaxTree)
      (resume : Except Raised (Option SyntaxTree) → Work)

/-- The next step of a worker, unless its work is done.  A parser that failed is not put back. -/
def Stage.step (grammars : GrammarSource) : Stage → Pool → Option (Stage × Pool)
  | working (.finish _), _ => none
  | working (.parse language bytes resume), pool =>
    match pool.take language with
    | (some parser, pool) => some (holding language parser bytes resume, pool)
    | (none, pool) => some (building language bytes resume, pool)
  | building language bytes resume, pool =>
    match pool.build grammars language with
    | (.ok parser, pool) => some (holding language parser bytes resume, pool)
    | (.error raised, pool) => some (working (resume (.error raised)), pool)
  | holding language parser bytes resume, pool =>
    match pool.action grammars language parser bytes with
    | .ok tree => some (returning language parser tree resume, pool)
    | .error raised => some (working (resume (.error raised)), pool)
  | returning language parser tree resume, pool =>
    some (working (resume (.ok tree)), pool.release language parser)

structure Job where
  path : String
  stage : Stage

/-! ## Workers and coordinator -/

/-- A batch of files and what there is to do with them. -/
structure Dispatch where
  grammars : GrammarSource
  work : String → Work
  options : ReportOptions
  files : List String

namespace Dispatch

structure State where
  session : Session
  /-- The files that no worker has taken yet. -/
  queue : List String
  running : List Job := []
  /-- The files that were worked on, but not told of. -/
  finished : List (String × Outcome) := []
  /-- The files that were told of, in that order. -/
  handled : List (String × Outcome) := []
  counts : Counts := {}

def start (d : Dispatch) (s : Session) : State :=
  { session := opened d.options d.files.length s, queue := d.files }

/-- That all files were told of. -/
def State.Done (state : State) : Prop :=
  state.queue = [] ∧ state.running = [] ∧ state.finished = []

/-- A step of a worker or of the coordinator. -/
inductive Step (d : Dispatch) (state : State) : State → Prop where
  /-- A worker takes the next file from the queue. -/
  | start {path : String} {rest : List String} (hQueue : state.queue = path :: rest)
      (hFree : state.running.length < d.options.threads) :
      Step d state { state with
        queue := rest, running := state.running ++ [⟨path, .working (d.work path)⟩] }
  /-- A worker goes on with its file. -/
  | work {before after : List Job} {job : Job} {stage : Stage} {pool : Pool}
      (hRunning : state.running = before ++ job :: after)
      (hStep : job.stage.step d.grammars state.session.pool = some (stage, pool)) :
      Step d state { state with
        running := before ++ ⟨job.path, stage⟩ :: after
        session := { state.session with pool } }
  /-- A worker is done with its file. -/
  | finish {before after : List Job} {path : String} {result : Except Raised Outcome}
      (hRunning : state.running = before ++ ⟨path, .working (.finish result)⟩ :: after) :
      Step d state { state with
        running := before ++ after
        finished := state.finished ++ [(path, .ofResult path result)] }
  /-- The coordinator tells of a file, whichever it is of those that were worked on. -/
  | handle {before after : List (String × Outcome)} {path : String} {outcome : Outcome}
      {session : Session} (hFinished : state.finished = before ++ (path, outcome) :: after)
      (hHandle : (TreeDump.handle d.options d.files.length outcome).run.run state.session
        = (.ok (), session)) :
      Step d state { state with
        session
        finished := before ++ after
        handled := state.handled ++ [(path, outcome)]
        counts := state.counts.add outcome }

inductive Steps (d : Dispatch) (state : State) : State → Prop where
  | none : Steps d state state
  | more {middle last : State} (hSteps : Steps d state middle) (hStep : Step d middle last) :
      Steps d state last

/-- What a batch may end with: the files that were told of, in that order, the counts, and the
session. -/
inductive Ends (d : Dispatch) (s : Session) :
    List (String × Outcome) → Counts → Session → Prop where
  | nothing (hFiles : d.files = []) : Ends d s [] {} s
  | done {state : State} (hFiles : d.files ≠ []) (hSteps : d.Steps (d.start s) state)
      (hDone : state.Done) :
      Ends d s state.handled state.counts
        (closed d.options d.files.length state.counts state.session)

end Dispatch

end TreeDump
