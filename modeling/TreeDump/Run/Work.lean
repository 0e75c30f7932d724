import TreeDump.Run.Batch

/-!
# Work that borrows parsers

The work on one file goes on by itself, except where it needs a parser: there it tells for which
language and for which bytes, and goes on with what the parsing gave.  Several files can so be
worked on at the same time, with the borrowing of each cut into steps.

* `Work.run` does the work on one file to its end, with parsers of a pool.
* `Work.result` is what the work comes to, whatever the pool is.
-/

namespace TreeDump

/-- The work on one file. -/
inductive Work where
  | finish (result : Except Raised Outcome)
  /-- Parses bytes with a borrowed parser, and goes on with what that gave. -/
  | parse (language : String) (bytes : ByteArray)
      (resume : Except Raised (Option SyntaxTree) → Work)

namespace Work

def run (grammars : GrammarSource) : Work → Pool → Except Raised Outcome × Pool
  | finish result, pool => (result, pool)
  | parse language bytes resume, pool =>
    match pool.parse grammars language bytes with
    | (parsed, pool) => (resume parsed).run grammars pool

/-- What the work comes to. -/
def result (grammars : GrammarSource) : Work → Except Raised Outcome
  | finish result => result
  | parse language bytes resume => (resume (grammars.parsed language bytes)).result grammars

/-- The work on files as a task, with the parsers of the session. -/
def task (grammars : GrammarSource) (work : String → Work) : Task := fun path => do
  let s ← get
  let (result, pool) := (work path).run grammars s.pool
  set { s with pool }
  match result with
  | .ok outcome => return outcome
  | .error raised => throw raised

end Work

/-- The outcome of a file whose work came to a result. -/
def Outcome.ofResult (path : String) : Except Raised Outcome → Outcome
  | .ok outcome => outcome
  | .error raised => .interrupted path raised

end TreeDump
