import TreeDump.Error
import TreeDump.Json.Basic

/-!
# Outcomes and counts

Each file that is handled has one outcome, and a run has the counts of its outcomes.

* `Counts.add` counts one outcome and `Counts.merge` puts the counts of two runs together.
-/

namespace TreeDump

inductive Outcome where
  /-- The file was parsed, or in a dry run it would have been.  `rendered` is what is written
  out, and `document` is absent in a dry run. -/
  | success (path language rendered : String) (document : Option Json) (dryRun : Bool)
  /-- The file was left out on purpose. -/
  | skipped (path reason : String)
  | failed (path : String) (error : Error)
deriving Repr

namespace Outcome

def path : Outcome → String
  | success path _ _ _ _ => path
  | skipped path _ => path
  | failed path _ => path

def isSuccess : Outcome → Bool
  | success _ _ _ _ _ => true
  | _ => false

def isFailure : Outcome → Bool
  | failed _ _ => true
  | _ => false

end Outcome

structure Counts where
  success : Int := 0
  error : Int := 0
  skipped : Int := 0
deriving Repr, DecidableEq

namespace Counts

def merge (a b : Counts) : Counts :=
  ⟨a.success + b.success, a.error + b.error, a.skipped + b.skipped⟩

def ofOutcome : Outcome → Counts
  | .success _ _ _ _ _ => ⟨1, 0, 0⟩
  | .failed _ _ => ⟨0, 1, 0⟩
  | .skipped _ _ => ⟨0, 0, 1⟩

def add (c : Counts) (outcome : Outcome) : Counts := c.merge (ofOutcome outcome)

def total (c : Counts) : Int := c.success + c.error + c.skipped

def hasErrors (c : Counts) : Bool := 0 < c.error

def summary (c : Counts) : Json :=
  .obj [("summary", .obj [("files_processed", .int c.success), ("errors", .int c.error),
    ("skipped", .int c.skipped), ("total", .int c.total)])]

end Counts

end TreeDump
