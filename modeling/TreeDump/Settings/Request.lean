import TreeDump.Error
import TreeDump.Settings.Field

/-!
# Requests

A request is what whoever starts a run asks for.  What it does not mention is left to the
settings file and to the defaults.

* `Request.ofLayer` reads a request from values by name.
-/

namespace TreeDump

structure Request where
  files : List Path := []
  format : Option OutputFormat := none
  truncate : Option Int := none
  verbose : Bool := false
  quiet : Bool := false
  threads : Option Int := none
  dryRun : Bool := false
  maxFileMegabytes : Option Int := none
  followLinks : Bool := false
  maxDepth : Option Int := none
  included : List String := []
  excluded : List String := []
  output : Option Path := none
  progress : Bool := false
  strict : Bool := false
  poolSize : Option Int := none
deriving Repr, DecidableEq

namespace Request

open Settings

/-- The word for a kind of value in messages. -/
def kindName : Value → String
  | .nothing => "NoneType"
  | .flag _ => "bool"
  | .whole _ => "int"
  | .real _ => "float"
  | .text _ => "str"
  | .moment => "datetime.datetime"
  | .list _ => "list"
  | .table _ => "dict"

/-- The parts of a value one by one: elements, characters or names. -/
def parts : Value → Except Raised (List Value)
  | .list items => .ok items
  | .text s => .ok (s.toList.map fun c => .text c.toString)
  | .table fields => .ok (fields.map fun field => .text field.1)
  | value => .error (.notIterable (kindName value))

/-- The values of a layer that are given. -/
def given (layer : List (String × Value)) : List (String × Value) :=
  layer.filter fun
    | (_, .nothing) => false
    | _ => true

/-- The request that values by name make, once the excluded patterns are a list. -/
def ofFields (fields : List (String × Value)) (excluded : List Value) : Fit Request := do
  let files ← fitField fields "files" (fitList fitPath) []
  let format ← match fields.lookup "output_format" with
    | some value =>
      if value.isTruthy then within "output_format" (some <$> fitFormat value) else pure none
    | none => pure none
  let truncate ← fitOptional fields "truncate" fitWhole
  let verbose ← fitField fields "verbose" fitFlag false
  let quiet ← fitField fields "quiet" fitFlag false
  let threads ← fitOptional fields "threads" fitWhole
  let dryRun ← fitField fields "dry_run" fitFlag false
  let maxFileMegabytes ← fitOptional fields "max_file_size_mb" fitWhole
  let followLinks ← fitField fields "follow_links" fitFlag false
  let maxDepth ← fitOptional fields "max_depth" fitWhole
  let included ← fitField fields "include" (fitList fitText) []
  let excluded ← within "exclude" (fitItems fitText 0 excluded)
  let output ← fitOptional fields "output" fitPath
  let progress ← fitField fields "progress" fitFlag false
  let strict ← fitField fields "strict" fitFlag false
  let poolSize ← fitOptional fields "parser_pool_size" fitWhole
  return { files, format, truncate, verbose, quiet, threads, dryRun, maxFileMegabytes, followLinks,
           maxDepth, included, excluded, output, progress, strict, poolSize }

/-- The request that a layer of values by name makes.  Names that mean nothing are passed
over. -/
def ofLayer (layer : List (String × Value)) : Except Raised Request := do
  let fields := given layer
  let excluded ← match fields.lookup "exclude" with
    | some value => parts value
    | none => pure []
  match ofFields fields excluded with
  | .ok request => return request
  | .error fault => throw (.error (.configuration fault.text))

end Request

end TreeDump
